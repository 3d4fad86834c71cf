import Mathlib.Data.List.Sort
import StrongSwan.Basic

/-!
# Proposals

A `Proposal` is a list of algorithms for a protocol, in the order in which they are preferred, with the
sorted types of these.

* `addAlgorithm`, `promoteDhGroup`, `stripDh`.
* `selectAlgo`, `selectProposal`: what two proposals have in common.
* `checkProposal`: a proposal that was read from a string.
-/

namespace StrongSwan

/-! ## Algorithms -/

/-- `transform_type_t`; peers may use numbers that have no name. -/
structure TransformType where
  number : ℕ
  deriving DecidableEq, Repr

namespace TransformType

def encryptionAlgorithm : TransformType := ⟨1⟩
def pseudoRandomFunction : TransformType := ⟨2⟩
def integrityAlgorithm : TransformType := ⟨3⟩
def diffieHellmanGroup : TransformType := ⟨4⟩
def extendedSequenceNumbers : TransformType := ⟨5⟩

end TransformType

inductive ProtocolId
  | none
  | ike
  | ah
  | esp
  | ipcomp
  deriving DecidableEq, Repr

def encrDes : U16 := 2
def encr3des : U16 := 3
def encrNull : U16 := 11
def encrAesCtr : U16 := 13
def encrAesCcmIcv8 : U16 := 14
def encrAesCcmIcv12 : U16 := 15
def encrAesCcmIcv16 : U16 := 16
def encrAesGcmIcv8 : U16 := 18
def encrAesGcmIcv12 : U16 := 19
def encrAesGcmIcv16 : U16 := 20
def encrNullAuthAesGmac : U16 := 21
def encrCamelliaCtr : U16 := 24
def encrCamelliaCcmIcv8 : U16 := 25
def encrCamelliaCcmIcv12 : U16 := 26
def encrCamelliaCcmIcv16 : U16 := 27
def encrChacha20Poly1305 : U16 := 28

def encryptionAlgorithmIsAead (alg : U16) : Bool :=
  alg ∈ [encrAesCcmIcv8, encrAesCcmIcv12, encrAesCcmIcv16, encrAesGcmIcv8, encrAesGcmIcv12,
    encrAesGcmIcv16, encrNullAuthAesGmac, encrCamelliaCcmIcv8, encrCamelliaCcmIcv12,
    encrCamelliaCcmIcv16, encrChacha20Poly1305]

def prfHmacMd5 : U16 := 1
def prfHmacSha1 : U16 := 2
def prfAes128Xcbc : U16 := 4
def prfHmacSha2256 : U16 := 5
def prfHmacSha2384 : U16 := 6
def prfHmacSha2512 : U16 := 7
def prfAes128Cmac : U16 := 8
def prfUndefined : U16 := 1024
def prfCamellia128Xcbc : U16 := 1028

def authAes128Gmac : U16 := 9
def authAes192Gmac : U16 := 10
def authAes256Gmac : U16 := 11

/-- `MODP_NONE` -/
def modpNone : U16 := 0

/-- `NO_EXT_SEQ_NUMBERS` -/
def noExtSeqNumbers : U16 := 0

/-! ## Sets of types -/

/-- This is a hack to not change the previous order when printing proposals. -/
def typeForSort (type : TransformType) : TransformType :=
  if type = .pseudoRandomFunction then .integrityAlgorithm
  else if type = .integrityAlgorithm then .pseudoRandomFunction
  else type

/-- `type_sort`, and `type_find` -/
def typeSort (a b : TransformType) : ℤ := (typeForSort a).number - (typeForSort b).number

def containsType (types : List TransformType) (type : TransformType) : Bool :=
  types.any fun t => typeSort type t = 0

def addType (types : List TransformType) (type : TransformType) : List TransformType :=
  if !containsType types type then (types ++ [type]).insertionSort fun a b => typeSort a b ≤ 0
  else types

/-! ## Proposals -/

structure Proposal.Entry where
  /-- Type of the transform -/
  type : TransformType
  /-- algorithm identifier -/
  alg : U16
  /-- key size in bits, or zero if not needed -/
  keySize : U16
  deriving DecidableEq, Repr

structure Proposal where
  protocol : ProtocolId
  /-- Priority ordered list of transforms -/
  transforms : List Proposal.Entry
  /-- Types of transforms contained -/
  types : List TransformType
  /-- senders SPI -/
  spi : U64
  /-- Proposal number -/
  number : ℕ
  deriving DecidableEq, Repr

namespace Proposal

def create (protocol : ProtocolId) (number : ℕ) : Proposal := ⟨protocol, [], [], 0, number⟩

def addAlgorithm (this : Proposal) (type : TransformType) (alg keySize : U16) : Proposal :=
  { this with
    transforms := this.transforms ++ [⟨type, alg, keySize⟩]
    types := addType this.types type }

/-- `create_enumerator`: the algorithms of a type, with their key sizes -/
def createEnumerator (this : Proposal) (type : TransformType) : List (U16 × U16) :=
  (this.transforms.filter (·.type = type)).map fun entry => (entry.alg, entry.keySize)

/-- `get_algorithm`: the first algorithm of a type -/
def getAlgorithm (this : Proposal) (type : TransformType) : Option (U16 × U16) :=
  (this.createEnumerator type).head?

def removeType (this : Proposal) (type : TransformType) : Proposal :=
  { this with types := this.types.eraseP fun t => typeSort type t = 0 }

def promoteDhGroup (this : Proposal) (group : U16) : Bool × Proposal :=
  let promoted (entry : Entry) : Bool := entry.type = .diffieHellmanGroup && entry.alg = group
  if this.transforms.any promoted then
    (true, { this with
      transforms := ⟨.diffieHellmanGroup, group, 0⟩ :: this.transforms.filter (!promoted ·) })
  else (false, this)

def stripDh (this : Proposal) (keep : U16) : Proposal :=
  let stripped (entry : Entry) : Bool := entry.type = .diffieHellmanGroup && entry.alg ≠ keep
  let kept (entry : Entry) : Bool := entry.type = .diffieHellmanGroup && entry.alg = keep
  let found := this.transforms.any kept
  let this := { this with transforms := this.transforms.filter (!stripped ·) }
  if keep = modpNone || !found then this.removeType .diffieHellmanGroup else this

/-! ## Selection -/

/-- One turn of the loop of `merge_types`. -/
def mergeAt (this other : Proposal) (types : List TransformType) (i : ℕ) : List TransformType :=
  let types := match this.types[i]? with
    | some type => addType types type
    | none => types
  match other.types[i]? with
  | some type => addType types type
  | none => types

def mergeTypes (this other : Proposal) : List TransformType :=
  (List.range (max this.types.length other.types.length)).foldl (mergeAt this other) []

/-- The inner loop of `select_algo`: does the other proposal offer an algorithm? Algorithms for private
use are only accepted if requested. -/
def offers (priv : Bool) (alg1 ks1 : U16) : List (U16 × U16) → Bool
  | [] => false
  | (alg2, ks2) :: e2 =>
    if alg1 = alg2 && ks1 = ks2 then
      if !priv && alg1 ≥ 1024 then offers priv alg1 ks1 e2 else true
    else offers priv alg1 ks1 e2

/-- The outer loop: the order of the algorithms in the first proposal is preferred. -/
def firstMatch (priv : Bool) (e2 : List (U16 × U16)) : List (U16 × U16) → Option (U16 × U16)
  | [] => none
  | (alg1, ks1) :: e1 => if offers priv alg1 ks1 e2 then some (alg1, ks1) else firstMatch priv e2 e1

/-- If NONE is proposed, we accept the proposal. -/
def proposesNone (e : List (U16 × U16)) : Bool := e.any fun a => a.1 = modpNone

/-- Is nothing to be selected, as an algorithm is missing on both sides, or is optional? -/
def nothingToSelect (optional : Bool) : List (U16 × U16) → List (U16 × U16) → Bool
  | [], [] => true
  | [], e2 => optional && proposesNone e2
  | e1, [] => optional && proposesNone e1
  | _, _ => false

def hasAead (selected : Proposal) : Bool :=
  match selected.getAlgorithm .encryptionAlgorithm with
  | some (alg, _) => encryptionAlgorithmIsAead alg
  | none => false

/-- `select_algo`: select a matching algorithm, and insert it into `selected` -/
def selectAlgo (this other selected : Proposal) (type : TransformType) (priv : Bool) :
    Bool × Proposal :=
  -- no integrity algorithm required, we have an AEAD
  if type = .integrityAlgorithm && selected.hasAead then (true, selected)
  else
    let optional := type = .diffieHellmanGroup && (this.protocol = .esp || this.protocol = .ah)
    let e1 := this.createEnumerator type
    let e2 := other.createEnumerator type
    if nothingToSelect optional e1 e2 then (true, selected)
    else
      match firstMatch priv e2 e1 with
      | some (alg, keySize) => (true, selected.addAlgorithm type alg keySize)
      | none => (false, selected)

/-- The loop of `select_proposal` over the types. -/
def selectTypes (this other : Proposal) (priv : Bool) : List TransformType → Proposal → Option Proposal
  | [], selected => some selected
  | type :: types, selected =>
    match selectAlgo this other selected type priv with
    | (true, selected) => selectTypes this other priv types selected
    | (false, _) => none

/-- `select_proposal`; the number and the SPI are taken from the remote proposal. -/
def selectProposal (this other : Proposal) (otherRemote priv : Bool) : Option Proposal :=
  if this.protocol ≠ other.protocol then none
  else
    let selected :=
      if otherRemote then { create this.protocol other.number with spi := other.spi }
      else { create this.protocol this.number with spi := this.spi }
    selectTypes this other priv (mergeTypes this other) selected

/-! ## Checks -/

/-- Map integrity algorithms to the PRF functions using the same algorithm. -/
def integPrfMap : List (U16 × U16) :=
  [(2, prfHmacSha1), (7, prfHmacSha1), (12, prfHmacSha2256), (13, prfHmacSha2384),
    (14, prfHmacSha2512), (1, prfHmacMd5), (6, prfHmacMd5), (5, prfAes128Xcbc),
    (1030, prfCamellia128Xcbc), (8, prfAes128Cmac)]

/-- `remove_transform`: remove all entries of the given transform type -/
def removeTransform (this : Proposal) (type : TransformType) : Proposal :=
  { this with transforms := this.transforms.filter (·.type ≠ type) }.removeType type

/-- No explicit PRF found. We assume the same algorithm as used for integrity checking. -/
def addPrfs (this : Proposal) : Proposal :=
  (this.createEnumerator .integrityAlgorithm).foldl (fun this a =>
    match integPrfMap.find? (·.1 = a.1) with
    | some (_, prf) => this.addAlgorithm .pseudoRandomFunction prf 0
    | none => this) this

/-- The PRF and the DH groups of an IKE proposal. -/
def checkIke (this : Proposal) : Option Proposal :=
  let this := if (this.getAlgorithm .pseudoRandomFunction).isNone then this.addPrfs else this
  -- a PRF algorithm is mandatory in IKE proposals
  if (this.getAlgorithm .pseudoRandomFunction).isNone then none
  else
    -- remove MODP_NONE from IKE proposal
    let none? (entry : Entry) : Bool := entry.type = .diffieHellmanGroup && entry.alg = modpNone
    let this := { this with transforms := this.transforms.filter (!none? ·) }
    -- a DH group is mandatory in IKE proposals
    if (this.getAlgorithm .diffieHellmanGroup).isNone then none else some this

/-- The encryption algorithms of an IKE or ESP proposal. -/
def checkEncryption (this : Proposal) : Option Proposal :=
  let e := this.createEnumerator .encryptionAlgorithm
  let anyAead := e.any fun a => encryptionAlgorithmIsAead a.1
  let allAead := e.all fun a => encryptionAlgorithmIsAead a.1
  -- an encryption algorithm is mandatory
  if e = [] then none
  -- classic and combined-mode (AEAD) algorithms can't be contained in the same proposal
  else if anyAead && !allAead then none
  else if allAead then some (this.removeTransform .integrityAlgorithm)
  else if this.protocol = .ike && (this.getAlgorithm .integrityAlgorithm).isNone then none
  else some this

/-- AES-GMAC is parsed as encryption algorithm, so we map that to the proper integrity algorithm. All
other encryption algorithms are removed. -/
def mapGmac (entry : Entry) : Option Entry :=
  if entry.type = .encryptionAlgorithm then
    if entry.alg = encrNullAuthAesGmac then
      if entry.keySize = 128 then some ⟨.integrityAlgorithm, authAes128Gmac, 0⟩
      else if entry.keySize = 192 then some ⟨.integrityAlgorithm, authAes192Gmac, 0⟩
      else if entry.keySize = 256 then some ⟨.integrityAlgorithm, authAes256Gmac, 0⟩
      else none
    else none
  else some entry

def checkIntegrity (this : Proposal) : Option Proposal :=
  let this := { this with
    transforms := this.transforms.filterMap mapGmac }.removeType .encryptionAlgorithm
  -- an integrity algorithm is mandatory in AH proposals
  if (this.getAlgorithm .integrityAlgorithm).isNone then none else some this

/-- ESN not specified, assume not supported. -/
def addEsn (this : Proposal) : Proposal :=
  if (this.getAlgorithm .extendedSequenceNumbers).isNone then
    this.addAlgorithm .extendedSequenceNumbers noExtSeqNumbers 0
  else this

/-- The first part of `check_proposal`. PRFs are removed from ESP/AH proposals. -/
def checkPrf (this : Proposal) : Option Proposal :=
  if this.protocol = .ike then this.checkIke
  else some (this.removeTransform .pseudoRandomFunction)

/-- The second part. -/
def checkCipher (this : Proposal) : Option Proposal :=
  if this.protocol = .ike || this.protocol = .esp then this.checkEncryption else this.checkIntegrity

/-- `check_proposal`: the proposal that was read from a string, if it is accepted -/
def checkProposal (this : Proposal) : Option Proposal :=
  (this.checkPrf.bind checkCipher).map fun this =>
    if this.protocol = .ah || this.protocol = .esp then this.addEsn else this

end Proposal

end StrongSwan
