import StrongSwan.Crypto.Proposal
import StrongSwan.Encoding.Encodings
import StrongSwan.Ipsec.Sa
import StrongSwan.Utils.ChunkHash

/-!
# Proposal substructures

A `ProposalSubstructure` carries a proposal in an SA payload. In IKEv2 it has a
`TransformSubstructure` for each algorithm of the proposal; in IKEv1 each transform is a proposal of
its own, with the other algorithms in its `TransformAttribute`s, and with identifiers of IKEv1.

* `getIkev1TransidFromAlg`, …: the maps between the identifiers of IKEv1 and of IKEv2.
* `createFromProposalV2`, `createFromProposalsV1`: the substructures of proposals.
* `getProposals`: the proposals in a substructure; `verify`.
-/

namespace StrongSwan

open Encodings

/-! ## Transform attributes -/

structure TransformAttribute where
  /-- Is the value stored in `attributeLengthOrValue`? -/
  attributeFormat : Bool := false
  attributeType : U16 := 0
  attributeLengthOrValue : U16 := 0
  attributeValue : Chunk := []
  type : Encodings.PayloadType
  deriving DecidableEq, Repr

def tattrPh1EncryptionAlgorithm : U16 := 1
def tattrPh1HashAlgorithm : U16 := 2
def tattrPh1AuthMethod : U16 := 3
def tattrPh1Group : U16 := 4
def tattrPh1LifeType : U16 := 11
def tattrPh1LifeDuration : U16 := 12
def tattrPh1KeyLength : U16 := 14
def tattrPh2SaLifeType : U16 := 1
def tattrPh2SaLifeDuration : U16 := 2
def tattrPh2Group : U16 := 3
def tattrPh2EncapMode : U16 := 4
def tattrPh2AuthAlgorithm : U16 := 5
def tattrPh2KeyLength : U16 := 6
def tattrPh2ExtSeqNumber : U16 := 11
def tattrIkev2KeyLength : U16 := 14

namespace TransformAttribute

def getLength (this : TransformAttribute) : ℕ :=
  if this.attributeFormat then 4 else this.attributeLengthOrValue.toNat + 4

def getValue (this : TransformAttribute) : U64 :=
  if this.attributeFormat then this.attributeLengthOrValue.setWidth 64
  else if this.attributeValue.length > 8 then BitVec.allOnes 64
  else BitVec.ofNat 64 (Bytes.value this.attributeValue)

def createValue (type : Encodings.PayloadType) (kind : U16) (value : U64) : TransformAttribute :=
  let this : TransformAttribute := { type := type, attributeType := kind &&& 0x7fff }
  if value ≤ 0xffff then
    { this with attributeLengthOrValue := value.setWidth 16, attributeFormat := true }
  else if value ≤ 0xffffffff then
    { this with attributeValue := htoun32 (value.setWidth 32), attributeLengthOrValue := 4 }
  else { this with attributeValue := htoun64 value, attributeLengthOrValue := 8 }

def verify (_ : TransformAttribute) : Status := .success

end TransformAttribute

/-! ## Transform substructures -/

structure TransformSubstructure where
  nextPayload : U8 := 0
  /-- Length of this payload. -/
  transformLength : U16 := 8
  /-- Type of the transform in IKEv2, number in IKEv1. -/
  transformTon : U8 := 0
  transformIdV1 : U8 := 0
  transformIdV2 : U16 := 0
  attributes : List TransformAttribute := []
  type : Encodings.PayloadType
  deriving DecidableEq, Repr

namespace TransformSubstructure

def getHeaderLength : ℕ := 8

def getLength (this : TransformSubstructure) : ℕ := this.transformLength.toNat

def computeLength (this : TransformSubstructure) : TransformSubstructure :=
  { this with transformLength :=
      BitVec.ofNat 16 (getHeaderLength + (this.attributes.map (·.getLength)).sum) }

def addTransformAttribute (this : TransformSubstructure) (tattr : TransformAttribute) :
    TransformSubstructure :=
  computeLength { this with attributes := this.attributes ++ [tattr] }

def setIsLastTransform (this : TransformSubstructure) (isLast : Bool) : TransformSubstructure :=
  { this with nextPayload := if isLast then 0 else 3 }

def getTransformId (this : TransformSubstructure) : U16 :=
  if this.type = .plv2TransformSubstructure then this.transformIdV2
  else this.transformIdV1.setWidth 16

def createType (type : Encodings.PayloadType) (typeOrNumber : U8) (id : U16) : TransformSubstructure :=
  if type = .plv2TransformSubstructure then
    { type := type, transformTon := typeOrNumber, transformIdV2 := id }
  else { type := type, transformTon := typeOrNumber, transformIdV1 := id.setWidth 8 }

/-- `add_transform_attribute` of a `transform_attribute_create_value` for IKEv1 -/
def addValueV1 (this : TransformSubstructure) (kind : U16) (value : U64) : TransformSubstructure :=
  this.addTransformAttribute (.createValue .plv1TransformAttribute kind value)

def verify (this : TransformSubstructure) : Status :=
  if this.nextPayload ≠ 0 ∧ this.nextPayload ≠ 3 then .failed
  else if this.attributes.all fun tattr => tattr.verify = .success then .success
  else .failed

end TransformSubstructure

/-! ## Identifiers of IKEv1 -/

/-- `algo_map_t` of each algorithm: the identifiers of IKEv1 and of IKEv2 -/
abbrev AlgoMap := List (U16 × U16)

/-- Encryption algorithm mapping -/
def mapEncr : AlgoMap :=
  [(1, encrDes), -- DES_CBC
    (2, 5), -- IDEA_CBC
    (3, 7), -- BLOWFISH_CBC
    (5, encr3des), -- 3DES_CBC
    (6, 6), -- CAST_CBC
    (7, 12), -- AES_CBC
    (8, 23), -- CAMELLIA_CBC
    (65004, 1026), -- SERPENT_CBC
    (65005, 1027)] -- TWOFISH_CBC

/-- Integrity algorithm mapping -/
def mapInteg : AlgoMap :=
  [(1, 1), -- HMAC_MD5_96
    (2, 2), -- HMAC_SHA1_96
    (4, 12), -- HMAC_SHA2_256_128
    (5, 13), -- HMAC_SHA2_384_192
    (6, 14)] -- HMAC_SHA2_512_256

/-- PRF algorithm mapping -/
def mapPrf : AlgoMap :=
  [(1, prfHmacMd5), (2, prfHmacSha1), (4, prfHmacSha2256), (5, prfHmacSha2384), (6, prfHmacSha2512)]

def mapEsp : AlgoMap :=
  [(1, 1), -- DES_IV64
    (2, encrDes),
    (3, encr3des),
    (4, 4), -- RC5
    (5, 5), -- IDEA
    (6, 6), -- CAST
    (7, 7), -- BLOWFISH
    (8, 8), -- 3IDEA
    (9, 9), -- DES_IV32
    (11, encrNull),
    (12, 12), -- AES_CBC
    (13, encrAesCtr),
    (14, encrAesCcmIcv8),
    (15, encrAesCcmIcv12),
    (16, encrAesCcmIcv16),
    (18, encrAesGcmIcv8),
    (19, encrAesGcmIcv12),
    (20, encrAesGcmIcv16),
    (22, 23), -- CAMELLIA_CBC
    (23, encrNullAuthAesGmac),
    (252, 1026), -- SERPENT_CBC
    (253, 1027)] -- TWOFISH_CBC

/-- AH authentication algorithm mapping -/
def mapAh : AlgoMap :=
  [(2, 1), -- HMAC_MD5_96
    (3, 2), -- HMAC_SHA1_96
    (4, 3), -- DES_MAC
    (5, 12), -- HMAC_SHA2_256_128
    (6, 13), -- HMAC_SHA2_384_192
    (7, 14), -- HMAC_SHA2_512_256
    (9, 5), -- AES_XCBC_96
    (11, authAes128Gmac),
    (12, authAes192Gmac),
    (13, authAes256Gmac)]

/-- ESP/AH authentication algorithm mapping -/
def mapAuth : AlgoMap :=
  [(1, 1), -- HMAC_MD5_96
    (2, 2), -- HMAC_SHA1_96
    (3, 3), -- DES_MAC
    (4, 4), -- KPDK_MD5
    (5, 12), -- HMAC_SHA2_256_128
    (6, 13), -- HMAC_SHA2_384_192
    (7, 14), -- HMAC_SHA2_512_256
    (9, 5), -- AES_XCBC_96
    (11, authAes128Gmac),
    (12, authAes192Gmac),
    (13, authAes256Gmac)]

def ikev2FromIkev1 (map : AlgoMap) (default value : U16) : U16 :=
  ((map.find? (·.1 = value)).map (·.2)).getD default

def ikev1FromIkev2 (map : AlgoMap) (value : U16) : U16 :=
  ((map.find? (·.2 = value)).map (·.1)).getD 0

def encrUndefined : U16 := 1024
def authUndefined : U16 := 1024
def encrAesCbc : U16 := 12

def getAlgFromIkev1 (type : TransformType) (value : U16) : U16 :=
  if type = .encryptionAlgorithm then ikev2FromIkev1 mapEncr encrUndefined value
  else if type = .integrityAlgorithm then ikev2FromIkev1 mapInteg authUndefined value
  else if type = .pseudoRandomFunction then ikev2FromIkev1 mapPrf prfUndefined value
  else 0

def getIkev1FromAlg (type : TransformType) (value : U16) : U16 :=
  if type = .encryptionAlgorithm then ikev1FromIkev2 mapEncr value
  else if type = .integrityAlgorithm then ikev1FromIkev2 mapInteg value
  else if type = .pseudoRandomFunction then ikev1FromIkev2 mapPrf value
  else 0

def getAlgFromIkev1Transid (type : TransformType) (value : U16) : U16 :=
  if type = .encryptionAlgorithm then ikev2FromIkev1 mapEsp encrUndefined value
  else if type = .integrityAlgorithm then ikev2FromIkev1 mapAh authUndefined value
  else 0

def getIkev1TransidFromAlg (type : TransformType) (value : U16) : U16 :=
  if type = .encryptionAlgorithm then ikev1FromIkev2 mapEsp value
  else if type = .integrityAlgorithm then ikev1FromIkev2 mapAh value
  else 0

/-- Get IKEv2 algorithm from IKEv1 authentication attribute. -/
def getAlgFromIkev1Auth (value : U16) : U16 := ikev2FromIkev1 mapAuth authUndefined value

/-- Get IKEv1 authentication algorithm from IKEv2 identifier. -/
def getIkev1AuthFromAlg (value : U16) : U16 := ikev1FromIkev2 mapAuth value

inductive AuthMethod
  | none
  | rsa
  | psk
  | dss
  | ecdsa256
  | ecdsa384
  | ecdsa521
  | gspm
  | null
  | ds
  | xauthInitPsk
  | xauthRespPsk
  | xauthInitRsa
  | xauthRespRsa
  | hybridInitRsa
  | hybridRespRsa
  deriving DecidableEq, Repr

def getIkev1Auth : AuthMethod → U16
  | .rsa => 3
  | .dss => 2
  | .xauthInitPsk => 65001
  | .xauthRespPsk => 65002
  | .xauthInitRsa => 65005
  | .xauthRespRsa => 65006
  | .hybridInitRsa => 64221
  | .hybridRespRsa => 64222
  | .ecdsa256 => 9
  | .ecdsa384 => 10
  | .ecdsa521 => 11
  | _ => 1

inductive Encap
  | none
  | udp
  | udpDraft0003
  deriving DecidableEq, Repr

def getIkev1Mode : IpsecMode → Encap → U16
  | .transport, .udp => 4
  | .transport, .udpDraft0003 => 61444
  | .transport, .none => 2
  | .tunnel, .udp => 3
  | .tunnel, .udpDraft0003 => 61443
  | _, _ => 1

/-! ## Proposal substructures -/

/-- The byte of a `protocol_id_t`. -/
def ProtocolId.toU8 : ProtocolId → U8
  | none => 0
  | ike => 1
  | ah => 2
  | esp => 3
  | ipcomp => 4

/-- `protocol_id_t` of a byte; there may be none. -/
def ProtocolId.ofU8 (protocol : U8) : Option ProtocolId :=
  [none, ike, ah, esp, ipcomp].find? fun id => id.toU8 = protocol

structure ProposalSubstructure where
  nextPayload : U8 := 0
  /-- Length of this payload. -/
  proposalLength : U16 := 0
  proposalNumber : U8 := 0
  protocolId : U8 := 0
  spiSize : U8 := 0
  /-- Number of transforms. -/
  transformsCount : U8 := 0
  spi : Chunk := []
  transforms : List TransformSubstructure := []
  type : Encodings.PayloadType
  deriving DecidableEq, Repr

/-- The integer in a chunk, in the order of the host -/
def thingFromChunk (chunk : Chunk) : ℕ := Bytes.value chunk.reverse

namespace ProposalSubstructure

def getHeaderLength (this : ProposalSubstructure) : ℕ := 8 + this.spiSize.toNat

def computeLength (this : ProposalSubstructure) : ProposalSubstructure :=
  { this with
    transformsCount := BitVec.ofNat 8 this.transforms.length
    proposalLength :=
      BitVec.ofNat 16 (this.getHeaderLength + (this.transforms.map (·.getLength)).sum) }

def create (type : Encodings.PayloadType) : ProposalSubstructure := computeLength { type := type }

def addTransformSubstructure (this : ProposalSubstructure) (transform : TransformSubstructure) :
    ProposalSubstructure :=
  let before := match this.transforms.getLast? with
    | some last => this.transforms.dropLast ++ [last.setIsLastTransform false]
    | none => this.transforms
  computeLength { this with transforms := before ++ [transform.setIsLastTransform true] }

/-- Set SPI and other data from proposal, compute length. -/
def setData (this : ProposalSubstructure) (proposal : Proposal) : ProposalSubstructure :=
  let this := match proposal.protocol with
    | .ah | .esp =>
      let spi := chunkFromThing (proposal.spi.setWidth 32)
      { this with spi := spi, spiSize := BitVec.ofNat 8 spi.length }
    | .ike =>
      -- IKE only uses SPIS when rekeying, but on initial setup
      if proposal.spi ≠ 0 then
        let spi := chunkFromThing proposal.spi
        { this with spi := spi, spiSize := BitVec.ofNat 8 spi.length }
      else this
    | _ => this
  computeLength { this with
    proposalNumber := BitVec.ofNat 8 proposal.number
    protocolId := proposal.protocol.toU8 }

/-! ### IKEv2 -/

def transformV2 (type : TransformType) (algorithm : U16 × U16) : TransformSubstructure :=
  let transform := TransformSubstructure.createType .plv2TransformSubstructure
    (BitVec.ofNat 8 type.number) algorithm.1
  if type = .encryptionAlgorithm ∧ algorithm.2 ≠ 0 then
    transform.addTransformAttribute (.createValue .plv2TransformAttribute tattrIkev2KeyLength
      (algorithm.2.setWidth 64))
  else transform

def addTransformsV2 (proposal : Proposal) (this : ProposalSubstructure) (type : TransformType) :
    ProposalSubstructure :=
  (proposal.createEnumerator type).foldl
    (fun this algorithm => this.addTransformSubstructure (transformV2 type algorithm)) this

def setFromProposalV2 (this : ProposalSubstructure) (proposal : Proposal) : ProposalSubstructure :=
  [.encryptionAlgorithm, .integrityAlgorithm, .pseudoRandomFunction, .diffieHellmanGroup,
    .extendedSequenceNumbers].foldl (addTransformsV2 proposal) this

def createFromProposalV2 (proposal : Proposal) : ProposalSubstructure :=
  ((create .plv2SecurityAssociation).setFromProposalV2 proposal).setData proposal

def addToProposalV2 (proposal : Proposal) (transform : TransformSubstructure) : Proposal :=
  let keyLength :=
    match transform.attributes.find? (·.attributeType = tattrIkev2KeyLength) with
    | some tattr => tattr.getValue.setWidth 16
    | none => 0
  proposal.addAlgorithm ⟨transform.transformTon.toNat⟩ transform.getTransformId keyLength

/-! ### IKEv1 -/

/-- The first algorithm of a type with an identifier in IKEv1: the identifier, and the key size -/
def firstIkev1 (proposal : Proposal) (type : TransformType) : Option (U16 × U16) :=
  ((proposal.createEnumerator type).find? fun a => getIkev1FromAlg type a.1 ≠ 0).map fun a =>
    (getIkev1FromAlg type a.1, a.2)

/-- Add an IKEv1 IKE proposal to the substructure. -/
def setFromProposalV1Ike (this : ProposalSubstructure) (proposal : Proposal) (lifetime : U32)
    (method : AuthMethod) (number : ℕ) : ProposalSubstructure :=
  let transform :=
    TransformSubstructure.createType .plv1TransformSubstructure (BitVec.ofNat 8 number) 1
  let transform := match firstIkev1 proposal .encryptionAlgorithm with
    | some (alg, keySize) =>
      let transform := transform.addValueV1 tattrPh1EncryptionAlgorithm (alg.setWidth 64)
      if keySize ≠ 0 then transform.addValueV1 tattrPh1KeyLength (keySize.setWidth 64)
      else transform
    | none => transform
  -- encode the integrity algorithm as hash and assume use the same PRF
  let transform := match firstIkev1 proposal .integrityAlgorithm with
    | some (alg, _) => transform.addValueV1 tattrPh1HashAlgorithm (alg.setWidth 64)
    | none => transform
  let transform := match proposal.getAlgorithm .diffieHellmanGroup with
    | some (alg, _) => transform.addValueV1 tattrPh1Group (alg.setWidth 64)
    | none => transform
  let transform := transform.addValueV1 tattrPh1AuthMethod ((getIkev1Auth method).setWidth 64)
  let transform := transform.addValueV1 tattrPh1LifeType 1
  let transform := transform.addValueV1 tattrPh1LifeDuration (lifetime.setWidth 64)
  this.addTransformSubstructure transform

def encryptionTransformV1 (proposal : Proposal) (number : ℕ) : Option TransformSubstructure :=
  match proposal.getAlgorithm .encryptionAlgorithm with
  | some (alg, keySize) =>
    let transid := getIkev1TransidFromAlg .encryptionAlgorithm alg
    if transid ≠ 0 then
      let transform :=
        TransformSubstructure.createType .plv1TransformSubstructure (BitVec.ofNat 8 number) transid
      some (if keySize ≠ 0 then transform.addValueV1 tattrPh2KeyLength (keySize.setWidth 64)
        else transform)
    else none
  | none => none

/-- The integrity algorithm is added to this transform, or has one of its own. -/
def integrityTransformV1 (transform : Option TransformSubstructure) (proposal : Proposal)
    (number : ℕ) : Option TransformSubstructure :=
  match proposal.getAlgorithm .integrityAlgorithm with
  | some (alg, _) =>
    let transid := getIkev1TransidFromAlg .integrityAlgorithm alg
    let alg := getIkev1AuthFromAlg alg
    if alg ≠ 0 then
      let transform := if transform.isNone && transid ≠ 0 then
        some (TransformSubstructure.createType .plv1TransformSubstructure (BitVec.ofNat 8 number)
          transid)
        else transform
      transform.map fun transform => transform.addValueV1 tattrPh2AuthAlgorithm (alg.setWidth 64)
    else transform
  | none => transform

/-- The lifetimes of an IKEv1 ESP/AH transform. -/
def addLifetimesV1 (transform : TransformSubstructure) (lifetime : U32) (lifebytes : U64) :
    TransformSubstructure :=
  let transform := if lifetime ≠ 0 then
    (transform.addValueV1 tattrPh2SaLifeType 1).addValueV1 tattrPh2SaLifeDuration
      (lifetime.setWidth 64) else transform
  if lifebytes ≠ 0 then
    (transform.addValueV1 tattrPh2SaLifeType 2).addValueV1 tattrPh2SaLifeDuration (lifebytes / 1000)
  else transform

/-- `EXT_SEQ_NUMBERS` -/
def extSeqNumbers : U16 := 1

/-- The transform of an IKEv1 ESP/AH proposal, if there is one -/
def transformV1 (proposal : Proposal) (lifetime : U32) (lifebytes : U64) (mode : IpsecMode)
    (encap : Encap) (number : ℕ) : Option TransformSubstructure :=
  let transform := integrityTransformV1 (encryptionTransformV1 proposal number) proposal number
  transform.map fun transform =>
    let transform := match proposal.getAlgorithm .diffieHellmanGroup with
      | some (alg, _) => transform.addValueV1 tattrPh2Group (alg.setWidth 64)
      | none => transform
    let transform := transform.addValueV1 tattrPh2EncapMode ((getIkev1Mode mode encap).setWidth 64)
    let transform := addLifetimesV1 transform lifetime lifebytes
    (proposal.createEnumerator .extendedSequenceNumbers).foldl (fun transform a =>
      if a.1 = extSeqNumbers then transform.addValueV1 tattrPh2ExtSeqNumber (a.1.setWidth 64)
      else transform) transform

/-- Add an IKEv1 ESP/AH proposal to the substructure. -/
def setFromProposalV1 (this : ProposalSubstructure) (proposal : Proposal) (lifetime : U32)
    (lifebytes : U64) (mode : IpsecMode) (encap : Encap) (number : ℕ) : ProposalSubstructure :=
  match transformV1 proposal lifetime lifebytes mode encap number with
  | some transform => this.addTransformSubstructure transform
  | none => this

def addProposalV1 (this : ProposalSubstructure) (proposal : Proposal) (lifetime : U32)
    (lifebytes : U64) (auth : AuthMethod) (mode : IpsecMode) (encap : Encap) (number : ℕ) :
    ProposalSubstructure :=
  match proposal.protocol with
  | .ike => this.setFromProposalV1Ike proposal lifetime auth number
  | .esp | .ah => this.setFromProposalV1 proposal lifetime lifebytes mode encap number
  | _ => this

def createFromProposalV1 (proposal : Proposal) (lifetime : U32) (lifebytes : U64) (auth : AuthMethod)
    (mode : IpsecMode) (encap : Encap) : ProposalSubstructure :=
  ((create .plv1ProposalSubstructure).addProposalV1 proposal lifetime lifebytes auth mode encap
    1).setData proposal

/-- The next proposal of a list; those of other protocols are passed over, and have no number. -/
def addNextV1 (lifetime : U32) (lifebytes : U64) (auth : AuthMethod) (mode : IpsecMode)
    (encap : Encap) (state : ProposalSubstructure × ℕ) (proposal : Proposal) :
    ProposalSubstructure × ℕ :=
  if proposal.protocol = .ike ∨ proposal.protocol = .esp ∨ proposal.protocol = .ah then
    (state.1.addProposalV1 proposal lifetime lifebytes auth mode encap (state.2 + 1), state.2 + 1)
  else state

/-- `proposal_substructure_create_from_proposals_v1`; without proposals there is no substructure. -/
def createFromProposalsV1 (proposals : List Proposal) (lifetime : U32) (lifebytes : U64)
    (auth : AuthMethod) (mode : IpsecMode) (encap : Encap) : Option ProposalSubstructure :=
  match proposals with
  | [] => none
  | first :: proposals =>
    some (proposals.foldl (addNextV1 lifetime lifebytes auth mode encap)
      (createFromProposalV1 first lifetime lifebytes auth mode encap, 1)).1

/-- One attribute of an IKE transform: the algorithms are added, but encryption and key length
kept. -/
def addAttributeV1Ike (state : Proposal × U16 × U16) (tattr : TransformAttribute) :
    Proposal × U16 × U16 :=
  let (proposal, encr, keyLength) := state
  let value := tattr.getValue.setWidth 16
  if tattr.attributeType = tattrPh1EncryptionAlgorithm then
    (proposal, getAlgFromIkev1 .encryptionAlgorithm value, keyLength)
  else if tattr.attributeType = tattrPh1KeyLength then (proposal, encr, value)
  else if tattr.attributeType = tattrPh1HashAlgorithm then
    ((proposal.addAlgorithm .integrityAlgorithm (getAlgFromIkev1 .integrityAlgorithm value)
      0).addAlgorithm .pseudoRandomFunction (getAlgFromIkev1 .pseudoRandomFunction value) 0,
      encr, keyLength)
  else if tattr.attributeType = tattrPh1Group then
    (proposal.addAlgorithm .diffieHellmanGroup value 0, encr, keyLength)
  else state

/-- Some implementations don't send a Key Length attribute for AES-128. -/
def defaultKeyLength (encr keyLength : U16) : U16 :=
  if encr = encrAesCbc ∧ keyLength = 0 then 128 else keyLength

def addToProposalV1Ike (proposal : Proposal) (transform : TransformSubstructure) : Proposal :=
  let (proposal, encr, keyLength) :=
    transform.attributes.foldl addAttributeV1Ike (proposal, encrUndefined, 0)
  if encr ≠ encrUndefined then
    proposal.addAlgorithm .encryptionAlgorithm encr (defaultKeyLength encr keyLength)
  else proposal

/-- One attribute of an ESP/AH transform: the algorithms are added, and key length and ESN kept. -/
def addAttributeV1 (state : Proposal × U16 × U16) (tattr : TransformAttribute) :
    Proposal × U16 × U16 :=
  let (proposal, keyLength, esn) := state
  let value := tattr.getValue.setWidth 16
  if tattr.attributeType = tattrPh2KeyLength then (proposal, value, esn)
  else if tattr.attributeType = tattrPh2AuthAlgorithm then
    (proposal.addAlgorithm .integrityAlgorithm (getAlgFromIkev1Auth value) 0, keyLength, esn)
  else if tattr.attributeType = tattrPh2Group then
    (proposal.addAlgorithm .diffieHellmanGroup value 0, keyLength, esn)
  else if tattr.attributeType = tattrPh2ExtSeqNumber then (proposal, keyLength, extSeqNumbers)
  else state

/-- Add an ESP/AH transform to a proposal for IKEv1. -/
def addToProposalV1 (proposal : Proposal) (transform : TransformSubstructure) (proto : ProtocolId) :
    Proposal :=
  let (proposal, keyLength, esn) :=
    transform.attributes.foldl addAttributeV1 (proposal, 0, noExtSeqNumbers)
  let proposal := proposal.addAlgorithm .extendedSequenceNumbers esn 0
  if proto = .esp then
    let encr := getAlgFromIkev1Transid .encryptionAlgorithm transform.getTransformId
    if encr ≠ 0 then
      proposal.addAlgorithm .encryptionAlgorithm encr (defaultKeyLength encr keyLength)
    else proposal
  else proposal

/-! ### Proposals of a substructure -/

def getSpi (this : ProposalSubstructure) : U64 :=
  if this.spi.length = 4 ∨ this.spi.length = 8 then BitVec.ofNat 64 (thingFromChunk this.spi) else 0

def emptyProposal (this : ProposalSubstructure) (protocol : ProtocolId) : Proposal :=
  { Proposal.create protocol this.proposalNumber.toNat with spi := this.getSpi }

def addToProposal (proposal : Proposal) (transform : TransformSubstructure) : Proposal :=
  match proposal.protocol with
  | .ike => addToProposalV1Ike proposal transform
  | .esp | .ah => addToProposalV1 proposal transform proposal.protocol
  | _ => proposal

/-- `get_proposals`, for protocols that have a name. There is a new proposal for each transform in
IKEv1. -/
def getProposals (this : ProposalSubstructure) : Option (List Proposal) :=
  (ProtocolId.ofU8 this.protocolId).map fun protocol =>
    if this.type = .plv2ProposalSubstructure then
      if this.transforms = [] then []
      else [this.transforms.foldl addToProposalV2 (this.emptyProposal protocol)]
    else this.transforms.map (addToProposal (this.emptyProposal protocol))

def spiLengthValid (this : ProposalSubstructure) : Bool :=
  match ProtocolId.ofU8 this.protocolId with
  | some .ipcomp => this.spi.length = 2 || this.spi.length = 4
  | some .ah | some .esp => this.spi.length = 4
  | some .ike =>
    if this.type = .plv1ProposalSubstructure then this.spi.length ≤ 16
    else this.spi.length = 0 || this.spi.length = 8
  | _ => true

def verify (this : ProposalSubstructure) : Status :=
  if this.nextPayload ≠ 0 ∧ this.nextPayload ≠ 2 then .failed
  else if this.transformsCount.toNat ≠ this.transforms.length then .failed
  else if !this.spiLengthValid then .failed
  else if this.transforms.all fun transform => transform.verify = .success then .success
  else .failed

/-! ### Adding transforms -/

theorem createEnumerator_addAlgorithm (proposal : Proposal) (type t : TransformType)
    (alg keySize : U16) :
    (proposal.addAlgorithm type alg keySize).createEnumerator t =
      proposal.createEnumerator t ++ if type = t then [(alg, keySize)] else [] := by
  by_cases h : type = t <;> simp [Proposal.createEnumerator, Proposal.addAlgorithm, h]

theorem createValue_setWidth (type : Encodings.PayloadType) (kind value : U16) :
    TransformAttribute.createValue type kind (value.setWidth 64) =
      { type := type, attributeType := kind &&& 0x7fff, attributeLengthOrValue := value,
        attributeFormat := true } := by
  have hle : (value.setWidth 64 : U64) ≤ 0xffff := by bv_omega
  unfold TransformAttribute.createValue
  rw [if_pos hle]
  simp

/-- A transform is added behind the others, but for the marks of the last one. -/
theorem map_addTransformSubstructure {α : Type*} (this : ProposalSubstructure)
    (transform : TransformSubstructure) {f : TransformSubstructure → α}
    (hf : ∀ transform isLast, f (transform.setIsLastTransform isLast) = f transform) :
    (this.addTransformSubstructure transform).transforms.map f =
      this.transforms.map f ++ [f transform] := by
  unfold addTransformSubstructure computeLength
  dsimp only
  rw [List.map_append, List.map_singleton, hf]
  cases hlast : this.transforms.getLast? with
  | none => rfl
  | some last =>
    have hlist := List.dropLast_append_getLast? last hlast
    conv_rhs => rw [← hlist]
    simp only [List.map_append, List.map_singleton, hf]

theorem setData_spec (this : ProposalSubstructure) (proposal : Proposal) :
    (this.setData proposal).type = this.type ∧
      (this.setData proposal).transforms = this.transforms ∧
      (this.setData proposal).protocolId = proposal.protocol.toU8 := by
  unfold setData
  cases hprotocol : proposal.protocol with
  | ike =>
    dsimp only
    split_ifs <;> exact ⟨rfl, rfl, rfl⟩
  | _ => exact ⟨rfl, rfl, rfl⟩

theorem ofU8_toU8 (protocol : ProtocolId) : ProtocolId.ofU8 protocol.toU8 = some protocol := by
  cases protocol <;> rfl

end ProposalSubstructure

end StrongSwan
