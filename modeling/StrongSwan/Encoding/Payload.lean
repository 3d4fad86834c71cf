import StrongSwan.Bio.BioReader
import StrongSwan.Crypto.Aead

/-!
# IKE payloads

Payloads of IKEv2 messages, with what the Encrypted and the Encrypted Fragment payload do to their
contents. What other payloads have inside is left to a parser.

* `PayloadType`, `ofWire`: types, as numbers on the wire.
* `EncryptedPayload`, `EncryptedFragmentPayload`, `Payload`.
* `encryptContent`, `decryptContent`: the content of both.
* `parsePayload`: the generic header of a payload, and then its body.
-/

namespace StrongSwan

/-- `payload_type_t`: the types known in IKEv2, the fragments of IKEv1, any other number, and the type
that payloads with a number that is not known have. -/
inductive PayloadType
  | none
  | securityAssociation
  | keyExchange
  | idInitiator
  | idResponder
  | certificate
  | certreq
  | auth
  | nonce
  | notify
  | delete
  | vendorId
  | tsInitiator
  | tsResponder
  | encrypted
  | configuration
  | eap
  | fragment
  | fragmentV1
  | other (number : U8)
  | unknown
  deriving DecidableEq, Repr

namespace PayloadType

/-- The type with a number. -/
def ofWire (number : U8) : PayloadType :=
  if number = 0 then none
  else if number = 33 then securityAssociation
  else if number = 34 then keyExchange
  else if number = 35 then idInitiator
  else if number = 36 then idResponder
  else if number = 37 then certificate
  else if number = 38 then certreq
  else if number = 39 then auth
  else if number = 40 then nonce
  else if number = 41 then notify
  else if number = 42 then delete
  else if number = 43 then vendorId
  else if number = 44 then tsInitiator
  else if number = 45 then tsResponder
  else if number = 46 then encrypted
  else if number = 47 then configuration
  else if number = 48 then eap
  else if number = 53 then fragment
  else if number = 132 then fragmentV1
  else other number

/-- The number of a type in a header. -/
def toWire : PayloadType → U8
  | none => 0
  | securityAssociation => 33
  | keyExchange => 34
  | idInitiator => 35
  | idResponder => 36
  | certificate => 37
  | certreq => 38
  | auth => 39
  | nonce => 40
  | notify => 41
  | delete => 42
  | vendorId => 43
  | tsInitiator => 44
  | tsResponder => 45
  | encrypted => 46
  | configuration => 47
  | eap => 48
  | fragment => 53
  | fragmentV1 => 132
  | other number => number
  -- the number is 257
  | unknown => 1

/-- `payload_is_known`, in IKEv2 -/
def isKnown : PayloadType → Bool
  | none | fragmentV1 | other _ | unknown => false
  | _ => true

end PayloadType

/-! ## Encrypted contents -/

/-- What encryption takes from random number and IV generators: bytes of a length, if they succeed. -/
structure Draws where
  iv : (size : ℕ) → Option {iv : Chunk // iv.length = size}
  padding : (size : ℕ) → Option {padding : Chunk // padding.length = size}

/-- Get length of encryption/integrity overhead for the given plaintext length. -/
def computeOverhead (aead : Aead) (len : ℕ) : ℕ :=
  aead.blockSize - len % aead.blockSize + aead.ivSize + aead.icvSize

/-- Encrypts the data in `plain`: IV, ciphertext and ICV. -/
def encryptContent (aead : Aead) (draws : Draws) (plain assoc : Chunk) : Option Chunk := do
  -- we need at least one byte padding to store the padding length
  let paddingLen := aead.blockSize - plain.length % aead.blockSize
  let iv ← draws.iv aead.ivSize
  let padding ← draws.padding (paddingLen - 1)
  let crypt := plain ++ (padding.1 ++ [BitVec.ofNat 8 (paddingLen - 1)])
  let encrypted ← aead.encrypt crypt assoc iv
  some (iv.1 ++ encrypted)

/-- Decrypts the given data and removes the padding. -/
def decryptContent (aead : Aead) (encrypted assoc : Chunk) : Status × Chunk :=
  if aead.ivSize + aead.icvSize > encrypted.length ∨
      (encrypted.length - aead.ivSize - aead.icvSize) % aead.blockSize ≠ 0 then (.failed, [])
  else
    match aead.decrypt (encrypted.drop aead.ivSize) assoc (encrypted.take aead.ivSize) with
    | none => (.failed, [])
    | some plain =>
      -- for an empty plaintext the byte before it is read, and refused
      let paddingLen := (plain.getLastD 0).toNat + 1
      if paddingLen > plain.length then (.parseError, [])
      else (.success, plain.take (plain.length - paddingLen))

/-! ## Payloads -/

/-- `private_encrypted_payload_t`, as it is received or made from a reassembled plaintext. -/
structure EncryptedPayload where
  nextPayload : PayloadType
  flags : U8
  encrypted : Chunk
  /-- the contents are not encrypted -/
  plain : Bool
  deriving DecidableEq

structure EncryptedFragmentPayload where
  nextPayload : PayloadType
  flags : U8
  fragmentNumber : U16
  totalFragments : U16
  encrypted : Chunk
  /-- the plain packet data -/
  plain : Chunk
  deriving DecidableEq

/-- `private_fragment_payload_t`, a fragment in IKEv1 -/
structure FragmentPayload where
  nextPayload : PayloadType
  fragmentId : U16
  fragmentNumber : U8
  flags : U8
  data : Chunk
  deriving DecidableEq

namespace FragmentPayload

/-- `LAST_FRAGMENT` -/
def lastFragment : U8 := 0x01

def isLast (this : FragmentPayload) : Bool := this.flags &&& lastFragment = lastFragment

end FragmentPayload

/-- `payload_t`, with the header and the body of payloads that are not looked into. -/
inductive Payload
  | encrypted (payload : EncryptedPayload)
  | fragment (payload : EncryptedFragmentPayload)
  | fragmentV1 (payload : FragmentPayload)
  | plain (type : PayloadType) (nextPayload : PayloadType) (flags : U8) (body : Chunk)
  deriving DecidableEq

namespace Payload

/-- `get_type`; payloads with numbers that are not known are `PL_UNKNOWN`. -/
def getType : Payload → PayloadType
  | encrypted _ => .encrypted
  | fragment _ => .fragment
  | fragmentV1 _ => .fragmentV1
  | plain type _ _ _ => if type.isKnown then type else .unknown

def getNextType : Payload → PayloadType
  | encrypted payload => payload.nextPayload
  | fragment payload => payload.nextPayload
  | fragmentV1 payload => payload.nextPayload
  | plain _ nextPayload _ _ => nextPayload

def setNextType (type : PayloadType) : Payload → Payload
  | encrypted payload => encrypted { payload with nextPayload := type }
  | fragment payload =>
    if payload.fragmentNumber = 1 ∧ payload.nextPayload = .none then
      fragment { payload with nextPayload := type }
    else fragment payload
  | fragmentV1 payload => fragmentV1 { payload with nextPayload := type }
  | plain type' _ flags body => plain type' type flags body

@[simp] theorem getType_setNextType (type : PayloadType) (payload : Payload) :
    (payload.setNextType type).getType = payload.getType := by
  cases payload with
  | fragment payload =>
    unfold setNextType
    dsimp only
    split_ifs <;> rfl
  | encrypted payload => rfl
  | fragmentV1 payload => rfl
  | plain type' nextPayload flags body => rfl

end Payload

/-- What parsing and verifying do inside of payloads, by type and body. -/
structure Internals where
  parses : PayloadType → Chunk → Bool
  verifies : PayloadType → Chunk → Bool

open BioReader in
/-- `parse_payload` in IKEv2: the header, then as much as its length says. -/
def parsePayload (internals : Internals) (type : PayloadType) (data : Chunk) :
    Option (Payload × Chunk) := do
  let (nextPayload, rest) ← readUint8 data
  let (flags, rest) ← readUint8 rest
  let (length, rest) ← readUint16 rest
  if length.toNat < 4 then none
  else
    let (body, rest) ← readData rest (length.toNat - 4)
    match type with
    | .encrypted => some (.encrypted ⟨.ofWire nextPayload, flags, body, false⟩, rest)
    | .fragment => do
      let (fragmentNumber, body) ← readUint16 body
      let (totalFragments, body) ← readUint16 body
      some (.fragment ⟨.ofWire nextPayload, flags, fragmentNumber, totalFragments, body, []⟩, rest)
    | type =>
      if internals.parses type body then some (.plain type (.ofWire nextPayload) flags body, rest)
      else none

/-- `verify`; the next payload of a fragment that is not the first one is ignored. -/
def verifyPayload (internals : Internals) : Payload → Option Payload
  | .encrypted payload => some (.encrypted payload)
  | .fragment payload =>
    if payload.fragmentNumber = 0 ∨ payload.totalFragments = 0 ∨
        payload.fragmentNumber > payload.totalFragments then none
    else if payload.fragmentNumber > 1 ∧ payload.nextPayload ≠ .none then
      some (.fragment { payload with nextPayload := .none })
    else some (.fragment payload)
  | .fragmentV1 payload => if payload.fragmentNumber = 0 then none else some (.fragmentV1 payload)
  | .plain type nextPayload flags body =>
    if internals.verifies type body then some (.plain type nextPayload flags body) else none

end StrongSwan
