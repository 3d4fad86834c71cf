import StrongSwan.Crypto.Crypter
import StrongSwan.Lib.Bytes

/-!
# Messages of EAP-SIM and EAP-AKA

A message has a header and attributes, of which some are encrypted in one attribute. Seven groups of
types have their own layout.

* `Group`, `group`: the layouts; `mustEncrypt`: what is refused outside of AT_ENCR_DATA.
* `attributeAt`, `handle`, `turn`, `parseAttributes`: the parser, which runs over the message and over the
  decrypted buffer; `decrypt`, `parse`, `verify`.
* `encodeAttribute`, `generate`: the encoder.

`Place` says where the data of an attribute was found.
-/

namespace StrongSwan

namespace SimakaMessage

/-! ## Types -/

def atRand : U8 := 1
def atAutn : U8 := 2
def atRes : U8 := 3
def atAuts : U8 := 4
def atPadding : U8 := 6
def atNonceMt : U8 := 7
def atPermanentIdReq : U8 := 10
def atMac : U8 := 11
def atNotification : U8 := 12
def atAnyIdReq : U8 := 13
def atIdentity : U8 := 14
def atVersionList : U8 := 15
def atSelectedVersion : U8 := 16
def atFullauthIdReq : U8 := 17
def atCounter : U8 := 19
def atCounterTooSmall : U8 := 20
def atNonceS : U8 := 21
def atClientErrorCode : U8 := 22
def atIv : U8 := 129
def atEncrData : U8 := 130
def atNextPseudonym : U8 := 132
def atNextReauthId : U8 := 133

inductive Subtype
  | akaChallenge
  | akaAuthenticationReject
  | akaSynchronizationFailure
  | akaIdentity
  | simStart
  | simChallenge
  | simNotification
  | simReauthentication
  | simClientError
  deriving DecidableEq, Repr

def Subtype.number : Subtype → U8
  | akaChallenge => 1
  | akaAuthenticationReject => 2
  | akaSynchronizationFailure => 4
  | akaIdentity => 5
  | simStart => 10
  | simChallenge => 11
  | simNotification => 12
  | simReauthentication => 13
  | simClientError => 14

/-- How the data of an attribute is laid out. -/
inductive Group
  /-- attributes without data -/
  | noData
  /-- attributes with two bytes data -/
  | twoBytes
  /-- attributes with an additional actual-length in bits or bytes -/
  | actualLength
  /-- attributes with two reserved bytes, 16 bytes length -/
  | sixteenBytes
  /-- attributes with two reserved bytes, variable length -/
  | variableLength
  /-- attributes with no reserved bytes, 14 bytes length -/
  | auts
  /-- other attributes (with 4n + 2 length) -/
  | other
  deriving DecidableEq, Repr

def group (type : U8) : Group :=
  if type ∈ [atCounterTooSmall, atAnyIdReq, atPermanentIdReq, atFullauthIdReq] then .noData
  else if type ∈ [atCounter, atClientErrorCode, atSelectedVersion, atNotification] then .twoBytes
  else if type ∈ [atNextPseudonym, atNextReauthId, atRes, atIdentity, atVersionList] then
    .actualLength
  else if type ∈ [atNonceS, atAutn, atNonceMt, atIv, atMac] then .sixteenBytes
  else if type ∈ [atEncrData, atRand] then .variableLength
  else if type = atAuts then .auts
  else .other

/-- The types that are not accepted unencrypted. -/
def mustEncrypt (type : U8) : Bool :=
  decide (type ∈ [atCounterTooSmall, atCounter, atNextPseudonym, atNextReauthId, atNonceS])

/-! ## Messages -/

/-- Where an attribute and its data were found: in the message or in the decrypted buffer, from the offset
`start` on with `length` bytes, the data from the offset `data` on with `len` bytes. -/
structure Place where
  encrypted : Bool
  start : ℕ
  length : ℕ
  data : ℕ
  len : ℕ
  deriving DecidableEq, Repr

end SimakaMessage

/-- `private_simaka_message_t`; `added` are the attributes that were parsed, with their places. -/
structure SimakaMessage where
  /-- EAP message, starting with EAP header -/
  message : Chunk
  attributes : List (U8 × Chunk) := []
  added : List (U8 × SimakaMessage.Place) := []
  /-- Currently parsing AT_ENCR_DATA wrapped attributes? -/
  encrypted : Bool := false
  /-- Phase a NOTIFICATION is sent within -/
  pBit : Bool := true
  /-- MAC value -/
  mac : Option SimakaMessage.Place := none
  /-- ENCR_DATA value -/
  encr : Option SimakaMessage.Place := none
  /-- IV value -/
  iv : Option SimakaMessage.Place := none
  deriving DecidableEq

/-- `simaka_crypto_t`: the transforms, when there are keys, and the next random bytes. -/
structure SimakaCrypto where
  crypter : Option Crypter
  signer : Option Signer
  getBytes : ℕ → Option Chunk

namespace SimakaMessage

/-- The length of `hdr_t`. -/
def hdrLen : ℕ := 8

/-- A 16-bit number in network order. -/
def getU16 (buf : Chunk) (pos : ℕ) : ℕ := (buf.getD pos 0).toNat * 256 + (buf.getD (pos + 1) 0).toNat

/-- An integer as a `size_t`. -/
def sizeT (n : ℤ) : ℕ := (n % 2 ^ 64).toNat

/-- `subtype` of the header -/
def subtype (this : SimakaMessage) : U8 := this.message.getD 5 0

/-- The message as far as the header says. -/
def data (this : SimakaMessage) : Chunk := this.message.take (getU16 this.message 2)

/-- `simaka_message_create_from_payload`: EAP requests and responses of EAP-SIM and EAP-AKA. -/
def createFromPayload (data : Chunk) : Option SimakaMessage :=
  if data.length < hdrLen ∨ getU16 data 2 ≠ data.length % 2 ^ 16 then none
  else if data.getD 0 0 ≠ 1 ∧ data.getD 0 0 ≠ 2 then none
  else if data.getD 4 0 ≠ 18 ∧ data.getD 4 0 ≠ 23 then none
  else some { message := data }

def create (request : Bool) (identifier type : U8) (subtype : Subtype) : Option SimakaMessage :=
  createFromPayload [if request then 1 else 2, identifier, 0, 8, type, subtype.number, 0, 0]

def addAttribute (this : SimakaMessage) (type : U8) (data : Chunk) : SimakaMessage :=
  { this with attributes := this.attributes ++ [(type, data)] }

/-! ## Parsing -/

def getActualLength (buf : Chunk) (pos : ℕ) : ℕ :=
  if buf.getD pos 0 = atRes then getU16 buf (pos + 2) / 8 else getU16 buf (pos + 2)

/-- The data of the attribute at `pos`, and how many bytes are skipped; `none` is an invalid length, or
an attribute that is not encrypted. -/
def attributeAt (encrypted : Bool) (buf : Chunk) (pos : ℕ) : Option (Place × ℕ) :=
  let type := buf.getD pos 0
  let length := (buf.getD (pos + 1) 0).toNat
  let left := buf.length - pos
  let place := fun (data len : ℕ) => (⟨encrypted, pos, 4 * length, data, len⟩ : Place)
  if mustEncrypt type && !encrypted then none
  else match group type with
    | .noData => if length ≠ 1 ∨ left < 4 then none else some (place pos 0, 4)
    | .twoBytes => if length ≠ 1 ∨ left < 4 then none else some (place (pos + 2) 2, 4)
    | .actualLength =>
      if length < 1 ∨ left < 4 then none
      else
        let len := getActualLength buf pos
        if length * 4 < len ∨ left < len then none
        else some (place (pos + 4) len, length * 4)
    | .sixteenBytes => if length ≠ 5 ∨ left < 20 then none else some (place (pos + 4) 16, 20)
    | .variableLength =>
      if left < length * 4 ∨ left < 4 then none
      else some (place (pos + 4) (sizeT (length * 4 - 4)), length * 4)
    | .auts => if length ≠ 4 ∨ left < 16 then none else some (place (pos + 2) 14, 16)
    | .other =>
      if left < length * 4 ∨ left < 4 then none
      else some (place (pos + 2) (sizeT (length * 4 - 2)), length * 4)

def bytesAt (buf : Chunk) (place : Place) : Chunk := (buf.drop place.data).take place.len

/-- Add an attribute with a copy of its data. -/
def addParsed (this : SimakaMessage) (buf : Chunk) (type : U8) (place : Place) : SimakaMessage :=
  { this.addAttribute type (bytesAt buf place) with added := this.added ++ [(type, place)] }

/-- The P bit of a notification. -/
def hasPBit (data : Chunk) : Bool := data.getD 0 0 &&& 0x40 ≠ 0

/-- Handle special attributes, and add others. -/
def handle (this : SimakaMessage) (buf : Chunk) (type : U8) (place : Place) :
    Option SimakaMessage :=
  if type = atMac then some { this with mac := some place }
  else if type = atIv then some { this with iv := some place }
  else if type = atEncrData then some { this with encr := some place }
  else if type = atPadding then some this
  else if type = atNotification then
    if this.pBit then
      -- remember P bit for MAC verification
      some ({ this with pBit := hasPBit (buf.drop place.data) }.addParsed buf type place)
    else if !this.encrypted then none
    else some (this.addParsed buf type place)
  else some (this.addParsed buf type place)

/-- What one turn of the parser comes to. -/
inductive Turn
  | rejected
  | accepted
  | next (this : SimakaMessage) (pos : ℕ)
  deriving DecidableEq

/-- Parse the attribute at `pos`. -/
def turn (buf : Chunk) (this : SimakaMessage) (pos : ℕ) : Turn :=
  if buf.length ≤ pos then .accepted
  else if buf.length - pos < 2 then .rejected
  else match attributeAt this.encrypted buf pos with
    | none => .rejected
    | some (place, skip) =>
      match handle this buf (buf.getD pos 0) place with
      | none => .rejected
      | some this => .next this (if skip < buf.length - pos then pos + skip else buf.length)

/-- Parse attributes, in at most `fuel` turns. -/
def parseAttributes (buf : Chunk) : ℕ → SimakaMessage → ℕ → Option (Bool × SimakaMessage)
  | 0, _, _ => none
  | fuel + 1, this, pos =>
    match turn buf this pos with
    | .rejected => some (false, this)
    | .accepted => some (true, this)
    | .next this pos => parseAttributes buf fuel this pos

/-- Parse the attributes of the decrypted buffer. -/
def parsePlain (this : SimakaMessage) (plain : Chunk) (fuel : ℕ) : Option (Bool × SimakaMessage) :=
  (parseAttributes plain fuel { this with encrypted := true } 0).map fun r =>
    (r.1, { r.2 with encrypted := false })

/-- Decrypt a message and parse the decrypted attributes. -/
def decrypt (this : SimakaMessage) (crypto : SimakaCrypto) (fuel : ℕ) :
    Option (Bool × SimakaMessage) :=
  match crypto.crypter, this.iv, this.encr with
  | some crypter, some iv, some encr =>
    if iv.len = 0 ∨ encr.len = 0 ∨ this.encrypted = true then some (true, this)
    else if encr.len % crypter.blockSize ≠ 0 then some (false, this)
    else
      match crypter.decrypt (bytesAt this.message encr) (bytesAt this.message iv) with
      | none => some (false, this)
      | some plain => this.parsePlain plain fuel
  | _, _, _ => some (true, this)

def parse (this : SimakaMessage) (crypto : SimakaCrypto) (fuel : ℕ) :
    Option (Bool × SimakaMessage) :=
  -- a message that was parsed before is only decrypted
  if this.attributes ≠ [] then this.decrypt crypto fuel
  else
    match parseAttributes this.data fuel this hdrLen with
    | some (true, this) => this.decrypt crypto fuel
    | result => result

/-- Does the message need a MAC? `none` is an unknown message. -/
def needsMac (this : SimakaMessage) : Option Bool :=
  if this.subtype ∈ [Subtype.simStart.number, Subtype.simClientError.number,
      Subtype.akaAuthenticationReject.number, Subtype.akaSynchronizationFailure.number,
      Subtype.akaIdentity.number] then some false
  else if this.subtype ∈ [Subtype.simChallenge.number, Subtype.akaChallenge.number,
      Subtype.simReauthentication.number] then some true
  else if this.subtype = Subtype.simNotification.number then some !this.pBit
  else none

def zeroMac (this : SimakaMessage) (mac : Place) : Chunk :=
  this.data.take mac.data ++ List.replicate mac.len 0 ++ this.data.drop (mac.data + mac.len)

def verify (this : SimakaMessage) (crypto : SimakaCrypto) (sigdata : Chunk) : Bool :=
  match this.needsMac with
  | some false => true
  | none => false
  | some true =>
    match this.mac, crypto.signer with
    | some mac, some signer =>
      signer.verify (this.zeroMac mac ++ sigdata) (bytesAt this.message mac)
    | _, _ => false

/-! ## Generating -/

def isEncrypted (attr : U8 × Chunk) : Bool :=
  decide (attr.1 ∈ [atNonceS, atNextPseudonym, atNextReauthId, atCounter, atCounterTooSmall]) ||
    decide (attr.1 = atNotification) && !hasPBit attr.2

/-- The header of an attribute. -/
def attrHdr (type : U8) (length : ℕ) : Chunk := [type, BitVec.ofNat 8 length]

/-- A 16-bit number in network order. -/
def putU16 (n : ℕ) : Chunk := [BitVec.ofNat 8 (n / 256), BitVec.ofNat 8 n]

/-- The actual length. That of AT_RES is in bits, and scaled after it was brought to network order (on a
little-endian host). -/
def putActualLength (type : U8) (n : ℕ) : Chunk :=
  let len := n % 256 * 256 + n / 256 % 256
  let len := if type = atRes then len * 8 else len
  [BitVec.ofNat 8 len, BitVec.ofNat 8 (len / 256)]

/-- The bytes that fill up the last word. -/
def wordPadding (len : ℕ) : ℕ := (4 - len % 4) % 4

/-- Encode an attribute; types without a rule are skipped. -/
def encodeAttribute (attr : U8 × Chunk) : Chunk :=
  let type := attr.1
  let data := attr.2
  if type ∈ [atCounterTooSmall, atAnyIdReq, atPermanentIdReq, atFullauthIdReq] then
    attrHdr type 1 ++ [0, 0]
  else if type ∈ [atCounter, atClientErrorCode, atSelectedVersion, atNotification] then
    attrHdr type 1 ++ data.take 2
  else if type ∈ [atNextPseudonym, atNextReauthId, atIdentity, atVersionList, atRes] then
    let padding := wordPadding data.length
    attrHdr type (data.length / 4 + 1 + if padding ≠ 0 then 1 else 0) ++
      putActualLength type data.length ++ data ++ List.replicate padding 0
  else if type ∈ [atNonceS, atNonceMt, atAutn] then attrHdr type 5 ++ [0, 0] ++ data
  else if type = atRand then attrHdr type (1 + data.length / 4) ++ [0, 0] ++ data
  else if type = atAuts then attrHdr type 4 ++ data
  else []

/-- The plaintext of AT_ENCR_DATA: the attributes, and AT_PADDING up to the block size. -/
def encodePlain (attrs : List (U8 × Chunk)) (blockSize : ℕ) : Chunk :=
  let encr := attrs.flatMap encodeAttribute
  let padding := blockSize - encr.length % blockSize
  encr ++ attrHdr atPadding (padding / 4) ++ List.replicate (padding - 2) 0

/-- The encrypted attributes, with their IV. -/
def encodeEncrypted (attrs : List (U8 × Chunk)) (crypto : SimakaCrypto) : Option Chunk :=
  match crypto.crypter with
  | none => none
  | some crypter =>
    let plain := encodePlain attrs crypter.blockSize
    (crypto.getBytes crypter.ivSize).bind fun iv =>
      (crypter.encrypt plain iv).map fun encr =>
        attrHdr atIv (iv.length / 4 + 1) ++ [0, 0] ++ iv ++
          attrHdr atEncrData (encr.length / 4 + 1) ++ [0, 0] ++ encr

/-- The header with the length of the message. -/
def withLength (out : Chunk) : Chunk := out.take 2 ++ putU16 out.length ++ out.drop 4

/-- Does the encoder include a MAC? -/
def includesMac (this : SimakaMessage) : Bool :=
  decide (this.subtype ∈ [Subtype.simChallenge.number, Subtype.akaChallenge.number,
    Subtype.simReauthentication.number])

def generate (this : SimakaMessage) (crypto : SimakaCrypto) (sigdata : Chunk) : Option Chunk :=
  let encrypted := this.attributes.filter isEncrypted
  let out := this.message.take hdrLen ++
    (this.attributes.filter fun attr => !isEncrypted attr).flatMap encodeAttribute
  (if encrypted.flatMap encodeAttribute ≠ [] then encodeEncrypted encrypted crypto
    else some []).bind fun encr =>
    if this.includesMac then
      crypto.signer.bind fun signer =>
        let out := withLength (out ++ encr ++ attrHdr atMac (signer.blockSize / 4 + 1) ++
          List.replicate (2 + signer.blockSize) 0)
        (signer.sign (out ++ sigdata)).map fun mac =>
          out.take (out.length - signer.blockSize) ++ mac
    else some (withLength (out ++ encr))

end SimakaMessage

end StrongSwan
