import StrongSwan.Bio.BioReader.Window
import StrongSwan.Lib.Enumeration

/-!
# RADIUS messages

* `RadiusMessage`, `radiusMessageParse`: messages whose length is that of the data.
* `attributeEnumerate`, `vendorTurn`: a turn of the enumerators.
* `SignedMessage`, `add`, `crypt`, `sign`: messages that are built and signed.
* `checkAttributes`, `verify`: the checks of a received message.
-/

namespace StrongSwan.Radius

open BioReader Enumeration

def RMC_ACCESS_REQUEST : U8 := 1

def RMC_ACCOUNTING_REQUEST : U8 := 4

def RAT_USER_PASSWORD : U8 := 2

def RAT_VENDOR_SPECIFIC : U8 := 26

def RAT_EAP_MESSAGE : U8 := 79

def RAT_MESSAGE_AUTHENTICATOR : U8 := 80

def MAX_RADIUS_ATTRIBUTE_SIZE : ℕ := 253

def HASH_SIZE_MD5 : ℕ := 16

/-- `sizeof(rmsg_t)` -/
def RMSG_SIZE : ℕ := 20

/-- `sizeof(rattr_t)` -/
def RATTR_SIZE : ℕ := 2

section header

def code (msg : Chunk) : U8 := msg.getD 0 0

def identifier (msg : Chunk) : U8 := msg.getD 1 0

/-- Length of code, identifier, length, authenticator and attributes. -/
def msgLength (msg : Chunk) : ℕ := (untoh16 (msg.drop 2)).toNat

def writeAt (msg : Chunk) (pos : ℕ) (bytes : Chunk) : Chunk :=
  msg.take pos ++ (bytes ++ msg.drop (pos + bytes.length))

def authenticator (msg : Chunk) : Chunk := (msg.drop 4).take HASH_SIZE_MD5

def setAuthenticator (msg auth : Chunk) : Chunk := writeAt msg 4 auth

end header

/-- A message that was parsed. -/
structure RadiusMessage where
  msg : Chunk
  size : RMSG_SIZE ≤ msg.length
  length_eq : msgLength msg = msg.length

def radiusMessageParse (data : Chunk) : Option RadiusMessage :=
  if h : data.length < RMSG_SIZE ∨ msgLength data ≠ data.length then none
  else some ⟨data, Nat.not_lt.mp (not_or.mp h).1, not_not.mp (not_or.mp h).2⟩

/-! ## Enumerators -/

/-- The position of the next attribute, and the number of bytes left. -/
structure AttributeEnumerator where
  next : ℕ
  left : ℕ

structure Attribute where
  type : U8
  data : Window

def AttributeEnumerator.length (msg : Chunk) (this : AttributeEnumerator) : ℕ :=
  (msg.getD (this.next + 1) 0).toNat

/-- `attribute_enumerate`; the length of the value is a `size_t`. -/
def attributeEnumerate (msg : Chunk) (this : AttributeEnumerator) :
    Option (Attribute × AttributeEnumerator) :=
  if this.left = 0 then none
  else if this.left < RATTR_SIZE ∨ this.left < this.length msg then none
  else
    some (⟨msg.getD this.next 0,
        ⟨this.next + RATTR_SIZE, (2 ^ 64 + this.length msg - RATTR_SIZE) % 2 ^ 64⟩⟩,
      ⟨this.next + this.length msg, this.left - this.length msg⟩)

def createEnumerator (msg : Chunk) : AttributeEnumerator :=
  if msgLength msg < RMSG_SIZE + RATTR_SIZE then ⟨RMSG_SIZE, 0⟩
  else ⟨RMSG_SIZE, msgLength msg - RMSG_SIZE⟩

def attributeTurn (msg : Chunk) (this : AttributeEnumerator) : Turn AttributeEnumerator Attribute :=
  .ofOption (attributeEnumerate msg this)

structure VendorEnumerator where
  /-- inner attribute enumerator -/
  inner : AttributeEnumerator
  /-- current vendor ID -/
  vendor : U32
  /-- reader for current vendor ID -/
  reader : Option Window

structure VendorAttribute where
  vendor : U32
  type : U8
  data : Window

def memory (msg : Chunk) (i : ℕ) : U8 := msg.getD i 0

/-- A type, a length and a value behind the vendor ID, and what remains. -/
def readVendor (msg : Chunk) (reader : Window) : Option (U8 × Window × Window) :=
  if reader.len < 2 then none
  else
    let type := readUint8Internal (memory msg) reader false
    let len := readUint8Internal (memory msg) type.buf false
    match type.value, len.value with
    | some type, some length =>
      if length.toNat < 2 then none
      else
        let data := readDataInternal (memory msg) len.buf (BitVec.ofNat 32 (length.toNat - 2)) false
        data.value.map fun _ => (type, ⟨len.buf.ptr, length.toNat - 2⟩, data.buf)
    | _, _ => none

/-- The next attribute of the message is looked at, once there is no reader. -/
def nextInner (msg : Chunk) (this : VendorEnumerator) : Turn VendorEnumerator VendorAttribute :=
  match attributeEnumerate msg this.inner with
  | none => .stop
  | some (inner, next) =>
    if inner.type = RAT_VENDOR_SPECIFIC then
      let vendor := readUint32Internal (memory msg) inner.data false
      match vendor.value with
      | some value => .again ⟨next, value, some vendor.buf⟩
      | none => .again ⟨next, this.vendor, none⟩
    else .again ⟨next, this.vendor, none⟩

/-- A turn of the loop of `vendor_enumerate`. -/
def vendorTurn (msg : Chunk) (this : VendorEnumerator) : Turn VendorEnumerator VendorAttribute :=
  match this.reader with
  | none => nextInner msg this
  | some reader =>
    match readVendor msg reader with
    | some (type, data, rest) =>
      .yield ⟨this.vendor, type, data⟩ { this with reader := some rest }
    | none => nextInner msg { this with reader := none }

def createVendorEnumerator (msg : Chunk) : VendorEnumerator := ⟨createEnumerator msg, 0, none⟩

/-! ## Primitives -/

/-- What MD5 and HMAC-MD5 return. -/
structure Digest where
  bytes : Chunk
  length_eq : bytes.length = HASH_SIZE_MD5

/-- A hasher for all it got since its last result, and a signer with its key; both may fail. -/
structure Primitives where
  getHash : Chunk → Option Digest
  getSignature : Chunk → Option Digest

/-- `verify_signature`, of a signature of the right length. -/
def Primitives.verifySignature (p : Primitives) (data signature : Chunk) : Bool :=
  (p.getSignature data).map Digest.bytes == some signature

/-- The authenticator of a request, or zeros. -/
def reqAuthBytes (reqAuth : Option Digest) : Chunk :=
  match reqAuth with
  | some auth => auth.bytes
  | none => List.replicate HASH_SIZE_MD5 0

/-! ## Signing -/

/-- A message that is built, with a password to encrypt. -/
structure SignedMessage where
  msg : Chunk
  password : Chunk

def radiusMessageCreate (code : U8) : SignedMessage :=
  ⟨[code, 0] ++ (htoun16 (BitVec.ofNat 16 RMSG_SIZE) ++ List.replicate HASH_SIZE_MD5 0), []⟩

/-- An attribute is appended to a message. -/
def addAttribute (msg : Chunk) (type : U8) (data : Chunk) : Chunk :=
  let data := data.take MAX_RADIUS_ATTRIBUTE_SIZE
  let msg' := msg.take (msgLength msg) ++ ([type, BitVec.ofNat 8 (data.length + RATTR_SIZE)] ++ data)
  writeAt msg' 2 (htoun16 (BitVec.ofNat 16 (msgLength msg + (data.length + RATTR_SIZE))))

/-- `add`; a password is stored, null-padded. -/
def add (this : SignedMessage) (type : U8) (data : Chunk) : SignedMessage :=
  if type = RAT_USER_PASSWORD ∧ this.password.length = 0 then
    let len := (data.length + HASH_SIZE_MD5 - 1) / HASH_SIZE_MD5 * HASH_SIZE_MD5
    { this with password := data ++ List.replicate (len - data.length) 0 }
  else { this with msg := addAttribute this.msg type data }

/-- The rounds of `crypt`, in place: a block is what the next hash is taken of. -/
def cryptRounds (p : Primitives) (secret : Chunk) : ℕ → Chunk → Chunk → Option Chunk
  | 0, _, _ => some []
  | blocks + 1, seed, out =>
    match p.getHash (secret ++ seed) with
    | none => none
    | some b =>
      let block := memxor (out.take HASH_SIZE_MD5) b.bytes
      (cryptRounds p secret blocks block (out.drop HASH_SIZE_MD5)).map (block ++ ·)

/-- `crypt`, in place. -/
def crypt (p : Primitives) (msg salt data secret : Chunk) : Option Chunk :=
  if data.length % HASH_SIZE_MD5 ≠ 0 ∨ data.length < HASH_SIZE_MD5 then none
  else cryptRounds p secret (data.length / HASH_SIZE_MD5) (authenticator msg ++ salt) data

/-- The authenticator that is signed: a random one, or that of the request. -/
def initAuthenticator (reqAuth : Option Digest) (rng : Option (Option Digest)) : Option Chunk :=
  match rng with
  | some bytes => bytes.map Digest.bytes
  | none => some (reqAuthBytes reqAuth)

def addPassword (p : Primitives) (secret : Chunk) (this : SignedMessage) : Option SignedMessage :=
  if this.password.length ≠ 0 then do
    let encrypted ← crypt p this.msg [] this.password secret
    return ⟨addAttribute this.msg RAT_USER_PASSWORD encrypted, []⟩
  else return this

/-- Build the Message-Authenticator, over 16 null bytes. -/
def addMessageAuthenticator (p : Primitives) (msg : Chunk) : Option Chunk := do
  let msg := addAttribute msg RAT_MESSAGE_AUTHENTICATOR (List.replicate HASH_SIZE_MD5 0)
  let signature ← p.getSignature (msg.take (msgLength msg))
  return writeAt msg (msgLength msg - HASH_SIZE_MD5) signature.bytes

/-- Build the Response-Authenticator. -/
def addResponseAuthenticator (p : Primitives) (secret msg : Chunk) : Option Chunk := do
  let hash ← p.getHash (msg.take (msgLength msg) ++ secret)
  return setAuthenticator msg hash.bytes

/-- `sign`; `rng` is a random number generator with what it returns, if there is one. -/
def sign (p : Primitives) (reqAuth : Option Digest) (secret : Chunk) (rng : Option (Option Digest))
    (msgAuth : Bool) (this : SignedMessage) : Option SignedMessage := do
  let auth ← initAuthenticator reqAuth rng
  let this ← addPassword p secret { this with msg := setAuthenticator this.msg auth }
  let msg ← (if msgAuth then addMessageAuthenticator p this.msg else some this.msg)
  let msg ← (if rng.isNone then addResponseAuthenticator p secret msg else some msg)
  return { this with msg := msg }

/-! ## Verification -/

/-- The bytes of a part of a message. -/
def slice (msg : Chunk) (data : Window) : Chunk := (msg.drop data.ptr).take data.len

/-- How the loop over the attributes ends, and what it leaves of the message. -/
inductive Check
  | rejected (msg : Chunk)
  | passed (hasEap hasAuth : Bool) (msg : Chunk)

/-- The loop of `verify`, which ends with the first Message-Authenticator. -/
def checkAttributes (p : Primitives) : ℕ → Chunk → AttributeEnumerator → Bool → Option Check
  | 0, _, _, _ => none
  | fuel + 1, msg, enumerator, hasEap =>
    match attributeEnumerate msg enumerator with
    | none => some (.passed hasEap false msg)
    | some (attr, next) =>
      if attr.type = RAT_MESSAGE_AUTHENTICATOR then
        if attr.data.len ≠ HASH_SIZE_MD5 then some (.rejected msg)
        else
          let buf := slice msg attr.data
          let cleared := writeAt msg attr.data.ptr (List.replicate HASH_SIZE_MD5 0)
          if p.verifySignature cleared buf then
            some (.passed hasEap true (writeAt cleared attr.data.ptr buf))
          else some (.rejected cleared)
      else checkAttributes p fuel msg next (hasEap || attr.type == RAT_EAP_MESSAGE)

/-- What `verify` does once the Response-Authenticator is checked, or need not be. -/
def verifyAttributes (p : Primitives) (resAuth msg : Chunk) : Option (Bool × Chunk) :=
  match checkAttributes p (msg.length + 1) msg (createEnumerator msg) false with
  | none => none
  | some (.rejected msg) => some (false, msg)
  | some (.passed hasEap hasAuth msg) =>
    let msg := if code msg ≠ RMC_ACCESS_REQUEST then setAuthenticator msg resAuth else msg
    some (!(hasEap && !hasAuth), msg)

/-- `verify`, with what it leaves of the message; `none` if it does not return. -/
def verify (p : Primitives) (reqAuth : Option Digest) (secret msg : Chunk) : Option (Bool × Chunk) :=
  let resAuth := authenticator msg
  if code msg ≠ RMC_ACCESS_REQUEST then
    let msg := setAuthenticator msg (reqAuthBytes reqAuth)
    if (p.getHash (msg ++ secret)).map Digest.bytes = some resAuth then verifyAttributes p resAuth msg
    else some (false, msg)
  else verifyAttributes p resAuth msg

end StrongSwan.Radius
