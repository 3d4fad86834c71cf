import StrongSwan.Tls.Fragmentation
import StrongSwan.Tls.TlsAead

/-!
# TLS record protection

`TlsProtection` encrypts records and counts them. The compression layer above it is given by the records
it builds, and by those it is passed.

* `process`, `build`: one record.
* `processAll`, `buildAll`: many of them.
-/

namespace StrongSwan

namespace Tls

def tlsBadRecordMac : U8 := 20

/-- `TLS_CHANGE_CIPHER_SPEC` -/
def changeCipherSpec : U8 := 20

structure TlsProtection where
  /-- negotiated TLS version -/
  version : U16
  alert : TlsAlert
  /-- Sequence number of incoming records -/
  seqIn : U64 := 0
  /-- Sequence number for outgoing records -/
  seqOut : U64 := 0
  /-- AEAD transform for inbound traffic -/
  aeadIn : Option TlsAead := none
  /-- AEAD transform for outbound traffic -/
  aeadOut : Option TlsAead := none

namespace TlsProtection

/-- The sequence number is advanced, or reset, before a record is passed to the compression layer. -/
def advanceIn (this : TlsProtection) (type : U8) : TlsProtection :=
  if type = changeCipherSpec then { this with seqIn := 0 }
  else { this with seqIn := this.seqIn + 1 }

/-- `process`, with what is passed to the compression layer -/
def process (this : TlsProtection) (type : U8) (data : Chunk) :
    TlsProtection × Option (U8 × Chunk) :=
  if this.alert.fatal then
    -- don't accept more input, fatal error occurred
    (this, none)
  else
    match this.aeadIn with
    | none => (this.advanceIn type, some (type, data))
    | some aead =>
      match aead.decrypt this.version type this.seqIn data with
      | (aead, none) =>
        ({ this with
            aeadIn := some aead
            alert := this.alert.add tlsFatal tlsBadRecordMac }, none)
      | (aead, some data) =>
        ({ this with aeadIn := some aead }.advanceIn type, some (type, data))

/-- `build`, given the record that the compression layer has built -/
def build (this : TlsProtection) (type : U8) (data : Chunk) :
    TlsProtection × Status × Chunk :=
  if type = changeCipherSpec then ({ this with seqOut := 0 }, .needMore, data)
  else
    match this.aeadOut with
    | none => ({ this with seqOut := this.seqOut + 1 }, .needMore, data)
    | some aead =>
      match aead.encrypt this.version type this.seqOut data with
      | (aead, none) => ({ this with aeadOut := some aead }, .failed, [])
      | (aead, some data) =>
        ({ this with aeadOut := some aead, seqOut := this.seqOut + 1 }, .needMore, data)

def setCipher (this : TlsProtection) (inbound : Bool) (aead : TlsAead) : TlsProtection :=
  if inbound then { this with aeadIn := some aead } else { this with aeadOut := some aead }

/-- Records are processed one after the other; what is passed on is kept. -/
def processAll (this : TlsProtection) : List (U8 × Chunk) → TlsProtection × List (U8 × Chunk)
  | [] => (this, [])
  | (type, data) :: records =>
    let (this, passed) := this.process type data
    let (this, delivered) := this.processAll records
    (this, passed.toList ++ delivered)

/-- Records are built one after the other, unless one fails. -/
def buildAll (this : TlsProtection) :
    List (U8 × Chunk) → TlsProtection × Option (List (U8 × Chunk))
  | [] => (this, some [])
  | (type, data) :: records =>
    match this.build type data with
    | (this, .needMore, data) =>
      let (this, built) := this.buildAll records
      (this, built.map ((type, data) :: ·))
    | (this, _, _) => (this, none)

end TlsProtection

end Tls

end StrongSwan
