import StrongSwan.Bio.BioReader
import StrongSwan.Encoding.Payload

/-!
# IKE headers

* `ExchangeType`, `IkeSaId`, `IkeHeader`.
* `parseHeader`: the 28 bytes in front of a message.
* `IkeHeader.verify`: does the exchange type belong to the version?
-/

namespace StrongSwan

inductive ExchangeType
  | idProt
  | authOnly
  | aggressive
  | informationalV1
  | transaction
  | quickMode
  | newGroupMode
  | ikeSaInit
  | ikeAuth
  | createChildSa
  | informational
  | ikeSessionResume
  | undefined
  | other (number : U8)
  deriving DecidableEq, Repr

namespace ExchangeType

def ofWire (number : U8) : ExchangeType :=
  if number = 2 then idProt
  else if number = 3 then authOnly
  else if number = 4 then aggressive
  else if number = 5 then informationalV1
  else if number = 6 then transaction
  else if number = 32 then quickMode
  else if number = 33 then newGroupMode
  else if number = 34 then ikeSaInit
  else if number = 35 then ikeAuth
  else if number = 36 then createChildSa
  else if number = 37 then informational
  else if number = 38 then ikeSessionResume
  else if number = 255 then undefined
  else other number

/-- The number of an exchange type in a header. -/
def toWire : ExchangeType → U8
  | idProt => 2
  | authOnly => 3
  | aggressive => 4
  | informationalV1 => 5
  | transaction => 6
  | quickMode => 32
  | newGroupMode => 33
  | ikeSaInit => 34
  | ikeAuth => 35
  | createChildSa => 36
  | informational => 37
  | ikeSessionResume => 38
  | undefined => 255
  | other number => number

end ExchangeType

structure IkeSaId where
  ikeVersion : U8
  initiatorSpi : U64
  responderSpi : U64
  isInitiatorFlag : Bool
  deriving DecidableEq, Repr

def ikev1MajorVersion : U8 := 1

def ikev2MajorVersion : U8 := 2

/-- `private_ike_header_t`, without the bits that no modelled function reads. -/
structure IkeHeader where
  initiatorSpi : U64
  responderSpi : U64
  nextPayload : PayloadType
  majVersion : U8
  minVersion : U8
  exchangeType : ExchangeType
  response : Bool
  initiator : Bool
  encryption : Bool
  messageId : U32
  length : U32
  deriving DecidableEq

/-- An SPI is copied as it is. -/
def readSpi (buf : Chunk) : Option (U64 × Chunk) := do
  let (spi, rest) ← BioReader.readData buf 8
  some (BitVec.ofNat 64 (Bytes.value spi), rest)

open BioReader in
/-- `parse_payload` of a `PL_HEADER` -/
def readHeader (data : Chunk) : Option (IkeHeader × Chunk) := do
  let (initiatorSpi, rest) ← readSpi data
  let (responderSpi, rest) ← readSpi rest
  let (nextPayload, rest) ← readUint8 rest
  let (version, rest) ← readUint8 rest
  let (exchangeType, rest) ← readUint8 rest
  let (flags, rest) ← readUint8 rest
  let (messageId, rest) ← readUint32 rest
  let (length, rest) ← readUint32 rest
  some ({
    initiatorSpi, responderSpi
    nextPayload := .ofWire nextPayload
    majVersion := version >>> 4
    minVersion := version &&& 0x0F
    exchangeType := .ofWire exchangeType
    response := flags.getLsbD 5
    initiator := flags.getLsbD 3
    encryption := flags.getLsbD 0
    messageId, length }, rest)

/-- `verify` of a header -/
def IkeHeader.verify (this : IkeHeader) : Status :=
  let forVersion : Bool := match this.exchangeType with
    | .idProt | .aggressive => this.messageId = 0 ∧ this.majVersion ≠ ikev2MajorVersion
    | .authOnly | .informationalV1 | .transaction | .quickMode | .newGroupMode =>
      this.majVersion ≠ ikev2MajorVersion
    | .ikeSaInit | .ikeAuth | .createChildSa | .informational | .ikeSessionResume =>
      this.majVersion ≠ ikev1MajorVersion
    | _ => this.majVersion ≠ ikev1MajorVersion ∧ this.majVersion ≠ ikev2MajorVersion
  if forVersion ∧ this.initiatorSpi ≠ 0 then .success else .failed

end StrongSwan
