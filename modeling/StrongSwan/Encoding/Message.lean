import StrongSwan.Encoding.IkeHeader
import StrongSwan.Networking.Host

/-!
# IKE messages

A `Message` is one that is received, generated or put together from fragments.

* `Message`, with `FragmentData` and the `Fragment`s of one that is put together.
* `parseHeader`, `getPayload`.
* `messageRules`: how often each payload may be in a message, and whether encrypted.
-/

namespace StrongSwan

structure Packet where
  source : Option Host
  destination : Option Host
  data : Chunk
  deriving DecidableEq

structure FragmentData where
  /-- the number of the last fragment in IKEv1, the total number in IKEv2 -/
  last : U16
  /-- length of all currently received fragments -/
  len : ℕ
  /-- maximum length of a fragmented packet -/
  maxPacket : ℕ
  deriving DecidableEq

structure Fragment where
  num : U8
  data : Chunk
  deriving DecidableEq

/-- `MAX_FRAGMENTS` -/
def maxFragments : ℕ := 255

structure Message where
  majorVersion : U8
  minorVersion : U8
  firstPayload : PayloadType
  exchangeType : ExchangeType
  isRequest : Bool
  /-- the message is encrypted (IKEv1) -/
  isEncrypted : Bool
  messageId : U32
  ikeSaId : Option IkeSaId
  packet : Packet
  /-- stored fragments, if there is an array -/
  fragments : Option (List Fragment)
  payloads : List Payload
  /-- what the parser has left of the packet -/
  parser : Option Chunk
  /-- data used to reassemble a fragmented message -/
  frag : Option FragmentData
  deriving DecidableEq

def messageCreateFromPacket (packet : Packet) : Message where
  majorVersion := 0
  minorVersion := 0
  firstPayload := .none
  exchangeType := .undefined
  isRequest := true
  isEncrypted := false
  messageId := 0
  ikeSaId := none
  packet := packet
  fragments := none
  payloads := []
  parser := some packet.data
  frag := none

namespace Message

/-- `get_payload`: the first payload of a type. -/
def getPayload (this : Message) (type : PayloadType) : Option Payload :=
  this.payloads.find? (·.getType = type)

/-- `parse_header`; reassembled messages of IKEv2 have no parser, and inherit from fragments. -/
def parseHeader (this : Message) : Status × Message :=
  if this.parser.isNone then (.success, this)
  else
    match readHeader this.packet.data with
    | none => (.parseError, this)
    | some (ikeHeader, rest) =>
      let this := { this with parser := some rest }
      if ikeHeader.verify ≠ .success then (ikeHeader.verify, this)
      else
        let version := ikeHeader.majVersion
        let isEncrypted :=
          if version = ikev2MajorVersion then this.isEncrypted else ikeHeader.encryption
        (.success, { this with
          ikeSaId := some ⟨version, ikeHeader.initiatorSpi, ikeHeader.responderSpi,
            ikeHeader.initiator⟩
          exchangeType := ikeHeader.exchangeType
          messageId := ikeHeader.messageId
          majorVersion := version
          minorVersion := ikeHeader.minVersion
          isRequest := if version = ikev2MajorVersion then !ikeHeader.response else this.isRequest
          -- fragments sent with the encrypted bit are really not encrypted
          isEncrypted := isEncrypted && ikeHeader.nextPayload ≠ .fragmentV1
          firstPayload := ikeHeader.nextPayload })

@[simp] theorem frag_parseHeader (this : Message) : this.parseHeader.2.frag = this.frag := by
  unfold parseHeader
  split
  · rfl
  · split
    · rfl
    · dsimp only
      split_ifs <;> rfl

/-- Make a basic clone of a message; its packet has no data yet. -/
def clone (this : Message) : Message :=
  { messageCreateFromPacket ⟨this.packet.source, this.packet.destination, []⟩ with
    majorVersion := this.majorVersion
    minorVersion := this.minorVersion
    ikeSaId := this.ikeSaId
    messageId := this.messageId
    isRequest := this.isRequest
    exchangeType := this.exchangeType }

/-- `message_create_defrag`, with the maximum length that is configured -/
def createDefrag (maxPacket : ℕ) (fragment : Message) : Option Message :=
  if (fragment.getPayload .fragmentV1).isNone ∧ (fragment.getPayload .fragment).isNone then none
  else some { fragment.clone with
    parser := none
    messageId := if fragment.majorVersion = ikev1MajorVersion then 0 else fragment.messageId
    frag := some ⟨0, 0, maxPacket⟩ }

end Message

end StrongSwan
