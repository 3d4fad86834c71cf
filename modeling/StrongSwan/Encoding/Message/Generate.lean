import StrongSwan.Encoding.Message.Parse

/-!
# Generating messages and fragments

A message of IKEv2 is generated with its payloads in an Encrypted payload, if its exchange is
encrypted. A message that is too long for one packet is split into fragments.

* `Payload.generate`, `generateContent`: payloads as bytes.
* `orderPayloads`, `wrapPayloads`.
* `generateMessage`, `finalizeMessage`, `generate`.
* `fragmentLength`, `countFragments`: how a message is split; `fragment`.
-/

namespace StrongSwan

/-! ## Payloads -/

namespace Payload

def getLength : Payload → U16
  | encrypted payload => payload.getLength none
  | fragment payload => payload.getLength none
  | fragmentV1 payload => BitVec.ofNat 16 (payload.data.length + 8)
  | plain _ _ _ body => BitVec.ofNat 16 (body.length + 4)

/-- `generate_payload` -/
def generate : Payload → Chunk
  | encrypted payload => [payload.nextPayload.toWire, payload.flags] ++
      htoun16 (payload.getLength none) ++ payload.encrypted
  | fragment payload => [payload.nextPayload.toWire, payload.flags] ++
      htoun16 (payload.getLength none) ++ htoun16 payload.fragmentNumber ++
      htoun16 payload.totalFragments ++ payload.encrypted
  | fragmentV1 payload => [payload.nextPayload.toWire, 0] ++
      htoun16 (BitVec.ofNat 16 (payload.data.length + 8)) ++ htoun16 payload.fragmentId ++
      [payload.fragmentNumber, payload.flags] ++ payload.data
  | plain _ nextPayload flags body => [nextPayload.toWire, flags] ++
      htoun16 (BitVec.ofNat 16 (body.length + 4)) ++ body

def asFragment : Payload → Option EncryptedFragmentPayload
  | fragment payload => some payload
  | _ => none

open BioReader in
/-- `get_notify_type`, behind the protocol and the size of the SPI -/
def getNotifyType : Payload → Option U16
  | plain _ _ _ body => (readUint16 (body.drop 2)).map Prod.fst
  | _ => none

end Payload

/-- Set the next type of each payload to the type of the one after it, and of the last one to
`last`. -/
def relinkTo (last : PayloadType) : List Payload → List Payload
  | [] => []
  | [payload] => [payload.setNextType last]
  | payload :: next :: payloads =>
    payload.setNextType next.getType :: relinkTo last (next :: payloads)

/-- The type of the first payload, or `last` if there is none. -/
def firstType (last : PayloadType) (payloads : List Payload) : PayloadType :=
  (payloads.head?.map Payload.getType).getD last

/-- `generate_payloads` of an encrypted payload -/
def generateContent (payloads : List Payload) : Chunk :=
  (relinkTo .none payloads).flatMap Payload.generate

structure PayloadOrder where
  type : PayloadType
  /-- notify type, if the payload is a notify -/
  notify : U16

/-- Whether an ordering rule is about a payload. -/
def PayloadOrder.applies (order : PayloadOrder) (payload : Payload) : Bool :=
  payload.getType = order.type &&
    (order.type ≠ .notify || order.notify = 0 || some order.notify = payload.getNotifyType)

/-! ## Messages -/

/-- What a message is encrypted in: an Encrypted payload of some payloads, or an Encrypted Fragment
payload. -/
inductive Wrapped
  | payloads (content : List Payload)
  | fragment (payload : EncryptedFragmentPayload)

namespace Wrapped

def getType : Wrapped → PayloadType
  | payloads _ => .encrypted
  | fragment _ => .fragment

/-- What `generate_payloads` generates; that does nothing for fragments. -/
def content : Wrapped → List Payload
  | payloads content => content
  | fragment _ => []

/-- `get_length` before encryption -/
def getLength (aead : Aead) : Wrapped → U16
  | payloads content =>
    let length := (content.map fun payload => payload.getLength.toNat).sum
    BitVec.ofNat 16 (length + computeOverhead aead length + 4)
  | fragment payload => payload.getLength (some aead)

/-- `encrypt`, with the data in front of the payload as associated data -/
def encrypt (aead : Aead) (draws : Draws) (assoc : Chunk) (this : Wrapped) : Option Payload :=
  match this with
  | payloads content => do
    let header := [(firstType .none content).toWire, 0] ++ htoun16 (this.getLength aead)
    let encrypted ← encryptContent aead draws (generateContent content) (assoc ++ header)
    some (.encrypted ⟨firstType .none content, 0, encrypted, false⟩)
  | fragment payload => do
    let encrypted ← encryptContent aead draws payload.plain (payload.appendHeader aead assoc)
    some (.fragment { payload with encrypted })

end Wrapped

namespace Message

/-- `create_header` and its bytes, with the next payload and the length; the flags that are never set
are left out. -/
def generateHeader (this : Message) (next : PayloadType) (length : U32) : Chunk :=
  let ikeSaId := this.ikeSaId.getD ⟨0, 0, 0, false⟩
  let response : U8 := if this.isRequest then 0 else 0x20
  let initiator : U8 := if ikeSaId.isInitiatorFlag then 0x08 else 0
  htoun64 ikeSaId.initiatorSpi ++ htoun64 ikeSaId.responderSpi ++
    [next.toWire, this.majorVersion <<< 4 ||| this.minorVersion &&& 0x0F, this.exchangeType.toWire,
      response ||| initiator] ++
    htoun32 this.messageId ++ htoun32 length

/-- The header and the payloads in clear, which go in front of the encrypted one, by the length of the
message. -/
def generateFront (this : Message) (last : PayloadType) (length : U32) : Chunk :=
  this.generateHeader (firstType last this.payloads) length ++
    (relinkTo last this.payloads).flatMap Payload.generate

def addPayload (this : Message) (payload : Payload) : Message :=
  match this.payloads.getLast? with
  | some previous => { this with payloads := this.payloads.dropLast ++
      [previous.setNextType payload.getType, payload.setNextType .none] }
  | none => { this with
      firstPayload := payload.getType
      payloads := [payload.setNextType .none] }

/-- Reorder the payloads, by the order of the exchange; the others go to the end, from the last. -/
def orderPayloads (order : List PayloadOrder) (this : Message) : Message :=
  let (this, list) := order.foldl (fun (this, list) order =>
      ((list.filter order.applies).foldl addPayload this, list.filter (!order.applies ·)))
    ({ this with payloads := [] }, this.payloads)
  list.reverse.foldl addPayload this

/-- Wrap payloads in an encrypted payload; an encrypted fragment payload is one already. -/
def wrapPayloads (this : Message) (rule : MessageRule) : Message × Wrapped :=
  match (this.payloads.filterMap Payload.asFragment).getLast? with
  | some payload => ({ this with payloads := this.payloads.filter (·.getType ≠ .fragment) },
      .fragment payload)
  | none =>
    let encrypt (payload : Payload) :=
      (rule.getPayloadRule payload.getType).all PayloadRule.encrypted
    ((this.payloads.filter fun payload => !encrypt payload).foldl addPayload
        { this with payloads := [] }, .payloads (this.payloads.filter encrypt))

/-- `generate_message`: the message with its payloads in clear, and what is encrypted. `order` are the
ordering rules of the exchange. -/
def generateMessage (this : Message) (order : List PayloadOrder) (aead : Option Aead) :
    Status × Message × Option Wrapped :=
  if this.exchangeType = .undefined then (.invalidState, this, none)
  else if this.packet.source.isNone ∨ this.packet.destination.isNone then
    (.invalidState, this, none)
  else
    match this.getMessageRule with
    | none => (.notSupported, this, none)
    | some rule =>
      let this := this.orderPayloads order
      if rule.encrypted ∧ aead.isSome then
        let (this, wrapped) := this.wrapPayloads rule
        (.success, this, some wrapped)
      else (.success, this, none)

/-- `finalize_message`: encrypt, and set the data of the packet. -/
def finalizeMessage (this : Message) (aead : Option Aead) (draws : Draws)
    (wrapped : Option Wrapped) : Status × Message :=
  match wrapped, aead with
  | some wrapped, some aead =>
    let front := this.generateFront wrapped.getType
    let assoc := front
      (BitVec.ofNat 32 ((front 0).length + (wrapped.getLength aead).toNat))
    match wrapped.encrypt aead draws assoc with
    | none => (.invalidState, this)
    | some payload =>
      let length := (front 0).length + payload.generate.length
      (.success, { this with
        payloads := this.payloads ++ [payload]
        packet.data := front (BitVec.ofNat 32 length) ++ payload.generate })
  | _, _ =>
    let front := this.generateFront .none
    (.success, { this with packet.data := front (BitVec.ofNat 32 (front 0).length) })

def generate (this : Message) (order : List PayloadOrder) (aead : Option Aead)
    (draws : Draws) : Status × Message :=
  match this.generateMessage order aead with
  | (.success, this, wrapped) => this.finalizeMessage aead draws wrapped
  | (status, this, _) => (status, this)

/-! ## Fragments -/

/-- Create a single fragment with the given data. The first one gets the unencrypted payloads. -/
def createFragment (this : Message) (next : PayloadType) (num count : U16) (data : Chunk) : Message :=
  let fragment : Payload := .fragment ⟨.none, 0, num, count, [], data⟩
  if num = 1 then
    ((this.payloads.filter (·.getType ≠ .encrypted)).foldl addPayload this.clone).addPayload
      (fragment.setNextType next)
  else this.clone.addPayload fragment

/-- Reduce the fragment length but ensure it stays positive. -/
def reduceFragLen (fragLen amount : ℕ) : ℕ := max 1 (fragLen - amount)

def ikev2UdpPort : U16 := 500

/-- The maximum length of an IKE message for datagrams of a length, or of a default length. -/
def messageLength (source destination : Host) (fragLen : ℕ) : ℕ :=
  let inet := source.family = .inet
  let fragLen := if fragLen = 0 then if inet then 576 else 1280 else fragLen
  let fragLen := reduceFragLen (reduceFragLen fragLen (if inet then 20 else 40)) 8
  if destination.port ≠ ikev2UdpPort ∧ source.port ≠ ikev2UdpPort then
    -- for the non-ESP marker
    reduceFragLen fragLen 4
  else fragLen

/-- The maximum length of the contents of a fragment, for messages of a length. Where IV and ICV do
not fit, the source wraps around and ends at one as well. -/
def fragmentLength (aead : Aead) (fragLen : ℕ) : ℕ :=
  let fragLen := reduceFragLen fragLen 28
  let fragLen := reduceFragLen (reduceFragLen (reduceFragLen fragLen aead.ivSize) aead.icvSize) 8
  -- padding and padding length
  reduceFragLen (fragLen - fragLen % aead.blockSize) 1

/-- The number of fragments. -/
def countFragments (len fragLen : ℕ) : ℕ := len / fragLen + if len % fragLen ≠ 0 then 1 else 0

/-- The loop of `fragment`, over the numbers that are left. -/
def generateFragments (this : Message) (order : List PayloadOrder) (aead : Aead)
    (draws : U16 → Draws) (next : PayloadType) (count : U16) (fragLen : ℕ) :
    List ℕ → Chunk → Status × List Message
  | [], _ => (.success, [])
  | num :: nums, data =>
    let len := min data.length fragLen
    match (this.createFragment next (BitVec.ofNat 16 num) count (data.take len)).generate order
      (some aead) (draws (BitVec.ofNat 16 num)) with
    | (.success, fragment) =>
      let (status, fragments) :=
        this.generateFragments order aead draws next count fragLen nums (data.drop len)
      (status, if status = .success then fragment :: fragments else [])
    | _ => (.failed, [])

/-- Split the message into fragments with the payloads of the Encrypted payload. The counter of the
loop passes `count`, unless that is its maximum and the loop never ends. -/
def split (this : Message) (order : List PayloadOrder) (aead : Aead)
    (draws : U16 → Draws) (content : List Payload) (fragLen : ℕ) : Option (Status × List Message) :=
  let data := generateContent content
  let count := BitVec.ofNat 16 (countFragments data.length fragLen)
  if count = BitVec.allOnes 16 then none
  else
    match this.generateFragments order aead draws (firstType .none content) count fragLen
      (List.range' 1 count.toNat) data with
    | (.success, fragments) => some (.success, fragments)
    | _ => some (.failed, [])

/-- `fragment`: the packets of a message, as messages, and whether they are fragments of it. A message
that is encoded comes with the payloads of its Encrypted payload. -/
def fragment (this : Message) (order : List PayloadOrder) (aead : Option Aead)
    (draws : U16 → Draws) (encoded : Option (List Payload)) (fragLen : ℕ) :
    Option (Status × Bool × List Message) :=
  match this.packet.source, this.packet.destination with
  | some source, some destination =>
    let fragLen := messageLength source destination fragLen
    let isEncoded := this.packet.data ≠ []
    let generated := if isEncoded then (.success, this, encoded.map Wrapped.payloads)
      else this.generateMessage order aead
    match generated with
    | (.success, generated, wrapped) =>
      let unfragmented :=
        if isEncoded then (.success, this)
        else generated.finalizeMessage aead (draws 0) wrapped
      match wrapped, aead with
      | some wrapped, some aead =>
        let len := if isEncoded then this.packet.data.length
          else (generated.generateFront .none 0).length + (wrapped.getLength aead).toNat
        if len ≤ fragLen then some (unfragmented.1, false, [unfragmented.2])
        else
          (generated.split order aead draws wrapped.content (fragmentLength aead fragLen)).map
            fun (status, fragments) => (status, true, fragments)
      | _, _ => some (unfragmented.1, false, [unfragmented.2])
    | (status, generated, _) => some (status, false, [generated])
  -- a message has addresses when it is fragmented
  | _, _ => none

end Message

end StrongSwan
