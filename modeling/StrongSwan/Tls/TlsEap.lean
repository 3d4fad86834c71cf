import StrongSwan.Encoding.EapPayload

/-!
# TLS over EAP

`TlsEap` carries the bytes of a TLS stack in EAP packets. A flight of records is cut into fragments, which
the other side asks for one by one.

The TLS stack is a parameter: `TlsStack` gives the records of its protection layer.

* `Tls.build`: the next bytes of a flight.
* `processPkt`, `buildPkt`, `createAck`, `process`, `initiate`: packets.
* `Exchange`: two sides in lock step.
-/

namespace StrongSwan

namespace Tls

/-! ## The TLS stack -/

/-- What `tls_t` calls, on a state -/
structure TlsStack (σ : Type) where
  version : U16
  /-- `process` of `tls_t` -/
  process : σ → Chunk → Status × σ
  /-- The records that `build` of the protection layer returns with `NEED_MORE`, one after the other, and
  the status after them -/
  build : σ → List (U8 × Chunk) × Status × σ
  isComplete : σ → Bool

/-- The fields of `private_tls_t` for output. What was built and processed so far is not read. -/
structure TlsOutput (σ : Type) where
  state : σ
  /-- Allocated output buffer -/
  output : Chunk := []
  /-- Number of bytes written from the output buffer -/
  outpos : ℕ := 0
  built : Chunk := []
  processed : Chunk := []

/-- `tls_record_t` with its data -/
def tlsRecord (version : U16) (type : U8) (data : Chunk) : Chunk :=
  [type] ++ htoun16 version ++ htoun16 (BitVec.ofNat 16 data.length) ++ data

/-- The bytes of records -/
def flight (version : U16) (records : List (U8 × Chunk)) : Chunk :=
  (records.map fun (type, data) => tlsRecord version type data).flatten

namespace TlsOutput

variable {σ : Type} (stack : TlsStack σ)

/-- Bytes are written from the output buffer. -/
def write (this : TlsOutput σ) (buflen : ℕ) : Status × TlsOutput σ × Chunk :=
  let len := min buflen (this.output.length - this.outpos)
  let data := (this.output.drop this.outpos).take len
  let this := { this with outpos := this.outpos + len, built := this.built ++ data }
  if this.outpos = this.output.length then
    (.alreadyDone, { this with output := [], outpos := 0 }, data)
  else (.needMore, this, data)

/-- `build`, with the bytes that are written and the length of the flight -/
def build (this : TlsOutput σ) (buflen : ℕ) : Status × TlsOutput σ × Chunk × ℕ :=
  if this.output.length = 0 then
    -- query upper layers for new records, as many as we can get
    let (records, status, state) := stack.build this.state
    let this := { this with state := state, output := flight stack.version records }
    if status = .invalidState then
      if this.output.length = 0 then (.invalidState, this, [], 0)
      else
        let (status, written, data) := this.write buflen
        (status, written, data, this.output.length)
    else (status, this, [], 0)
  else
    let (status, this, data) := this.write buflen
    (status, this, data, 0)

def process (this : TlsOutput σ) (buf : Chunk) : Status × TlsOutput σ :=
  let (status, state) := stack.process this.state buf
  (status, { this with state := state, processed := this.processed ++ buf })

end TlsOutput

/-! ## Packets -/

/-- `TLS_MAX_MESSAGE_LEN` -/
def maxMessageLen : ℕ := 4 * (16384 + 2048)

/-- `eap_type_t`: the types with TLS -/
inductive EapTlsType
  | tls
  | ttls
  | peap
  | tnc
  | ptEap
  deriving DecidableEq, Repr

def EapTlsType.number : EapTlsType → U8
  | tls => 13
  | ttls => 21
  | peap => 25
  | tnc => 38
  | ptEap => 54

def EapTlsType.supportedVersion : EapTlsType → U8
  | tls | ttls | peap => 0
  | tnc | ptEap => 1

/-- `EAP_TLS_LENGTH` -/
def flagLength : U8 := 0x80
/-- `EAP_TLS_MORE_FRAGS` -/
def flagMoreFrags : U8 := 0x40
/-- `EAP_TLS_START` -/
def flagStart : U8 := 0x20
/-- `EAP_TTLS_VERSION` -/
def flagVersion : U8 := 0x07
/-- `EAP_PT_START` -/
def flagPtStart : U8 := 0x80

/-- `sizeof(eap_tls_packet_t)` -/
def eapTlsHeaderLen : ℕ := 6

/-- `eap_tls_packet_t` -/
def eapTlsHeader (code identifier : U8) (length : ℕ) (type flags : U8) : Chunk :=
  [code, identifier] ++ htoun16 (BitVec.ofNat 16 length) ++ [type, flags]

def packetFlags (packet : Chunk) : U8 := packet.getD 5 0

structure TlsEap (σ : Type) where
  type : EapTlsType
  /-- Current value of EAP identifier -/
  identifier : U8
  /-- TLS stack -/
  tls : TlsOutput σ
  isServer : Bool
  supportedVersion : U8
  /-- Include the length in packets that are not fragmented too -/
  includeLength : Bool
  /-- First fragment of a multi-fragment record? -/
  firstFragment : Bool
  /-- Maximum size of an outgoing EAP-TLS fragment -/
  fragSize : ℕ
  /-- Number of EAP messages/fragments processed so far -/
  processed : ℕ
  /-- Maximum number of processed EAP messages/fragments -/
  maxMsgCount : ℕ

namespace TlsEap

variable {σ : Type} (stack : TlsStack σ) (uninit : ℕ → U8)

def create (type : EapTlsType) (state : σ) (isServer : Bool) (identifier : U8) (fragSize maxMsgCount : ℕ)
    (includeLength : Bool) : TlsEap σ where
  type := type
  identifier := identifier
  tls := { state := state }
  isServer := isServer
  supportedVersion := type.supportedVersion
  includeLength := includeLength
  firstFragment := decide (type ≠ .tnc ∧ type ≠ .ptEap)
  fragSize := fragSize
  processed := 0
  maxMsgCount := maxMsgCount

/-- The server counts the packets. -/
def advance (this : TlsEap σ) : TlsEap σ :=
  if this.isServer then { this with identifier := this.identifier + 1 } else this

/-- The code of the packets of a side -/
def code (this : TlsEap σ) : U8 := if this.isServer then eapRequest else eapResponse

def initiate (this : TlsEap σ) : Status × Option Chunk :=
  if this.isServer then
    let flags := this.supportedVersion |||
      match this.type with
      | .ptEap => flagPtStart
      | _ => flagStart
    (.needMore,
      some (eapTlsHeader eapRequest this.identifier eapTlsHeaderLen this.type.number flags))
  else (.failed, none)

def processPkt (this : TlsEap σ) (packet : Chunk) : Status × TlsEap σ :=
  let flags := packetFlags packet
  -- EAP-TLS doesn't have a version field
  if this.type ≠ .tls ∧ flags &&& flagVersion ≠ this.supportedVersion then (.failed, this)
  else
    let pktLen := (untoh16 (packet.drop 2)).toNat
    let body := packet.drop eapTlsHeaderLen
    if this.type ≠ .ptEap ∧ flags &&& flagLength ≠ 0 then
      if pktLen < eapTlsHeaderLen + 4 then (.failed, this)
      else
        let msgLen := (untoh32 body).toNat
        if msgLen < pktLen - eapTlsHeaderLen - 4 ∨ msgLen > maxMessageLen then (.failed, this)
        else
          let (status, tls) :=
            this.tls.process stack ((body.drop 4).take (pktLen - eapTlsHeaderLen - 4))
          (status, { this with tls := tls })
    else
      let (status, tls) := this.tls.process stack (body.take (pktLen - eapTlsHeaderLen))
      (status, { this with tls := tls })

/-- The flags for what is built, if there is something -/
def buildFlags (this : TlsEap σ) : Status → Option (U8 × TlsEap σ)
  | .needMore =>
    if this.firstFragment then
      some (this.supportedVersion ||| flagMoreFrags ||| flagLength,
        { this with firstFragment := false })
    else some (this.supportedVersion ||| flagMoreFrags, this)
  | .alreadyDone =>
    if this.firstFragment then
      some (this.supportedVersion ||| (if this.includeLength then flagLength else 0), this)
    else if this.type ≠ .tnc ∧ this.type ≠ .ptEap then
      some (this.supportedVersion, { this with firstFragment := true })
    else some (this.supportedVersion, this)
  | _ => none

/-- Bytes are written to a buffer. -/
def writeAt (buf : Chunk) (pos : ℕ) (data : Chunk) : Chunk :=
  buf.take pos ++ data ++ buf.drop (pos + data.length)

/-- The part of `build_pkt` behind the header: the length of what is sent, and its bytes -/
def layout (buf : Chunk) (msgLenOffset : ℕ) (data : Chunk) (reclen : ℕ) (flags : U8) : ℕ × Chunk :=
  let buf := writeAt buf msgLenOffset data
  let len := data.length
  if reclen ≠ 0 then
    if flags &&& flagLength ≠ 0 then
      (len + 4, (writeAt buf 0 (htoun32 (BitVec.ofNat 32 reclen))).take (len + 4))
    else
      -- get rid of the reserved length field
      (len, (writeAt buf 0 ((buf.drop 4).take len)).take len)
  else (len, buf.take len)

/-- `build_pkt`. The buffer behind the header is not initialized. -/
def buildPkt (this : TlsEap σ) : Status × TlsEap σ × Option Chunk :=
  let this := this.advance
  let buf := (List.range (this.fragSize - eapTlsHeaderLen)).map uninit
  let msgLenOffset := if this.firstFragment then 4 else 0
  let (status, tls, data, reclen) := this.tls.build stack (buf.length - msgLenOffset)
  let this := { this with tls := tls }
  match this.buildFlags status with
  | none => (status, this, none)
  | some (flags, this) =>
    let (len, body) := layout buf msgLenOffset data reclen flags
    (.needMore, this,
      some (eapTlsHeader this.code this.identifier (len + eapTlsHeaderLen) this.type.number flags ++
        body))

def createAck (this : TlsEap σ) : TlsEap σ × Chunk :=
  let this := this.advance
  let flags : U8 := if this.type = .tnc then 1 else 0
  (this, eapTlsHeader this.code this.identifier eapTlsHeaderLen this.type.number flags)

/-- The end of `process`: a packet is built, or an acknowledgement. -/
def respond (this : TlsEap σ) : Status × TlsEap σ × Option Chunk :=
  match this.buildPkt stack uninit with
  | (.invalidState, this, _) =>
    let (this, ack) := this.createAck
    (.needMore, this, some ack)
  | (.failed, this, out) =>
    if !this.isServer then
      let (this, ack) := this.createAck
      (.needMore, this, some ack)
    else (.failed, this, out)
  | result => result

def process (this : TlsEap σ) (packet : Chunk) : Status × TlsEap σ × Option Chunk :=
  let this :=
    if this.maxMsgCount ≠ 0 then { this with processed := this.processed + 1 } else this
  if this.maxMsgCount ≠ 0 ∧ this.processed > this.maxMsgCount then (.failed, this, none)
  else if packet.length < eapTlsHeaderLen ∨ (untoh16 (packet.drop 2)).toNat ≠ packet.length then
    (.failed, this, none)
  else
    -- update EAP identifier
    let this := if !this.isServer then { this with identifier := packet.getD 1 0 } else this
    let flags := packetFlags packet
    if (this.type = .ptEap ∧ flags &&& flagPtStart ≠ 0) ∨ flags &&& flagStart ≠ 0 then
      this.respond stack uninit
    else if packet.length = eapTlsHeaderLen then
      match this.buildPkt stack uninit with
      | (.invalidState, this, out) =>
        if stack.isComplete this.tls.state then (.success, this, out)
        else (.invalidState, this, out)
      | result => result
    else
      match this.processPkt stack packet with
      | (.needMore, this) => this.respond stack uninit
      | (.success, this) =>
        (if stack.isComplete this.tls.state then .success else .failed, this, none)
      | (status, this) => (status, this, none)

end TlsEap

/-! ## Two sides -/

/-- Two sides, of which one has sent a packet to the other -/
structure Exchange (σ : Type) where
  receiver : TlsEap σ
  sender : TlsEap σ
  /-- The packet, unless the exchange has ended -/
  packet : Option Chunk

namespace Exchange

variable {σ : Type} (stack : TlsStack σ) (uninit : ℕ → U8)

def start (server peer : TlsEap σ) : Exchange σ :=
  { receiver := peer, sender := server, packet := server.initiate.2 }

/-- The packet is processed, and the other side gets what is sent back. -/
def step (this : Exchange σ) : Exchange σ :=
  match this.packet with
  | none => this
  | some packet =>
    match this.receiver.process stack uninit packet with
    | (.needMore, receiver, out) =>
      { receiver := this.sender, sender := receiver, packet := out }
    | (_, receiver, _) => { receiver := this.sender, sender := receiver, packet := none }

/-- Packets are exchanged in lock step. -/
def run (this : Exchange σ) : ℕ → Exchange σ
  | 0 => this
  | n + 1 => (this.run n).step stack uninit

end Exchange

end Tls

end StrongSwan
