import StrongSwan.Basic

/-!
# TLS record input

`TlsInput` is the part of a TLS stack that cuts the bytes it receives into records. The record
protection layer is a parameter, with a log of what is passed to it.

* `process`: the bytes of one call.
* `TlsRecord`: records of a stream; `passes`: what the protection layer should get.
-/

namespace StrongSwan

namespace Tls

/-- `sizeof(tls_record_t)` -/
def recordHeaderLen : ℕ := 5

/-- The fields of `private_tls_t` for input -/
structure TlsInput where
  /-- Partial TLS record header received, up to the position in it -/
  head : Chunk := []
  /-- Length of the allocated input buffer -/
  inputLen : ℕ := 0
  /-- Bytes read in input buffer -/
  input : Chunk := []
  deriving DecidableEq, Repr

/-- The length in the header of a record -/
def recordLength (record : Chunk) : ℕ := (untoh16 (record.drop 3)).toNat

/-- The state of the protection layer, with the types and data of the records it got -/
abbrev Log (σ : Type) := σ × List (U8 × Chunk)

namespace TlsInput

variable {σ : Type} (protect : σ → U8 → Chunk → Status × σ)

/-- A record is passed to `tls_protection_t.process`. -/
def pass (log : Log σ) (type : U8) (data : Chunk) : Status × Log σ :=
  let result := protect log.1 type data
  (result.1, result.2, log.2 ++ [(type, data)])

/-- The loop that processes records inline. It returns a status, or the length of the buffer for a
record that is not full, if there is one, and the bytes left. -/
def processInline : ℕ → Log σ → Chunk → Option Status × ℕ × Log σ × Chunk
  | 0, log, buf => (none, 0, log, buf)
  | fuel + 1, log, buf =>
    if buf.length ≥ recordHeaderLen then
      let len := recordLength buf
      if len + recordHeaderLen > buf.length then
        -- not a full record, read to buffer
        (none, len + recordHeaderLen, log, buf)
      else
        let (status, log) := pass protect log (buf.headD 0) ((buf.drop recordHeaderLen).take len)
        if status ≠ .needMore then (some status, 0, log, [])
        else
          let buf := buf.drop (len + recordHeaderLen)
          if buf = [] then (some .needMore, 0, log, []) else processInline fuel log buf
    else (none, 0, log, buf)

/-- Bytes are read to the input buffer, and processed if the record is full. -/
def processBody (next : TlsInput → Log σ → Chunk → Status × TlsInput × Log σ) (this : TlsInput)
    (log : Log σ) (buf : Chunk) : Status × TlsInput × Log σ :=
  let len := min buf.length (this.inputLen - this.input.length)
  let this := { this with input := this.input ++ buf.take len }
  let buf := buf.drop len
  if this.inputLen = this.input.length then
    let len := recordLength this.input
    let (status, log) :=
      pass protect log (this.input.headD 0) ((this.input.drop recordHeaderLen).take len)
    let this := { this with inputLen := 0, input := [] }
    if status ≠ .needMore then (status, this, log) else next this log buf
  else next this log buf

/-- The loop of `process` -/
def processLoop : ℕ → TlsInput → Log σ → Chunk → Status × TlsInput × Log σ
  | 0, this, log, _ => (.needMore, this, log)
  | fuel + 1, this, log, buf =>
    if buf = [] then (.needMore, this, log)
    else if this.inputLen = 0 then
      match processInline protect buf.length log buf with
      | (some status, _, log, _) => (status, this, log)
      | (none, inputLen, log, buf) =>
        if buf.length < recordHeaderLen then (.needMore, { this with head := buf }, log)
        else processBody protect (processLoop fuel)
          { this with inputLen := inputLen, input := [] } log buf
    else processBody protect (processLoop fuel) this log buf

/-- Have a partial TLS record header, try to complete it. -/
def completeHeader (this : TlsInput) (buf : Chunk) : TlsInput × Chunk :=
  if this.head.length ≠ 0 then
    let len := min buf.length (recordHeaderLen - this.head.length)
    let head := this.head ++ buf.take len
    if head.length = recordHeaderLen then
      ({ head := [], inputLen := recordLength head + recordHeaderLen, input := head }, buf.drop len)
    else ({ this with head := head }, buf.drop len)
  else (this, buf)

/-- `process`. Each turn of the loop takes some bytes, or a record that is full already. -/
def process (this : TlsInput) (log : Log σ) (buf : Chunk) : Status × TlsInput × Log σ :=
  let (this, buf) := this.completeHeader buf
  processLoop protect (buf.length + 2) this log buf

/-- Calls of `process`, up to the first result other than `NEED_MORE` -/
def processAll : TlsInput → Log σ → List Chunk → Status × TlsInput × Log σ
  | this, log, [] => (.needMore, this, log)
  | this, log, buf :: bufs =>
    match process protect this log buf with
    | (.needMore, this, log) => processAll this log bufs
    | result => result

end TlsInput

/-! ## Records -/

/-- A record of a stream -/
structure TlsRecord where
  type : U8
  version : U16
  data : Chunk
  /-- The length fits its field. -/
  length_data : data.length ≤ 65535

namespace TlsRecord

def bytes (this : TlsRecord) : Chunk :=
  this.type :: (htoun16 this.version ++ htoun16 (BitVec.ofNat 16 this.data.length) ++ this.data)

def stream (records : List TlsRecord) : Chunk := records.flatMap bytes

variable {σ : Type} (protect : σ → U8 → Chunk → Status × σ)

/-- Records are passed one after the other, up to the first result other than `NEED_MORE`. -/
def passes : Log σ → List TlsRecord → Status × Log σ
  | log, [] => (.needMore, log)
  | log, record :: records =>
    match TlsInput.pass protect log record.type record.data with
    | (.needMore, log) => passes log records
    | result => result

end TlsRecord

end Tls

end StrongSwan
