import StrongSwan.Encoding.Encodings

/-!
# Parser

`Parser` parses payloads by their encoding rules. There is one position and one end of the input for all
payloads, and one pointer to rules, which the parsing of substructures changes.

* `parseUint4`, …, `parseChunk`: one field.
* `parseList`: a list of substructures.
* `parseRule`, `parseRules`, `parsePayload`.

A result of `none` stands for `FALSE`, or for a status other than `SUCCESS`.
-/

namespace StrongSwan

namespace Encodings

/-- `private_parser_t`. The memory may go on behind the roof of the input. -/
structure Parser where
  /-- major IKE version -/
  majorVersion : ℕ
  /-- Current bit for reading in input data. -/
  bitPos : ℕ
  /-- Current byte for reading in input data. -/
  bytePos : ℕ
  input : Chunk
  /-- Roof of input, used for length-checking. -/
  inputRoof : ℕ
  /-- Set of encoding rules for this parsing session. -/
  rules : List Rule
  /-- All bytes that were read are before this position. -/
  readEnd : ℕ

namespace Parser

def create (data : Chunk) : Parser := ⟨0, 0, 0, data, data.length, [], 0⟩

/-- Bytes at the current position; they are read. -/
def peek (this : Parser) (n : ℕ) : Chunk := (this.input.drop this.bytePos).take n

def read (this : Parser) (n : ℕ) : Parser :=
  { this with readEnd := max this.readEnd (this.bytePos + n) }

/-- Go on behind `n` bytes. -/
def advance (this : Parser) (n : ℕ) : Parser := { this.read n with bytePos := this.bytePos + n }

def byte (this : Parser) : U8 := this.input.getD this.bytePos 0

def parseUint4 (this : Parser) : Option ℕ × Parser :=
  if this.bytePos + 1 > this.inputRoof then (none, this)
  else if this.bitPos = 0 then (some (this.byte.toNat / 16), { this.read 1 with bitPos := 4 })
  else if this.bitPos = 4 then (some (this.byte.toNat % 16), { this.advance 1 with bitPos := 0 })
  else (none, this)

/-- `parse_uint8`, `parse_uint16` and `parse_uint32`: an integer of some bytes -/
def parseUint (this : Parser) (size : ℕ) : Option ℕ × Parser :=
  if this.bytePos + size > this.inputRoof then (none, this)
  else if this.bitPos ≠ 0 then (none, this)
  else (some (Bytes.value (this.peek size)), this.advance size)

def parseUint15 (this : Parser) : Option ℕ × Parser :=
  if this.bytePos + 2 > this.inputRoof then (none, this)
  else if this.bitPos ≠ 1 then (none, this)
  else (some (Bytes.value (this.peek 2) % 2 ^ 15), { this.advance 2 with bitPos := 0 })

/-- `parse_chunk`, and `parse_bytes` -/
def parseChunk (this : Parser) (length : ℕ) : Option Chunk × Parser :=
  if this.bytePos + length > this.inputRoof then (none, this)
  else if this.bitPos ≠ 0 then (none, this)
  else (some (this.peek length), this.advance length)

def parseBit (this : Parser) : Option ℕ × Parser :=
  if this.bytePos + 1 > this.inputRoof then (none, this)
  else
    let bit := this.byte.toNat / 2 ^ (7 - this.bitPos) % 2
    let bitPos := (this.bitPos + 1) % 8
    let bytePos := if bitPos = 0 then this.bytePos + 1 else this.bytePos
    (some bit, { this.read 1 with bitPos := bitPos, bytePos := bytePos })

/-- How a substructure is parsed; `none` if that does not end. -/
abbrev Element := Parser → PayloadType → Option (Option Payload × Parser)

/-- `parse_list`. Its loop ends if each substructure takes at least one byte. -/
def parseList (element : Element) (type : PayloadType) :
    ℕ → Parser → List Payload → ℤ → Option (Option (List Payload) × Parser)
  | fuel, this, list, length =>
    if length ≤ 0 then
      -- must yield exactly to zero
      some (if length = 0 then some list else none, this)
    else
      match fuel with
      | 0 => none
      | fuel + 1 =>
        match element this type with
        | none => none
        | some (none, next) => some (none, next)
        | some (some payload, next) =>
          parseList element type fuel next (list ++ [payload])
            (length - (next.bytePos - this.bytePos))

/-- The local variables of `parse_payload`. -/
structure Locals where
  payloadLength : ℕ
  spiSize : ℕ
  attributeLength : ℕ
  tsType : ℕ
  attributeFormat : Bool

/-- `TS_IPV4_ADDR_RANGE` -/
def tsIpv4AddrRange : ℕ := 7

def addressLength (tsType : ℕ) : ℕ := if tsType = tsIpv4AddrRange then 4 else 16

/-- The payload so far, with the local variables. -/
abbrev Partial := Payload × Locals

/-- Store an integer. -/
def storeNum (pld : Payload) (locals : Locals) (field : Field) :
    Option ℕ × Parser → Option Partial × Parser
  | (some n, this) => (some (pld.setNum field n, locals), this)
  | (none, this) => (none, this)

def storeChunk (pld : Payload) (locals : Locals) (field : Field) :
    Option Chunk × Parser → Option Partial × Parser
  | (some data, this) => (some (pld.setChunk field data, locals), this)
  | (none, this) => (none, this)

/-- Store an integer, and keep it in a local variable. -/
def storeLocal (pld : Payload) (keep : ℕ → Locals) (field : Field) :
    Option ℕ × Parser → Option Partial × Parser
  | (some n, this) => (some (pld.setNum field n, keep n), this)
  | (none, this) => (none, this)

/-- One rule of `parse_payload`. -/
def parseRule (element : Element) (this : Parser) (pld : Payload) (locals : Locals) (rule : Rule) :
    Option (Option Partial × Parser) :=
  -- update header length for each rule, as it is dynamic (SPIs)
  let headerLength := pld.getHeaderLength
  match rule.type with
  | .uInt4 => some (storeNum pld locals rule.field this.parseUint4)
  | .uInt8 | .reservedByte => some (storeNum pld locals rule.field (this.parseUint 1))
  | .uInt16 => some (storeNum pld locals rule.field (this.parseUint 2))
  | .uInt32 | .headerLength => some (storeNum pld locals rule.field (this.parseUint 4))
  | .ikeSpi => some (storeChunk pld locals rule.field (this.parseChunk 8))
  | .reservedBit | .flag => some (storeNum pld locals rule.field this.parseBit)
  | .payloadLength =>
    match this.parseUint 2 with
    | (some n, end_) =>
      -- all payloads must have at least 4 bytes header
      if n < 4 then some (none, end_)
      else some (some (pld.setNum rule.field n, { locals with payloadLength := n }), end_)
    | (none, end_) => some (none, end_)
  | .spiSize => some (storeLocal pld (fun n => { locals with spiSize := n }) rule.field
      (this.parseUint 1))
  | .spi => some (storeChunk pld locals rule.field (this.parseChunk locals.spiSize))
  | .payloadList type =>
    if locals.payloadLength < headerLength then some (none, this)
    else if this.bitPos ≠ 0 then some (none, this)
    else
      match parseList element type (locals.payloadLength - headerLength) this []
          ((locals.payloadLength - headerLength : ℕ) : ℤ) with
      | none => none
      | some (some list, end_) => some (some (pld.setList list, locals), end_)
      | some (none, end_) => some (none, end_)
  | .chunkData =>
    if locals.payloadLength < headerLength then some (none, this)
    else some (storeChunk pld locals rule.field (this.parseChunk (locals.payloadLength - headerLength)))
  | .encryptedData =>
    some (storeChunk pld locals rule.field (this.parseChunk (this.inputRoof - this.bytePos)))
  | .attributeFormat => some (storeLocal pld (fun n => { locals with attributeFormat := n ≠ 0 })
      rule.field this.parseBit)
  | .attributeType => some (storeNum pld locals rule.field this.parseUint15)
  | .attributeLength | .attributeLengthOrValue =>
    some (storeLocal pld (fun n => { locals with attributeLength := n }) rule.field
      (this.parseUint 2))
  | .attributeValue =>
    if locals.attributeFormat then some (some (pld, locals), this)
    else some (storeChunk pld locals rule.field (this.parseChunk locals.attributeLength))
  | .tsType => some (storeLocal pld (fun n => { locals with tsType := n }) rule.field
      (this.parseUint 1))
  | .address =>
    some (storeChunk pld locals rule.field (this.parseChunk (addressLength locals.tsType)))

/-- The rules from an index on; the pointer to the rules is read again for each of them. -/
def parseRules (element : Element) : ℕ → ℕ → Parser → Payload → Locals →
    Option (Option Payload × Parser)
  | 0, _, this, pld, _ => some (some pld, this)
  | count + 1, index, this, pld, locals =>
    match this.rules[index]? with
    | none => some (none, this)
    | some rule =>
      match parseRule element this pld locals rule with
      | none => none
      | some (none, this) => some (none, this)
      | some (some (pld, locals), this) => parseRules element count (index + 1) this pld locals

/-- `parse_payload`, for substructures down to a depth -/
def parsePayload : ℕ → Parser → PayloadType → Option (Option Payload × Parser)
  | 0, _, _ => none
  | depth + 1, this, type =>
    let pld := payloadCreate type this.majorVersion
    let rules := getEncodingRules pld.cls pld.type
    parseRules (parsePayload depth) rules.length 0 { this with rules := rules } pld ⟨0, 0, 0, 0, false⟩

end Parser

end Encodings

end StrongSwan
