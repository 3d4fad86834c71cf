import StrongSwan.Encoding.Encodings

/-!
# Generator

`Generator` writes payloads by their encoding rules, one bit position behind the other.

* `generateUInt`, `generateFlag`, …: one field.
* `generateRule`, `generatePayload`, `generateList`.
-/

namespace StrongSwan

namespace Encodings

/-- `private_generator_t`; the buffer grows as needed. -/
structure Generator where
  /-- The bytes before the current write position. -/
  buffer : Chunk := []
  /-- The byte at the write position. It is set by the first field that writes to it. -/
  outByte : U8 := 0
  /-- Current bit writing to in current byte. -/
  currentBit : ℕ := 0
  /-- Attribute format of the last generated transform attribute. -/
  attributeFormat : Bool := false

namespace Generator

def writeBytesToBuffer (this : Generator) (bytes : Chunk) : Generator :=
  { this with buffer := this.buffer ++ bytes, outByte := 0 }

/-- `generate_u_int_type` of whole bytes; nothing is written if they are not aligned. -/
def generateUInt (this : Generator) (size n : ℕ) : Generator :=
  if this.currentBit ≠ 0 then this else this.writeBytesToBuffer (Bytes.ofNat size n)

/-- `generate_u_int_type` of 4 bits -/
def generateUInt4 (this : Generator) (n : ℕ) : Generator :=
  if this.currentBit = 0 then
    { this with outByte := BitVec.ofNat 8 n <<< 4 ||| this.outByte &&& 0x0f, currentBit := 4 }
  else if this.currentBit = 4 then
    { this.writeBytesToBuffer [this.outByte &&& 0xf0 ||| BitVec.ofNat 8 n &&& 0x0f] with
      currentBit := 0 }
  else this

/-- `generate_u_int_type` of an attribute type, which must not change the first bit -/
def generateAttributeType (this : Generator) (n : ℕ) : Generator :=
  if this.currentBit ≠ 1 then this
  else
    let val := BitVec.ofNat 16 n &&& 0x7fff
    let val := if this.outByte &&& 0x80 ≠ 0 then val ||| 0x8000 else val
    { this.writeBytesToBuffer (htoun16 val) with currentBit := 0 }

def generateFlag (this : Generator) (value : Bool) : Generator :=
  let flag : U8 := (if value then 1 else 0) <<< (7 - this.currentBit)
  let outByte := (if this.currentBit = 0 then 0 else this.outByte) ||| flag
  if this.currentBit + 1 ≥ 8 then
    { this.writeBytesToBuffer [outByte] with currentBit := (this.currentBit + 1) % 8 }
  else { this with outByte := outByte, currentBit := this.currentBit + 1 }

def generateFromChunk (this : Generator) (value : Chunk) : Generator :=
  if this.currentBit ≠ 0 then this else this.writeBytesToBuffer value

/-- One rule of `generate_payload`, with the integers, the chunks and the list of the structure -/
def generateRule (num : Field → ℕ) (chunk : Field → Chunk) (elements : Generator → Generator)
    (this : Generator) (rule : Rule) : Generator :=
  match rule.type with
  | .uInt4 => this.generateUInt4 (num rule.field)
  | .uInt8 | .reservedByte | .spiSize | .tsType => this.generateUInt 1 (num rule.field)
  | .uInt16 | .payloadLength | .attributeLength | .attributeLengthOrValue =>
    this.generateUInt 2 (num rule.field)
  | .uInt32 | .headerLength => this.generateUInt 4 (num rule.field)
  | .ikeSpi | .address | .spi | .chunkData | .encryptedData =>
    this.generateFromChunk (chunk rule.field)
  | .attributeType => this.generateAttributeType (num rule.field)
  | .reservedBit | .flag => this.generateFlag (num rule.field ≠ 0)
  -- the list is the last rule of a structure, as its fields are not read again behind it
  | .payloadList _ => elements this
  | .attributeFormat =>
    { this.generateFlag (num rule.field ≠ 0) with attributeFormat := num rule.field ≠ 0 }
  | .attributeValue =>
    if !this.attributeFormat then this.generateFromChunk (chunk rule.field) else this

mutual

def generatePayload : Payload → Generator → Generator
  | .mk cls type num chunk list, this =>
    (getEncodingRules cls type).foldl (generateRule num chunk (generateList list)) this

/-- The loop over the substructures of a list -/
def generateList : List Payload → Generator → Generator
  | [], this => this
  | payload :: list, this => generateList list (generatePayload payload this)

end

def getChunk (this : Generator) : Chunk := this.buffer

end Generator

end Encodings

end StrongSwan
