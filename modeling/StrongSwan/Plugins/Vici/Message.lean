import StrongSwan.Bio.BioWriter

/-!
# vici messages

A message is a string of elements: sections and lists that are begun and ended, keys with values, and
items of lists. `parseEnumerate` reads one element, and `enumerate` the elements of a message up to
its end.

`vici_type_t` is `ViciType`. What is read for an element is stored in the `Args` of the caller, of
which an element does not set all.
-/

namespace StrongSwan

namespace Vici

inductive ViciType
  | start
  | sectionStart
  | sectionEnd
  | keyValue
  | listStart
  | listItem
  | listEnd
  | end_
  | unknown (number : U32) (h : 7 < number.toNat)
  deriving DecidableEq

namespace ViciType

def toU8 : ViciType → U8
  | start => 0
  | sectionStart => 1
  | sectionEnd => 2
  | keyValue => 3
  | listStart => 4
  | listItem => 5
  | listEnd => 6
  | end_ => 7
  | unknown number _ => number.setWidth 8

/-- The type of a byte. -/
def ofU8 (byte : U8) : ViciType :=
  if h : 7 < (byte.setWidth 32).toNat then unknown (byte.setWidth 32) h
  else [start, sectionStart, sectionEnd, keyValue, listStart, listItem, listEnd, end_].getD
    byte.toNat end_

end ViciType

def verifyType (type : ViciType) (section_ : U32) (list : Bool) : Bool :=
  if list && type ≠ .listEnd && type ≠ .listItem then false
  else if !list && (type = .listItem || type = .listEnd) then false
  else if type = .sectionEnd && section_ = 0 then false
  else if type = .end_ && (section_ ≠ 0 || list) then false
  else true

/-- `isprint`, in the C locale -/
def isprint (c : U8) : Bool := 0x20 ≤ c.toNat && c.toNat ≤ 0x7e

def chunkPrintable (chunk : Chunk) : Bool := chunk.all isprint

/-! ## Parsing -/

structure ParseEnumerator where
  reader : Chunk
  /-- section nesting level -/
  section_ : U32
  /-- currently parsing list? -/
  list : Bool

/-- Where an enumerator stores an element. -/
structure Args where
  type : ViciType
  name : Chunk
  value : Chunk

/-- `read_data8` and `vici_stringify`: a name. -/
def readName (reader : Chunk) : Option (Chunk × Chunk) :=
  match BioReader.readData8 reader with
  | some (data, reader) => if chunkPrintable data then some (data, reader) else none
  | none => none

/-- `parse_enumerate`; nothing if it returns FALSE. -/
def parseEnumerate (this : ParseEnumerator) (args : Args) : Option (Args × ParseEnumerator) :=
  match BioReader.readUint8 this.reader with
  | none => some ({ args with type := .end_ }, this)
  | some (byte, reader) =>
    let type := ViciType.ofU8 byte
    if !verifyType type this.section_ this.list then none
    else
      match type with
      | .sectionStart =>
        match readName reader with
        | some (name, reader) =>
          some ({ args with type := type, name := name },
            { this with reader := reader, section_ := this.section_ + 1 })
        | none => none
      | .sectionEnd =>
        some ({ args with type := type },
          { this with reader := reader, section_ := this.section_ - 1 })
      | .keyValue =>
        match readName reader with
        | some (name, reader) =>
          match BioReader.readData16 reader with
          | some (value, reader) => some (⟨type, name, value⟩, { this with reader := reader })
          | none => none
        | none => none
      | .listStart =>
        match readName reader with
        | some (name, reader) =>
          some ({ args with type := type, name := name },
            { this with reader := reader, list := true })
        | none => none
      | .listItem =>
        match BioReader.readData16 reader with
        | some (value, reader) =>
          some ({ args with type := type, value := value }, { this with reader := reader })
        | none =>
          -- that the value could not be read is not noticed; its length is taken
          let reader := match BioReader.readUint16 reader with
            | some (_, reader) => reader
            | none => reader
          some ({ args with type := type }, { this with reader := reader })
      | .listEnd =>
        some ({ args with type := type }, { this with reader := reader, list := false })
      | .end_ =>
        -- the type is not stored
        some (args, { this with reader := reader })
      | _ => none

def createEnumerator (encoding : Chunk) : ParseEnumerator := ⟨encoding, 0, false⟩

/-- What an enumerator yields up to the end of the message, or until it fails. -/
def enumerate : ℕ → ParseEnumerator → Args → List Args
  | 0, _, _ => []
  | fuel + 1, this, args =>
    match parseEnumerate this args with
    | some (args, this) => args :: if args.type = .end_ then [] else enumerate fuel this args
    | none => []

/-! ## Elements -/

/-- What messages are made of. -/
inductive Element
  | sectionStart (name : Chunk)
  | sectionEnd
  | keyValue (name value : Chunk)
  | listStart (name : Chunk)
  | listItem (value : Chunk)
  | listEnd
  deriving DecidableEq

namespace Element

def type : Element → ViciType
  | sectionStart _ => .sectionStart
  | sectionEnd => .sectionEnd
  | keyValue _ _ => .keyValue
  | listStart _ => .listStart
  | listItem _ => .listItem
  | listEnd => .listEnd

def name : Element → Chunk
  | sectionStart name | keyValue name _ | listStart name => name
  | _ => []

def value : Element → Chunk
  | keyValue _ value | listItem value => value
  | _ => []

end Element

/-- The element of arguments; nothing at the end. -/
def Args.element (args : Args) : Option Element :=
  match args.type with
  | .sectionStart => some (.sectionStart args.name)
  | .sectionEnd => some .sectionEnd
  | .keyValue => some (.keyValue args.name args.value)
  | .listStart => some (.listStart args.name)
  | .listItem => some (.listItem args.value)
  | .listEnd => some .listEnd
  | _ => none

end Vici

end StrongSwan
