import StrongSwan.Plugins.Vici.Message

/-!
# Building vici messages

`ViciBuilder` writes the elements it is given, and counts the calls it refuses. `finalize` returns the
message if there were none and all sections and lists are ended.

* `add`, `vaddKvOrLi`: the ways to add an element; the others are `add` with a type.
* `createFromEnumerator`: a message of what an enumerator yields.
* `add_element`: the elements that `add` takes, and what it does with them.
-/

namespace StrongSwan

namespace Vici

structure ViciBuilder where
  /-- writer for elements -/
  writer : Chunk
  /-- errors encountered -/
  error : U32
  /-- section nesting level -/
  section_ : U32
  /-- in list element? -/
  list : Bool

namespace ViciBuilder

def create : ViciBuilder := ⟨[], 0, 0, false⟩

/-- `add`; a type does not look at arguments it does not have. -/
def add (this : ViciBuilder) (type : ViciType) (name value : Chunk) : ViciBuilder :=
  let value := match type with
    | .keyValue | .listItem => value
    | _ => []
  match type with
  | .start | .unknown _ _ => { this with error := this.error + 1 }
  | _ =>
    if value.length > 0xffff then { this with error := this.error + 1 }
    else if !verifyType type this.section_ this.list then { this with error := this.error + 1 }
    else
      let writer := if type ≠ .end_ then BioWriter.writeUint8 this.writer type.toU8 else this.writer
      match type with
      | .sectionStart =>
        { this with writer := BioWriter.writeData8 writer name, section_ := this.section_ + 1 }
      | .sectionEnd => { this with writer := writer, section_ := this.section_ - 1 }
      | .keyValue =>
        { this with writer := BioWriter.writeData16 (BioWriter.writeData8 writer name) value }
      | .listStart => { this with writer := BioWriter.writeData8 writer name, list := true }
      | .listItem => { this with writer := BioWriter.writeData16 writer value }
      | .listEnd => { this with writer := writer, list := false }
      | _ => { this with writer := writer, error := this.error + 1 }

/-- The value `vadd_kv_or_li` makes of the text that was printed. The larger buffer has room for the
NUL at its end, and is the value as a whole. -/
def printedValue (text : Chunk) : Chunk := if text.length ≥ 512 then text ++ [0] else text

/-- `vadd_kv_or_li`: a list item or a key/value if a key is given, with what `vsnprintf` prints, if it
does. -/
def vaddKvOrLi (this : ViciBuilder) (key : Option Chunk) (text : Option Chunk) : ViciBuilder :=
  match text with
  | none => { this with error := this.error + 1 }
  | some text =>
    match key with
    | some key => this.add .keyValue key (printedValue text)
    | none => this.add .listItem [] (printedValue text)

/-- `add_kv` and `vadd_kv` -/
def addKv (this : ViciBuilder) (key : Chunk) (text : Option Chunk) : ViciBuilder :=
  this.vaddKvOrLi (some key) text

/-- `add_li` and `vadd_li` -/
def addLi (this : ViciBuilder) (text : Option Chunk) : ViciBuilder := this.vaddKvOrLi none text

def beginSection (this : ViciBuilder) (name : Chunk) : ViciBuilder := this.add .sectionStart name []

def endSection (this : ViciBuilder) : ViciBuilder := this.add .sectionEnd [] []

def beginList (this : ViciBuilder) (name : Chunk) : ViciBuilder := this.add .listStart name []

def endList (this : ViciBuilder) : ViciBuilder := this.add .listEnd [] []

/-- `finalize`: the encoding of the message -/
def finalize (this : ViciBuilder) : Option Chunk :=
  if this.error ≠ 0 ∨ this.section_ ≠ 0 ∨ this.list then none else some this.writer

end ViciBuilder

/-- The loop of `vici_message_create_from_enumerator` -/
def addEnumerated : ℕ → ParseEnumerator → Args → ViciBuilder → ViciBuilder
  | 0, _, _, builder => builder
  | fuel + 1, this, args, builder =>
    match parseEnumerate this args with
    | some (args, this) =>
      if args.type = .end_ then builder
      else addEnumerated fuel this args (builder.add args.type args.name args.value)
    | none => builder

/-- `vici_message_create_from_enumerator`, of the enumerator of a message. An element has at least one
byte. -/
def createFromEnumerator (encoding : Chunk) (args : Args) : Option Chunk :=
  (addEnumerated (encoding.length + 1) (createEnumerator encoding) args .create).finalize

/-! ## Levels -/

/-- Where in a message an element is. -/
structure Level where
  section_ : U32
  list : Bool
  deriving DecidableEq

namespace Level

/-- The level behind an element, if it may stand there. -/
def next (level : Level) (e : Element) : Option Level :=
  if verifyType e.type level.section_ level.list then
    match e with
    | .sectionStart _ => some { level with section_ := level.section_ + 1 }
    | .sectionEnd => some { level with section_ := level.section_ - 1 }
    | .listStart _ => some { level with list := true }
    | .listEnd => some { level with list := false }
    | .keyValue _ _ | .listItem _ => some level
  else none

end Level

/-- The bytes of an element. -/
def Element.encode : Element → Chunk
  | sectionStart name => ViciType.sectionStart.toU8 :: BioWriter.writeData8 [] name
  | sectionEnd => [ViciType.sectionEnd.toU8]
  | keyValue name value =>
    ViciType.keyValue.toU8 :: (BioWriter.writeData8 [] name ++ BioWriter.writeData16 [] value)
  | listStart name => ViciType.listStart.toU8 :: BioWriter.writeData8 [] name
  | listItem value => ViciType.listItem.toU8 :: BioWriter.writeData16 [] value
  | listEnd => [ViciType.listEnd.toU8]

namespace ViciBuilder

def level (this : ViciBuilder) : Level := ⟨this.section_, this.list⟩

/-- A builder behind an element, or behind one it refused. -/
def push (this : ViciBuilder) (e : Element) : Option Level → ViciBuilder
  | some level => ⟨this.writer ++ e.encode, this.error, level.section_, level.list⟩
  | none => { this with error := this.error + 1 }

/-- **What `add` does**: an element whose value is too long or that may not stand there is refused. -/
theorem add_element (this : ViciBuilder) (e : Element) : this.add e.type e.name e.value =
    this.push e (if e.value.length > 0xffff then none else this.level.next e) := by
  have hstart (name : Chunk) (w : Chunk) (b : U8) :
      BioWriter.writeData8 (BioWriter.writeUint8 w b) name = w ++ b :: BioWriter.writeData8 [] name := by
    rw [BioWriter.writeData8_eq, BioWriter.writeUint8, List.append_assoc, List.singleton_append]
  have hitem (value w l : Chunk) (b : U8) : BioWriter.writeData16 (w ++ b :: l) value =
      w ++ b :: (l ++ BioWriter.writeData16 [] value) := by
    rw [BioWriter.writeData16_eq, List.append_assoc, List.cons_append]
  cases e with
  | sectionStart name =>
    cases hverify : verifyType .sectionStart this.section_ this.list
    all_goals
      simp [add, push, Element.type, Element.value, Element.name, Level.next, level, hverify,
        Element.encode, hstart]
  | sectionEnd =>
    cases hverify : verifyType .sectionEnd this.section_ this.list
    all_goals
      simp [add, push, Element.type, Element.value, Level.next, level, hverify, Element.encode,
        BioWriter.writeUint8]
  | keyValue name value =>
    cases hverify : verifyType .keyValue this.section_ this.list
    all_goals
      by_cases hlen : value.length > 0xffff
      all_goals
        simp [add, push, Element.type, Element.value, Element.name, Level.next, level, hverify, hlen,
          Element.encode, hstart, hitem]
  | listStart name =>
    cases hverify : verifyType .listStart this.section_ this.list
    all_goals
      simp [add, push, Element.type, Element.value, Element.name, Level.next, level, hverify,
        Element.encode, hstart]
  | listItem value =>
    cases hverify : verifyType .listItem this.section_ this.list
    all_goals
      by_cases hlen : value.length > 0xffff
      all_goals
        simp [add, push, Element.type, Element.value, Level.next, level, hverify, hlen,
          Element.encode, hitem, BioWriter.writeUint8]
  | listEnd =>
    cases hverify : verifyType .listEnd this.section_ this.list
    all_goals
      simp [add, push, Element.type, Element.value, Level.next, level, hverify, Element.encode,
        BioWriter.writeUint8]

end ViciBuilder

end Vici

end StrongSwan
