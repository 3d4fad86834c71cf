import StrongSwan.Encoding.Parser.Nesting

/-!
# Parsing bytes that are known

`Ahead this bytes` says which bytes a parser has before it.

* `readsAll_num`, `readsAll_payloadLength`, …: a rule reads its bytes, and goes on behind them.
* **`parseList_ahead`**: a list of substructures that can be parsed.
-/

namespace StrongSwan

namespace Encodings

namespace Parser

variable {this next : Parser} {element : Element} {rules : List Rule} {pld : Payload}
  {locals : Locals} {field : Field} {xs ys : Chunk} {n : ℕ}

/-- The bytes at the position of a parser. -/
structure Ahead (this : Parser) (bytes : Chunk) : Prop where
  bitPos : this.bitPos = 0
  isPrefix : bytes <+: this.input.drop this.bytePos
  roof : this.bytePos + bytes.length ≤ this.inputRoof

/-- A parser that went on behind some bytes -/
structure Took (this next : Parser) (n : ℕ) : Prop where
  input : next.input = this.input
  inputRoof : next.inputRoof = this.inputRoof
  majorVersion : next.majorVersion = this.majorVersion
  bitPos : next.bitPos = 0
  bytePos : next.bytePos = this.bytePos + n

theorem Took.refl (h : this.bitPos = 0) : Took this this 0 := ⟨rfl, rfl, rfl, h, rfl⟩

theorem Took.trans {end_ : Parser} {m : ℕ} (h : Took this next n) (h' : Took next end_ m) :
    Took this end_ (n + m) where
  input := h'.input.trans h.input
  inputRoof := h'.inputRoof.trans h.inputRoof
  majorVersion := h'.majorVersion.trans h.majorVersion
  bitPos := h'.bitPos
  bytePos := by rw [h'.bytePos, h.bytePos, Nat.add_assoc]

theorem took_advance (h : this.bitPos = 0) (n : ℕ) : Took this (this.advance n) n :=
  ⟨rfl, rfl, rfl, h, rfl⟩

theorem Ahead.took (h : Ahead this (xs ++ ys)) (htook : Took this next xs.length) :
    Ahead next ys where
  bitPos := htook.bitPos
  isPrefix := by
    obtain ⟨rest, hrest⟩ := h.isPrefix
    rw [htook.input, htook.bytePos, ← List.drop_drop, ← hrest, List.append_assoc,
      List.drop_left]
    exact List.prefix_append ..
  roof := by
    have hroof := h.roof
    rw [htook.inputRoof, htook.bytePos]
    rw [List.length_append] at hroof
    omega

theorem Ahead.left (h : Ahead this (xs ++ ys)) : Ahead this xs where
  bitPos := h.bitPos
  isPrefix := (List.prefix_append xs ys).trans h.isPrefix
  roof := by
    have hroof := h.roof
    rw [List.length_append] at hroof
    omega

theorem Ahead.peek (h : Ahead this xs) : this.peek xs.length = xs := by
  obtain ⟨rest, hrest⟩ := h.isPrefix
  rw [Parser.peek, ← hrest, List.take_left]

/-! ## Fields -/

theorem Ahead.parseUint (h : Ahead this xs) :
    this.parseUint xs.length = (some (Bytes.value xs), this.advance xs.length) := by
  have hroof := h.roof
  rw [Parser.parseUint, if_neg (by omega), if_neg (by simp [h.bitPos]), h.peek]

theorem Ahead.parseChunk (h : Ahead this xs) :
    this.parseChunk xs.length = (some xs, this.advance xs.length) := by
  have hroof := h.roof
  rw [Parser.parseChunk, if_neg (by omega), if_neg (by simp [h.bitPos]), h.peek]

/-- Rules that can be run on some bytes, with what they read. -/
def ReadsAll (element : Element) (rules : List Rule) (part : Partial) (bytes : Chunk)
    (good : Payload → Prop) : Prop :=
  ∀ (this : Parser) (ys : Chunk), Ahead this (bytes ++ ys) → ∃ part' next,
    parseAll element rules this part = some (some part', next) ∧ Took this next bytes.length ∧
      good part'.1

section Rules

variable {bytes : Chunk} {good : Payload → Prop}

theorem readsAll_nil (h : good pld) : ReadsAll element [] (pld, locals) [] good :=
  fun this _ hahead => ⟨_, this, rfl, .refl hahead.bitPos, h⟩

theorem readsAll_append {rules' : List Rule} {part part' : Partial}
    (hrules : ∀ (this : Parser) (ys : Chunk), Ahead this (xs ++ ys) → ∃ next,
      parseAll element rules this part = some (some part', next) ∧ Took this next xs.length)
    (h : ReadsAll element rules' part' bytes good) :
    ReadsAll element (rules ++ rules') part (xs ++ bytes) good := by
  intro this ys hahead
  rw [List.append_assoc] at hahead
  obtain ⟨mid, hrun, htook⟩ := hrules this _ hahead
  obtain ⟨part'', next, hrun', htook', hgood⟩ := h mid ys (hahead.took htook)
  refine ⟨part'', next, ?_, ?_, hgood⟩
  · rw [parseAll_append, hrun]
    exact hrun'
  · rw [List.length_append]
    exact htook.trans htook'

/-- **A rule** takes its bytes, and the other ones follow. -/
theorem readsAll_cons {rule : Rule} {part part' : Partial}
    (hrule : ∀ (this : Parser) (ys : Chunk), Ahead this (xs ++ ys) →
      parseRule element this part.1 part.2 rule = some (some part', this.advance xs.length))
    (h : ReadsAll element rules part' bytes good) :
    ReadsAll element (rule :: rules) part (xs ++ bytes) good := by
  rw [← List.singleton_append]
  refine readsAll_append (fun this ys hahead => ?_) h
  refine ⟨_, ?_, took_advance hahead.bitPos _⟩
  rw [parseAll_singleton]
  exact hrule this ys hahead

/-- The bytes of the rules for integers that nothing else depends on. -/
def intSize : EncodingType → Option ℕ
  | .uInt8 | .reservedByte => some 1
  | .uInt16 => some 2
  | .uInt32 | .headerLength => some 4
  | _ => none

theorem readsAll_num {rule : Rule} (hsize : intSize rule.type = some n) (hlength : xs.length = n)
    (h : ReadsAll element rules (pld.setNum rule.field (Bytes.value xs), locals) bytes good) :
    ReadsAll element (rule :: rules) (pld, locals) (xs ++ bytes) good := by
  refine readsAll_cons (fun this ys hahead => ?_) h
  have hrule : parseRule element this pld locals rule =
      some (storeNum pld locals rule.field (this.parseUint n)) := by
    obtain ⟨type, field⟩ := rule
    cases type <;> cases hsize <;> rfl
  rw [hrule, ← hlength, hahead.left.parseUint]
  rfl

theorem readsAll_payloadLength (hsize : xs.length = 2) (hfour : 4 ≤ Bytes.value xs)
    (h : ReadsAll element rules (pld.setNum field (Bytes.value xs),
      { locals with payloadLength := Bytes.value xs }) bytes good) :
    ReadsAll element (⟨.payloadLength, field⟩ :: rules) (pld, locals) (xs ++ bytes) good := by
  refine readsAll_cons (fun this ys hahead => ?_) h
  have hparse := hahead.left.parseUint
  rw [hsize] at hparse ⊢
  simp only [parseRule, hparse, if_neg (Nat.not_lt.2 hfour)]

theorem readsAll_spiSize (hsize : xs.length = 1)
    (h : ReadsAll element rules (pld.setNum field (Bytes.value xs),
      { locals with spiSize := Bytes.value xs }) bytes good) :
    ReadsAll element (⟨.spiSize, field⟩ :: rules) (pld, locals) (xs ++ bytes) good := by
  refine readsAll_cons (fun this ys hahead => ?_) h
  have hparse := hahead.left.parseUint
  rw [hsize] at hparse ⊢
  simp only [parseRule, hparse, storeLocal]

theorem readsAll_spi (hsize : locals.spiSize = xs.length)
    (h : ReadsAll element rules (pld.setChunk field xs, locals) bytes good) :
    ReadsAll element (⟨.spi, field⟩ :: rules) (pld, locals) (xs ++ bytes) good := by
  refine readsAll_cons (fun this ys hahead => ?_) h
  simp only [parseRule, hsize, hahead.left.parseChunk, storeChunk]

theorem readsAll_lengthOrValue (hsize : xs.length = 2)
    (h : ReadsAll element rules (pld.setNum field (Bytes.value xs),
      { locals with attributeLength := Bytes.value xs }) bytes good) :
    ReadsAll element (⟨.attributeLengthOrValue, field⟩ :: rules) (pld, locals) (xs ++ bytes)
      good := by
  refine readsAll_cons (fun this ys hahead => ?_) h
  have hparse := hahead.left.parseUint
  rw [hsize] at hparse ⊢
  simp only [parseRule, hparse, storeLocal]

theorem readsAll_attributeValue
    (hsize : xs.length = if locals.attributeFormat then 0 else locals.attributeLength)
    (h : ReadsAll element rules
      (if locals.attributeFormat then pld else pld.setChunk field xs, locals) bytes good) :
    ReadsAll element (⟨.attributeValue, field⟩ :: rules) (pld, locals) (xs ++ bytes) good := by
  rw [← List.singleton_append]
  refine readsAll_append (fun this ys hahead => ?_) h
  rw [parseAll_singleton]
  cases hformat : locals.attributeFormat with
  | true =>
    rw [hformat, if_pos rfl] at hsize
    refine ⟨this, ?_, hsize ▸ .refl hahead.bitPos⟩
    simp only [parseRule, hformat, if_true]
  | false =>
    rw [hformat, if_neg Bool.false_ne_true] at hsize
    refine ⟨this.advance xs.length, ?_, took_advance hahead.bitPos _⟩
    simp [parseRule, hformat, ← hsize, hahead.left.parseChunk, storeChunk]

/-- **The first bit of an attribute** is its format, and its type has the other ones. -/
theorem readsAll_attributeType {field' : Field} (hsize : xs.length = 2)
    (h : ReadsAll element rules
      ((pld.setNum field (Bytes.value xs / 2 ^ 15)).setNum field' (Bytes.value xs % 2 ^ 15),
        { locals with attributeFormat := Bytes.value xs / 2 ^ 15 ≠ 0 }) bytes good) :
    ReadsAll element (⟨.attributeFormat, field⟩ :: ⟨.attributeType, field'⟩ :: rules)
      (pld, locals) (xs ++ bytes) good := by
  have happend : (⟨.attributeFormat, field⟩ :: ⟨.attributeType, field'⟩ :: rules : List Rule) =
      [⟨.attributeFormat, field⟩, ⟨.attributeType, field'⟩] ++ rules := rfl
  rw [happend]
  refine readsAll_append (fun this ys hahead => ?_) h
  obtain ⟨first, second, rfl⟩ : ∃ first second, xs = [first, second] := by
    match xs, hsize with
    | [first, second], _ => exact ⟨first, second, rfl⟩
  have hroof : this.bytePos + 2 ≤ this.inputRoof := hahead.left.roof
  have hpeek : this.peek 2 = [first, second] := hahead.left.peek
  have hbyte : this.byte = first := by
    obtain ⟨rest, hrest⟩ := hahead.left.isPrefix
    have hfirst : this.input[this.bytePos]? = some first := by
      rw [← List.head?_drop, ← hrest]
      rfl
    rw [Parser.byte, List.getD_eq_getElem?_getD, hfirst]
    rfl
  have hvalue : Bytes.value [first, second] = first.toNat * 256 + second.toNat := by
    simp [Bytes.value]
  have hfirst := first.isLt
  have hsecond := second.isLt
  refine ⟨{ (this.read 1).advance 2 with bitPos := 0 }, ?_, ⟨rfl, rfl, rfl, rfl, rfl⟩⟩
  have hbit : this.parseBit = (some (Bytes.value [first, second] / 2 ^ 15),
      { this.read 1 with bitPos := 1 }) := by
    rw [parseBit, if_neg (by omega), hbyte, hahead.bitPos, hvalue]
    simp only [Nat.zero_add, Prod.mk.injEq, Option.some.injEq]
    refine ⟨by omega, rfl⟩
  have htype : Parser.parseUint15 { this.read 1 with bitPos := 1 } =
      (some (Bytes.value [first, second] % 2 ^ 15),
        { (this.read 1).advance 2 with bitPos := 0 }) := by
    have hpeek' : Parser.peek { this.read 1 with bitPos := 1 } 2 = [first, second] := hpeek
    rw [parseUint15, if_neg (by simpa [Parser.read] using hroof), if_neg (by simp), hpeek']
    rfl
  simp only [parseAll, parseRule, hbit, storeLocal, andThen, htype, storeNum]

end Rules

/-! ## Lists -/

/-- What is parsed from some bytes of an element. -/
def Reads (element : Element) (type : PayloadType) (bytes : Chunk) (good : Payload → Prop) : Prop :=
  ∀ (this : Parser) (ys : Chunk), Ahead this (bytes ++ ys) →
    ∃ pld next, element this type = some (some pld, next) ∧ Took this next bytes.length ∧ good pld

section Lists

variable {α : Type} {bytes : α → Chunk} {good : α → Payload → Prop} {type : PayloadType}
  {goodList : Payload → Prop}

/-- **A list** is read element by element. -/
theorem parseList_ahead {items : List α}
    (hitems : ∀ x ∈ items, 0 < (bytes x).length ∧ Reads element type (bytes x) (good x))
    (h : Ahead this (items.flatMap bytes ++ ys)) (fuel : ℕ)
    (hfuel : (items.flatMap bytes).length ≤ fuel) (list : List Payload) :
    ∃ plds next, parseList element type fuel this list ((items.flatMap bytes).length : ℕ) =
        some (some (list ++ plds), next) ∧
      Took this next (items.flatMap bytes).length ∧ List.Forall₂ good items plds := by
  induction items generalizing this fuel list with
  | nil =>
    refine ⟨[], this, ?_, .refl h.bitPos, .nil⟩
    unfold parseList
    simp
  | cons x items ih =>
    obtain ⟨hpos, hreads⟩ := hitems x List.mem_cons_self
    rw [List.flatMap_cons, List.append_assoc] at h
    obtain ⟨pld, mid, hparse, htook, hgood⟩ := hreads this _ h
    rw [List.flatMap_cons, List.length_append] at hfuel ⊢
    obtain ⟨fuel, rfl⟩ := Nat.exists_eq_add_of_le' (Nat.lt_of_lt_of_le hpos
      (Nat.le_trans (Nat.le_add_right _ _) hfuel))
    obtain ⟨plds, next, hlist, htook', hgoods⟩ := ih
      (fun y hy => hitems y (List.mem_cons_of_mem _ hy))
      (h.took htook) fuel (by omega) (list ++ [pld])
    refine ⟨pld :: plds, next, ?_, htook.trans htook', .cons hgood hgoods⟩
    have hrest : (((bytes x).length + (items.flatMap bytes).length : ℕ) : ℤ) -
        (mid.bytePos - this.bytePos) = ((items.flatMap bytes).length : ℕ) := by
      rw [htook.bytePos]
      push_cast
      omega
    unfold parseList
    rw [if_neg (by omega)]
    simp only [hparse, hrest, hlist, List.append_assoc, List.singleton_append]

theorem readsAll_payloadList {items : List α}
    (hitems : ∀ x ∈ items, 0 < (bytes x).length ∧ Reads element type (bytes x) (good x))
    (hlength : locals.payloadLength = pld.getHeaderLength + (items.flatMap bytes).length)
    (h : ∀ plds, List.Forall₂ good items plds → goodList (pld.setList plds)) :
    ReadsAll element [⟨.payloadList type, field⟩] (pld, locals) (items.flatMap bytes)
      goodList := by
  intro this ys hahead
  obtain ⟨plds, next, hlist, htook, hgood⟩ :=
    parseList_ahead hitems hahead (items.flatMap bytes).length le_rfl []
  refine ⟨(pld.setList plds, locals), next, ?_, htook, h plds hgood⟩
  have hrest : locals.payloadLength - pld.getHeaderLength = (items.flatMap bytes).length := by omega
  rw [parseAll_singleton, parseRule]
  simp only [hrest, hlist, List.nil_append]
  rw [if_neg (by omega), if_neg (by simp [hahead.bitPos])]

end Lists

end Parser

end Encodings

end StrongSwan
