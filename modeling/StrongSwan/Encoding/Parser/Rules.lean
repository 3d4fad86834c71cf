import StrongSwan.Encoding.Parser

/-!
# How far rules go

What the parser takes for each rule, and for the rules of a payload.

* `Goes`, `Spec`: what holds of a parser that went on, and of all results of a run.
* `parseRule_plain`, …, **`parseRule_payloadList`**: how far each rule goes.
* `Elements`, **`parseList_spec`**: the elements of a list are behind each other.
* `parseAll`: rules one after the other, without the pointer to them.
* `HeaderRead`, **`parseAll_whole`**: a header, and the data or the list that fills the rest.
* **`parseAll_selector`**, **`parseAll_attribute`**: the structures with no header.
-/

namespace StrongSwan

namespace Encodings

namespace Parser

variable {α β : Type} {this next : Parser} {element : Element} {pld : Payload} {locals : Locals}

/-! ## Going on -/

/-- The position in bits. -/
def pos (this : Parser) : ℕ := 8 * this.bytePos + this.bitPos

/-- A parser went on in its input, and read nothing behind the roof. -/
structure Goes (this next : Parser) : Prop where
  input : next.input = this.input
  inputRoof : next.inputRoof = this.inputRoof
  majorVersion : next.majorVersion = this.majorVersion
  bitPos : next.bitPos < 8
  readEnd : next.readEnd ≤ max this.readEnd this.inputRoof

theorem Goes.refl (h : this.bitPos < 8) : Goes this this := ⟨rfl, rfl, rfl, h, le_max_left _ _⟩

theorem Goes.trans {end_ : Parser} (h : Goes this next) (h' : Goes next end_) : Goes this end_ where
  input := h'.input.trans h.input
  inputRoof := h'.inputRoof.trans h.inputRoof
  majorVersion := h'.majorVersion.trans h.majorVersion
  bitPos := h'.bitPos
  readEnd := by
    refine h'.readEnd.trans (max_le h.readEnd ?_)
    rw [h.inputRoof]
    exact le_max_right _ _

/-- A run ends in a parser that went on, and what it returns has a property. -/
def Spec (this : Parser) (run : Option (Option α × Parser)) (post : α → Parser → Prop) : Prop :=
  ∃ result next, run = some (result, next) ∧ Goes this next ∧ ∀ x, result = some x → post x next

variable {post : α → Parser → Prop}

theorem Spec.fails (h : Goes this next) :
    Spec this (some (none, next)) post :=
  ⟨none, next, rfl, h, nofun⟩

theorem Spec.returns (h : Goes this next) {x : α} (hpost : post x next) :
    Spec this (some (some x, next)) post := by
  refine ⟨some x, next, rfl, h, fun y hy => ?_⟩
  obtain rfl := Option.some.inj hy
  exact hpost

theorem Spec.mono {run : Option (Option α × Parser)} {post post' : α → Parser → Prop}
    (h : Spec this run post) (himp : ∀ x next, Goes this next → post x next → post' x next) :
    Spec this run post' := by
  obtain ⟨result, next, hrun, hgoes, hpost⟩ := h
  exact ⟨result, next, hrun, hgoes, fun x hx => himp x next hgoes (hpost x hx)⟩

/-- One run after another, unless the first one fails. -/
def andThen (run : Option (Option α × Parser)) (rest : α → Parser → Option (Option β × Parser)) :
    Option (Option β × Parser) :=
  match run with
  | none => none
  | some (none, this) => some (none, this)
  | some (some x, this) => rest x this

theorem Spec.andThen {run : Option (Option α × Parser)} {rest : α → Parser → Option (Option β × Parser)}
    {post' : β → Parser → Prop} (h : Spec this run post)
    (hrest : ∀ x next, Goes this next → post x next → Spec next (rest x next) post') :
    Spec this (Parser.andThen run rest) post' := by
  obtain ⟨result, next, rfl, hgoes, hpost⟩ := h
  cases result with
  | none => exact .fails hgoes
  | some x =>
    obtain ⟨result, end_, hrun, hgoes', hpost'⟩ := hrest x next hgoes (hpost x rfl)
    exact ⟨result, end_, hrun, hgoes.trans hgoes', hpost'⟩

/-! ## Fields -/

/-- How far the parsing of a field goes; the rules stay where they are. -/
structure Moves (this : Parser) (bits : ℕ) (run : Option α × Parser) : Prop where
  goes : Goes this run.2
  rules : run.2.rules = this.rules
  pos : run.1.isSome → run.2.pos = this.pos + bits

theorem goes_advance {n bitPos : ℕ} (hroof : this.bytePos + n ≤ this.inputRoof)
    (hbit : bitPos < 8) : Goes this { this.advance n with bitPos := bitPos } :=
  ⟨rfl, rfl, rfl, hbit, max_le_max le_rfl hroof⟩

theorem moves_parseUint4 (h : this.bitPos < 8) : Moves this 4 this.parseUint4 := by
  unfold parseUint4
  split_ifs with hroof hzero hfour
  · exact ⟨.refl h, rfl, nofun⟩
  · refine ⟨⟨rfl, rfl, rfl, show 4 < 8 by decide, max_le_max le_rfl (not_lt.mp hroof)⟩, rfl, fun _ => ?_⟩
    simp [pos, read, hzero]
  · refine ⟨goes_advance (not_lt.mp hroof) (by decide), rfl, fun _ => ?_⟩
    simp only [pos, advance, hfour]
    omega
  · exact ⟨.refl h, rfl, nofun⟩

theorem moves_parseUint (h : this.bitPos < 8) (size : ℕ) :
    Moves this (8 * size) (this.parseUint size) := by
  unfold parseUint
  split_ifs with hroof hbit
  · exact ⟨.refl h, rfl, nofun⟩
  · exact ⟨.refl h, rfl, nofun⟩
  · refine ⟨goes_advance (not_lt.mp hroof) h, rfl, fun _ => ?_⟩
    simp only [pos, advance, read]
    omega

theorem moves_parseUint15 (h : this.bitPos < 8) : Moves this 15 this.parseUint15 := by
  unfold parseUint15
  split_ifs with hroof hbit
  · exact ⟨.refl h, rfl, nofun⟩
  · exact ⟨.refl h, rfl, nofun⟩
  · refine ⟨goes_advance (not_lt.mp hroof) (by decide), rfl, fun _ => ?_⟩
    simp only [pos, advance]
    omega

theorem moves_parseChunk (h : this.bitPos < 8) (length : ℕ) :
    Moves this (8 * length) (this.parseChunk length) := by
  unfold parseChunk
  split_ifs with hroof hbit
  · exact ⟨.refl h, rfl, nofun⟩
  · exact ⟨.refl h, rfl, nofun⟩
  · refine ⟨goes_advance (not_lt.mp hroof) h, rfl, fun _ => ?_⟩
    simp only [pos, advance, read]
    omega

theorem moves_parseBit (h : this.bitPos < 8) : Moves this 1 this.parseBit := by
  unfold parseBit
  split_ifs with hroof
  · exact ⟨.refl h, rfl, nofun⟩
  · refine ⟨⟨rfl, rfl, rfl, Nat.mod_lt _ (by decide), max_le_max le_rfl (not_lt.mp hroof)⟩, rfl,
      fun _ => ?_⟩
    simp only [pos]
    split_ifs <;> omega

/-! ## Rules -/

/-- The bits of a field that has always the same length, and that no other rule needs. -/
def plainBits : EncodingType → Option ℕ
  | .uInt4 => some 4
  | .uInt8 | .reservedByte => some 8
  | .uInt16 => some 16
  | .uInt32 | .headerLength => some 32
  | .reservedBit | .flag => some 1
  | .attributeType => some 15
  | .ikeSpi => some 64
  | _ => none

/-- A payload with other values in some fields. -/
structure Updated (fields : List Field) (pld pld' : Payload) : Prop where
  cls : pld'.cls = pld.cls
  type : pld'.type = pld.type
  num : ∀ field ∉ fields, pld'.num field = pld.num field

theorem Updated.refl (fields : List Field) (pld : Payload) : Updated fields pld pld :=
  ⟨rfl, rfl, fun _ _ => rfl⟩

theorem Updated.trans {fields fields' : List Field} {pld' pld'' : Payload}
    (h : Updated fields pld pld') (h' : Updated fields' pld' pld'') :
    Updated (fields ++ fields') pld pld'' where
  cls := h'.cls.trans h.cls
  type := h'.type.trans h.type
  num field hfield := by
    rw [List.mem_append, not_or] at hfield
    exact (h'.num field hfield.2).trans (h.num field hfield.1)

theorem updated_setNum (pld : Payload) (field : Field) (n : ℕ) :
    Updated [field] pld (pld.setNum field n) where
  cls := pld.cls_setNum field n
  type := pld.type_setNum field n
  num other hother := by
    rw [Payload.num_setNum]
    exact Function.update_of_ne (fun h => hother (List.mem_singleton.mpr h)) _ _

theorem updated_setChunk (fields : List Field) (pld : Payload) (field : Field) (data : Chunk) :
    Updated fields pld (pld.setChunk field data) where
  cls := pld.cls_setChunk field data
  type := pld.type_setChunk field data
  num other _ := by rw [Payload.num_setChunk]

theorem Updated.getHeaderLength {fields : List Field} {pld' : Payload} (h : Updated fields pld pld')
    (hspi : Field.spiSize ∉ fields) : pld'.getHeaderLength = pld.getHeaderLength := by
  unfold Payload.getHeaderLength
  rw [h.cls, h.type, h.num _ hspi]

/-- What a rule does that needs no other one: it goes on by its bits. -/
def Plainly (this : Parser) (pld : Payload) (locals : Locals) (fields : List Field) (bits : ℕ)
    (part : Partial) (next : Parser) : Prop :=
  next.pos = this.pos + bits ∧ next.rules = this.rules ∧ part.2 = locals ∧ Updated fields pld part.1

variable {bits : ℕ}

theorem spec_storeNum {run : Option ℕ × Parser} (h : Moves this bits run) (field : Field) :
    Spec this (some (storeNum pld locals field run)) (Plainly this pld locals [field] bits) := by
  obtain ⟨result, next⟩ := run
  cases result with
  | none => exact .fails h.goes
  | some n => exact .returns h.goes ⟨h.pos rfl, h.rules, rfl, updated_setNum pld field n⟩

theorem spec_storeChunk {run : Option Chunk × Parser} (h : Moves this bits run)
    (field : Field) :
    Spec this (some (storeChunk pld locals field run)) (Plainly this pld locals [] bits) := by
  obtain ⟨result, next⟩ := run
  cases result with
  | none => exact .fails h.goes
  | some data => exact .returns h.goes ⟨h.pos rfl, h.rules, rfl, updated_setChunk [] pld field data⟩

/-- What a rule does that keeps an integer in a local variable. -/
def Keeps (this : Parser) (pld : Payload) (keep : ℕ → Locals) (field : Field) (bits : ℕ)
    (run : Option ℕ × Parser) (part : Partial) (next : Parser) : Prop :=
  next.pos = this.pos + bits ∧ next.rules = this.rules ∧ part.2 = keep (part.1.num field) ∧
    run.1 = some (part.1.num field) ∧ Updated [field] pld part.1

theorem spec_storeLocal {run : Option ℕ × Parser} (h : Moves this bits run)
    (keep : ℕ → Locals) (field : Field) :
    Spec this (some (storeLocal pld keep field run)) (Keeps this pld keep field bits run) := by
  obtain ⟨result, next⟩ := run
  cases result with
  | none => exact .fails h.goes
  | some n =>
    have hnum : (pld.setNum field n).num field = n := by
      rw [Payload.num_setNum, Function.update_self]
    exact .returns h.goes ⟨h.pos rfl, h.rules, congrArg keep hnum.symm, congrArg some hnum.symm,
      updated_setNum pld field n⟩

/-- **A rule that needs no other one.** -/
theorem parseRule_plain (h : this.bitPos < 8) {rule : Rule}
    (hbits : plainBits rule.type = some bits) :
    Spec this (parseRule element this pld locals rule) (Plainly this pld locals [rule.field] bits) := by
  obtain ⟨type, field⟩ := rule
  have hchunk : ∀ {bits run}, Moves this bits run → Spec this (some (storeChunk pld locals field run))
      (Plainly this pld locals [field] bits) := fun hmoves =>
    (spec_storeChunk hmoves field).mono fun _ _ _ hpost => ⟨hpost.1, hpost.2.1, hpost.2.2.1,
      hpost.2.2.2.cls, hpost.2.2.2.type, fun other _ => hpost.2.2.2.num other List.not_mem_nil⟩
  cases type <;> cases hbits
  · exact spec_storeNum (moves_parseUint4 h) field
  · exact spec_storeNum (moves_parseUint h 1) field
  · exact spec_storeNum (moves_parseUint h 2) field
  · exact spec_storeNum (moves_parseUint h 4) field
  · exact spec_storeNum (moves_parseBit h) field
  · exact spec_storeNum (moves_parseUint h 1) field
  · exact spec_storeNum (moves_parseBit h) field
  · exact spec_storeNum (moves_parseUint h 4) field
  · exact spec_storeNum (moves_parseUint15 h) field
  · exact hchunk (moves_parseChunk h 8)

/-- **The length of a payload** is at least that of a generic header. -/
theorem parseRule_payloadLength (h : this.bitPos < 8) (field : Field) :
    Spec this (parseRule element this pld locals ⟨.payloadLength, field⟩) fun part next =>
      Keeps this pld (fun n => { locals with payloadLength := n }) field 16 (this.parseUint 2) part
        next ∧ 4 ≤ part.1.num field := by
  have hmoves := moves_parseUint h 2
  unfold parseRule
  dsimp only
  revert hmoves
  generalize this.parseUint 2 = run
  intro hmoves
  obtain ⟨result, next⟩ := run
  cases result with
  | none => exact .fails hmoves.goes
  | some n =>
    dsimp only
    by_cases hlt : n < 4
    · rw [if_pos hlt]
      exact .fails hmoves.goes
    · rw [if_neg hlt]
      have hnum : (pld.setNum field n).num field = n := by
        rw [Payload.num_setNum, Function.update_self]
      refine .returns hmoves.goes ⟨⟨hmoves.pos rfl, hmoves.rules, ?_, congrArg some hnum.symm,
        updated_setNum pld field n⟩, ?_⟩
      · exact congrArg (fun n => { locals with payloadLength := n }) hnum.symm
      · exact (not_lt.mp hlt).trans hnum.ge

/-- **Data** takes what the header leaves of a payload. -/
theorem parseRule_chunkData (h : this.bitPos < 8) (field : Field) :
    Spec this (parseRule element this pld locals ⟨.chunkData, field⟩) fun part next =>
      pld.getHeaderLength ≤ locals.payloadLength ∧
        Plainly this pld locals [] (8 * (locals.payloadLength - pld.getHeaderLength)) part next := by
  unfold parseRule
  dsimp only
  by_cases hlt : locals.payloadLength < pld.getHeaderLength
  · rw [if_pos hlt]
    exact .fails (.refl h)
  · rw [if_neg hlt]
    exact (spec_storeChunk (moves_parseChunk h _) field).mono fun _ _ _ hpost => ⟨not_lt.mp hlt, hpost⟩

/-! ## Lists -/

/-- Elements that are parsed one behind the other. -/
inductive Elements (element : Element) (type : PayloadType) : Parser → List Payload → Parser → Prop
  | nil (start : Parser) : Elements element type start [] start
  | cons {start mid end_ : Parser} {payload : Payload} {list : List Payload} (goes : Goes start mid)
      (lt : start.bytePos < mid.bytePos) (parsed : element start type = some (some payload, mid)) :
      Elements element type mid list end_ → Elements element type start (payload :: list) end_

/-- An element can be parsed: this ends, and it takes some bytes. -/
def Parses (element : Element) (type : PayloadType) : Prop :=
  ∀ this : Parser, this.bitPos < 8 → Spec this (element this type) fun _ next =>
    this.bytePos < next.bytePos ∧ next.bitPos = this.bitPos

/-- **A list** ends, and its elements fill its length. -/
theorem parseList_spec {type : PayloadType} (helement : Parses element type) (fuel : ℕ) (this : Parser)
    (hbit : this.bitPos < 8) (list : List Payload) (length : ℤ) (hfuel : length ≤ fuel) :
    Spec this (parseList element type fuel this list length) fun list' next =>
      (next.bytePos : ℤ) = this.bytePos + length ∧ next.bitPos = this.bitPos ∧
        ∃ rest, list' = list ++ rest ∧ Elements element type this rest next := by
  induction fuel generalizing this list length with
  | zero =>
    have hle : length ≤ 0 := hfuel
    unfold parseList
    rw [if_pos hle]
    by_cases hzero : length = 0
    · rw [if_pos hzero]
      refine .returns (.refl hbit) ⟨by rw [hzero, add_zero], rfl, [], (List.append_nil _).symm, .nil _⟩
    · rw [if_neg hzero]
      exact .fails (.refl hbit)
  | succ fuel ih =>
    unfold parseList
    by_cases hle : length ≤ 0
    · rw [if_pos hle]
      by_cases hzero : length = 0
      · rw [if_pos hzero]
        refine .returns (.refl hbit)
          ⟨by rw [hzero, add_zero], rfl, [], (List.append_nil _).symm, .nil _⟩
      · rw [if_neg hzero]
        exact .fails (.refl hbit)
    · rw [if_neg hle]
      obtain ⟨result, next, hrun, hgoes, hpost⟩ := helement this hbit
      dsimp only
      rw [hrun]
      cases result with
      | none => exact .fails hgoes
      | some payload =>
        obtain ⟨hlt, hbit'⟩ := hpost payload rfl
        have hfuel' : length - (next.bytePos - this.bytePos) ≤ fuel := by
          push_cast at hfuel
          omega
        obtain ⟨result, end_, hrun', hgoes', hpost'⟩ :=
          ih next hgoes.bitPos (list ++ [payload]) _ hfuel'
        refine ⟨result, end_, hrun', hgoes.trans hgoes', fun list' hlist' => ?_⟩
        obtain ⟨hbyte, hbit'', rest, hrest, helements⟩ := hpost' list' hlist'
        refine ⟨by omega, hbit''.trans hbit', payload :: rest, ?_, .cons hgoes hlt hrun helements⟩
        rw [hrest, List.append_assoc, List.singleton_append]

/-- **The list of a payload** fills what its header leaves. -/
theorem parseRule_payloadList (h : this.bitPos < 8) {type : PayloadType} (field : Field)
    (helement : Parses element type) :
    Spec this (parseRule element this pld locals ⟨.payloadList type, field⟩) fun part next =>
      pld.getHeaderLength ≤ locals.payloadLength ∧
        next.pos = this.pos + 8 * (locals.payloadLength - pld.getHeaderLength) ∧
        Updated [] pld part.1 ∧ Elements element type this part.1.list next := by
  unfold parseRule
  dsimp only
  by_cases hlt : locals.payloadLength < pld.getHeaderLength
  · rw [if_pos hlt]
    exact .fails (.refl h)
  · rw [if_neg hlt]
    by_cases hbit : this.bitPos ≠ 0
    · rw [if_pos hbit]
      exact .fails (.refl h)
    · rw [if_neg hbit]
      obtain ⟨result, next, hrun, hgoes, hpost⟩ := parseList_spec helement
        (locals.payloadLength - pld.getHeaderLength) this h []
        ((locals.payloadLength - pld.getHeaderLength : ℕ) : ℤ) le_rfl
      rw [hrun]
      cases result with
      | none => exact .fails hgoes
      | some list =>
        obtain ⟨hbyte, hbit', rest, hrest, helements⟩ := hpost list rfl
        refine .returns hgoes ⟨not_lt.mp hlt, ?_, ⟨?_, ?_, fun field _ => ?_⟩, ?_⟩
        · unfold pos
          omega
        · exact pld.cls_setList list
        · exact pld.type_setList list
        · show (pld.setList list).num field = _
          rw [Payload.num_setList]
        · show Elements element type this (pld.setList list).list next
          rw [Payload.list_setList, hrest]
          exact helements

/-! ## Tables of rules -/

/-- Rules one after the other. -/
def parseAll (element : Element) : List Rule → Parser → Partial → Option (Option Partial × Parser)
  | [], this, part => some (some part, this)
  | rule :: rest, this, part =>
    andThen (parseRule element this part.1 part.2 rule) fun part this => parseAll element rest this part

theorem parseAll_singleton (rule : Rule) (part : Partial) :
    parseAll element [rule] this part = parseRule element this part.1 part.2 rule := by
  unfold parseAll andThen
  split
  · rename_i h
    exact h.symm
  · rename_i h
    exact h.symm
  · rename_i h
    exact h.symm

theorem parseAll_append (rules rules' : List Rule) (this : Parser) (part : Partial) :
    parseAll element (rules ++ rules') this part =
      andThen (parseAll element rules this part) fun part this => parseAll element rules' this part := by
  induction rules generalizing this part with
  | nil => rfl
  | cons rule rules ih =>
    rw [List.cons_append, parseAll, parseAll]
    cases parseRule element this part.1 part.2 rule with
    | none => rfl
    | some run =>
      obtain ⟨result, next⟩ := run
      cases result with
      | none => rfl
      | some part => exact ih next part

/-- The bits of rules that need no other ones. -/
def plainTotal : List Rule → Option ℕ
  | [] => some 0
  | rule :: rest =>
    match plainBits rule.type, plainTotal rest with
    | some bits, some bits' => some (bits + bits')
    | _, _ => none

theorem parseAll_plain {rules : List Rule} (hbits : plainTotal rules = some bits)
    (h : this.bitPos < 8) (part : Partial) : Spec this (parseAll element rules this part)
      (Plainly this part.1 part.2 (rules.map Rule.field) bits) := by
  induction rules generalizing this part bits with
  | nil =>
    obtain rfl := Option.some.inj hbits
    exact .returns (.refl h) ⟨rfl, rfl, rfl, .refl _ _⟩
  | cons rule rules ih =>
    unfold plainTotal at hbits
    split at hbits
    · rename_i first rest hfirst hrest
      obtain rfl := Option.some.inj hbits
      refine (parseRule_plain h hfirst).andThen fun part' mid hgoes hpost => ?_
      obtain ⟨hpos, hrules, hlocals, hupdated⟩ := hpost
      refine (ih hrest hgoes.bitPos part').mono fun part'' next _ hpost => ?_
      obtain ⟨hpos', hrules', hlocals', hupdated'⟩ := hpost
      refine ⟨by omega, hrules'.trans hrules, hlocals'.trans hlocals, ?_⟩
      rw [List.map_cons, ← List.singleton_append]
      exact hupdated.trans hupdated'
    · cases hbits

structure HeaderRead (start : Parser) (pld : Payload) (part : Partial) (next : Parser) : Prop where
  cls : part.1.cls = pld.cls
  type : part.1.type = pld.type
  pos : next.pos = start.pos + 8 * part.1.getHeaderLength
  local_ : part.2.payloadLength = part.1.num .payloadLength
  four_le : 4 ≤ part.1.num .payloadLength

/-- **A header without SPI.** -/
theorem parseAll_header {pre mid : List Rule} (hpre : plainTotal pre = some 16)
    (hmid : plainTotal mid = some bits) (hfield : Field.payloadLength ∉ mid.map Rule.field)
    (h : this.bitPos < 8) (part : Partial)
    (hfixed : 8 * part.1.getHeaderLength = 32 + bits)
    (hcls : part.1.cls ≠ .notify ∧ part.1.cls ≠ .proposalSubstructure) :
    Spec this (parseAll element (pre ++ ⟨.payloadLength, .payloadLength⟩ :: mid) this part)
      (HeaderRead this part.1) := by
  rw [parseAll_append]
  refine (parseAll_plain hpre h part).andThen fun part₁ next₁ hgoes₁ ⟨hpos₁, _, _, hupdated₁⟩ => ?_
  refine (parseRule_payloadLength hgoes₁.bitPos .payloadLength).andThen
    fun part₂ next₂ hgoes₂ ⟨⟨hpos₂, _, hlocals₂, _, hupdated₂⟩, hfour⟩ => ?_
  refine (parseAll_plain hmid hgoes₂.bitPos part₂).mono
    fun part₃ next₃ hgoes₃ ⟨hpos₃, _, hlocals₃, hupdated₃⟩ => ?_
  have hcls₃ : part₃.1.cls = part.1.cls := by rw [hupdated₃.cls, hupdated₂.cls, hupdated₁.cls]
  have htype₃ : part₃.1.type = part.1.type := by rw [hupdated₃.type, hupdated₂.type, hupdated₁.type]
  have hlength : part₃.1.num .payloadLength = part₂.1.num .payloadLength := hupdated₃.num _ hfield
  have hheader : part₃.1.getHeaderLength = part.1.getHeaderLength := by
    unfold Payload.getHeaderLength
    rw [hcls₃, htype₃]
    simp [hcls.1, hcls.2]
  refine ⟨hcls₃, htype₃, ?_, ?_, ?_⟩
  · rw [hheader, hpos₃, hpos₂, hpos₁]
    omega
  · rw [hlocals₃, hlocals₂, hlength]
  · rw [hlength]
    exact hfour

/-- **A header with an SPI**, whose size it has. -/
theorem parseAll_headerSpi {pre mid mid' : List Rule} {bits bits' : ℕ}
    (hpre : plainTotal pre = some 16) (hmid : plainTotal mid = some bits)
    (hmid' : plainTotal mid' = some bits') (hfield : Field.payloadLength ∉ mid.map Rule.field)
    (hfield' : Field.payloadLength ∉ mid'.map Rule.field ∧ Field.spiSize ∉ mid'.map Rule.field)
    (h : this.bitPos < 8) (part : Partial)
    (hfixed : 8 * fixedHeaderLength part.1.cls part.1.type = 40 + bits + bits')
    (hcls : part.1.cls = .notify ∨ part.1.cls = .proposalSubstructure) :
    Spec this (parseAll element (pre ++ ⟨.payloadLength, .payloadLength⟩ :: (mid ++
      ⟨.spiSize, .spiSize⟩ :: (mid' ++ [⟨.spi, .spi⟩]))) this part) (HeaderRead this part.1) := by
  rw [parseAll_append]
  refine (parseAll_plain hpre h part).andThen fun part₁ next₁ hgoes₁ ⟨hpos₁, _, _, hupdated₁⟩ => ?_
  refine (parseRule_payloadLength hgoes₁.bitPos .payloadLength).andThen
    fun part₂ next₂ hgoes₂ ⟨⟨hpos₂, _, hlocals₂, _, hupdated₂⟩, hfour⟩ => ?_
  rw [parseAll_append]
  refine (parseAll_plain hmid hgoes₂.bitPos part₂).andThen
    fun part₃ next₃ hgoes₃ ⟨hpos₃, _, hlocals₃, hupdated₃⟩ => ?_
  refine (spec_storeLocal (moves_parseUint hgoes₃.bitPos 1)
    (fun n => { part₃.2 with spiSize := n }) .spiSize).andThen
    fun part₄ next₄ hgoes₄ ⟨hpos₄, _, hlocals₄, _, hupdated₄⟩ => ?_
  rw [parseAll_append]
  refine (parseAll_plain hmid' hgoes₄.bitPos part₄).andThen
    fun part₅ next₅ hgoes₅ ⟨hpos₅, _, hlocals₅, hupdated₅⟩ => ?_
  rw [parseAll_singleton]
  refine (spec_storeChunk (moves_parseChunk hgoes₅.bitPos part₅.2.spiSize) .spi).mono
    fun part₆ next₆ hgoes₆ ⟨hpos₆, _, hlocals₆, hupdated₆⟩ => ?_
  have hcls₆ : part₆.1.cls = part.1.cls := by
    rw [hupdated₆.cls, hupdated₅.cls, hupdated₄.cls, hupdated₃.cls, hupdated₂.cls, hupdated₁.cls]
  have htype₆ : part₆.1.type = part.1.type := by
    rw [hupdated₆.type, hupdated₅.type, hupdated₄.type, hupdated₃.type, hupdated₂.type,
      hupdated₁.type]
  have hlength : part₆.1.num .payloadLength = part₂.1.num .payloadLength := by
    rw [hupdated₆.num _ List.not_mem_nil, hupdated₅.num _ hfield'.1,
      hupdated₄.num _ (by decide), hupdated₃.num _ hfield]
  have hsize : part₆.1.num .spiSize = part₅.2.spiSize := by
    rw [hupdated₆.num _ List.not_mem_nil, hupdated₅.num _ hfield'.2, hlocals₅, hlocals₄]
  have hheader : part₆.1.getHeaderLength =
      fixedHeaderLength part.1.cls part.1.type + part₅.2.spiSize := by
    unfold Payload.getHeaderLength
    rw [hcls₆, htype₆, hsize]
    exact if_pos (by simpa using hcls)
  refine ⟨hcls₆, htype₆, ?_, ?_, ?_⟩
  · rw [hheader, hpos₆, hpos₅, hpos₄, hpos₃, hpos₂, hpos₁]
    omega
  · rw [hlocals₆, hlocals₅, hlocals₄]
    show part₃.2.payloadLength = _
    rw [hlocals₃, hlocals₂, hlength]
  · rw [hlength]
    exact hfour

/-- The list of a table, which is always its last rule. -/
def elementType? (rule : Rule) : Option PayloadType :=
  match rule.type with
  | .payloadList type => some type
  | _ => none

/-- A payload was read whose length says where it ends: its list begins behind the header. -/
structure Whole (element : Element) (last : Rule) (start : Parser) (pld : Payload) (part : Partial)
    (next : Parser) : Prop where
  cls : part.1.cls = pld.cls
  type : part.1.type = pld.type
  pos : next.pos = start.pos + 8 * part.1.num .payloadLength
  four_le : 4 ≤ part.1.num .payloadLength
  elements : ∀ type, elementType? last = some type → ∃ first, Goes start first ∧
    first.pos = start.pos + 8 * part.1.getHeaderLength ∧
    Elements element type first part.1.list next

/-- **What a header leaves** is filled by the data or the list behind it. -/
theorem parseAll_whole {head : List Rule} {last : Rule} {part : Partial}
    (hhead : Spec this (parseAll element head this part) (HeaderRead this part.1))
    (hlast : last.type = .chunkData ∨ ∃ type, last.type = .payloadList type ∧ Parses element type) :
    Spec this (parseAll element (head ++ [last]) this part) (Whole element last this part.1) := by
  rw [parseAll_append]
  refine hhead.andThen fun part₁ next₁ hgoes₁ hread => ?_
  rw [parseAll_singleton]
  obtain ⟨lastType, field⟩ := last
  obtain rfl | ⟨type, rfl, helement⟩ := hlast
  · refine (parseRule_chunkData hgoes₁.bitPos field).mono
      fun part₂ next₂ hgoes₂ ⟨hle, hpos₂, _, hlocals₂, hupdated₂⟩ => ?_
    have hlength : part₂.1.num .payloadLength = part₁.1.num .payloadLength :=
      hupdated₂.num _ List.not_mem_nil
    refine ⟨hupdated₂.cls.trans hread.cls, hupdated₂.type.trans hread.type, ?_, ?_, nofun⟩
    · rw [hread.local_] at hle hpos₂
      rw [hlength, hpos₂, hread.pos]
      omega
    · rw [hlength]
      exact hread.four_le
  · refine (parseRule_payloadList hgoes₁.bitPos field helement).mono
      fun part₂ next₂ hgoes₂ ⟨hle, hpos₂, hupdated₂, helements⟩ => ?_
    have hlength : part₂.1.num .payloadLength = part₁.1.num .payloadLength :=
      hupdated₂.num _ List.not_mem_nil
    refine ⟨hupdated₂.cls.trans hread.cls, hupdated₂.type.trans hread.type, ?_, ?_, fun t ht => ?_⟩
    · rw [hread.local_] at hle hpos₂
      rw [hlength, hpos₂, hread.pos]
      omega
    · rw [hlength]
      exact hread.four_le
    · obtain rfl := Option.some.inj ht
      refine ⟨next₁, hgoes₁, ?_, helements⟩
      rw [hread.pos, hupdated₂.getHeaderLength List.not_mem_nil]

/-- An integer in the input, at an offset from the current position. -/
def wire (this : Parser) (offset size : ℕ) : ℕ :=
  Bytes.value ((this.input.drop (this.bytePos + offset)).take size)

theorem eq_wire {size n offset : ℕ} (hgoes : Goes this next) (hbit : this.bitPos < 8)
    (hpos : next.pos = this.pos + 8 * offset) (h : (next.parseUint size).1 = some n) :
    n = this.wire offset size := by
  have hbyte : next.bytePos = this.bytePos + offset := by
    have := hgoes.bitPos
    unfold pos at hpos
    omega
  unfold parseUint at h
  split_ifs at h
  obtain rfl := Option.some.inj h
  rw [peek, hgoes.input, hbyte]
  rfl

/-- **The substructure of a traffic selector** takes its header and two addresses. -/
theorem parseAll_selector (type : PayloadType) (h : this.bitPos < 8) (part : Partial) :
    Spec this (parseAll element (getEncodingRules .trafficSelectorSubstructure type) this part)
      fun part' next => (part'.1.cls = part.1.cls ∧ part'.1.type = part.1.type) ∧
        next.pos = this.pos + 8 * (8 + 2 * addressLength (part'.1.num .tsType)) ∧
        part'.1.num .tsType = this.wire 0 1 ∧ part'.1.num .payloadLength = this.wire 2 2 := by
  refine (spec_storeLocal (moves_parseUint h 1) (fun n => { part.2 with tsType := n }) .tsType).andThen
    fun part₁ next₁ hgoes₁ ⟨hpos₁, _, hlocals₁, hvalue₁, hupdated₁⟩ => ?_
  refine (parseRule_plain hgoes₁.bitPos rfl).andThen
    fun part₂ next₂ hgoes₂ ⟨hpos₂, _, hlocals₂, hupdated₂⟩ => ?_
  refine (parseRule_payloadLength hgoes₂.bitPos .payloadLength).andThen
    fun part₃ next₃ hgoes₃ ⟨⟨hpos₃, _, hlocals₃, hvalue₃, hupdated₃⟩, _⟩ => ?_
  change Spec next₃ (parseAll element ([⟨.uInt16, .startPort⟩, ⟨.uInt16, .endPort⟩] ++
    [⟨.address, .startingAddress⟩, ⟨.address, .endingAddress⟩]) next₃ part₃) _
  rw [parseAll_append]
  refine (parseAll_plain rfl hgoes₃.bitPos part₃).andThen
    fun part₄ next₄ hgoes₄ ⟨hpos₄, _, hlocals₄, hupdated₄⟩ => ?_
  refine (spec_storeChunk (moves_parseChunk hgoes₄.bitPos (addressLength part₄.2.tsType))
    .startingAddress).andThen fun part₅ next₅ hgoes₅ ⟨hpos₅, _, hlocals₅, hupdated₅⟩ => ?_
  rw [parseAll_singleton]
  refine (spec_storeChunk (moves_parseChunk hgoes₅.bitPos (addressLength part₅.2.tsType))
    .endingAddress).mono fun part₆ next₆ hgoes₆ ⟨hpos₆, _, _, hupdated₆⟩ => ?_
  have htsType : part₆.1.num .tsType = part₁.1.num .tsType := by
    rw [hupdated₆.num _ List.not_mem_nil, hupdated₅.num _ List.not_mem_nil,
      hupdated₄.num _ (by decide), hupdated₃.num _ (by decide), hupdated₂.num _ (by decide)]
  have hlength : part₆.1.num .payloadLength = part₃.1.num .payloadLength := by
    rw [hupdated₆.num _ List.not_mem_nil, hupdated₅.num _ List.not_mem_nil,
      hupdated₄.num _ (by decide)]
  have hlocal : part₄.2.tsType = part₁.1.num .tsType := by
    rw [hlocals₄, hlocals₃]
    show part₂.2.tsType = _
    rw [hlocals₂, hlocals₁]
  refine ⟨⟨?_, ?_⟩, ?_, ?_, ?_⟩
  · rw [hupdated₆.cls, hupdated₅.cls, hupdated₄.cls, hupdated₃.cls, hupdated₂.cls, hupdated₁.cls]
  · rw [hupdated₆.type, hupdated₅.type, hupdated₄.type, hupdated₃.type, hupdated₂.type,
      hupdated₁.type]
  · rw [hpos₆, hpos₅, hpos₄, hpos₃, hpos₂, hpos₁, hlocals₅, hlocal, htsType]
    omega
  · rw [htsType]
    exact eq_wire (.refl h) h rfl hvalue₁
  · rw [hlength]
    refine eq_wire (hgoes₁.trans hgoes₂) h ?_ hvalue₃
    rw [hpos₂, hpos₁]

/-- **An attribute** takes four bytes, and its value unless that is in place of the length. -/
theorem parseAll_attribute {format length : Rule}
    (hformat : format.type = .attributeFormat ∨ format.type = .reservedBit)
    (hlength : length.type = .attributeLengthOrValue ∨ length.type = .attributeLength)
    (hfields : format.field ≠ length.field) {type valueField : Field}
    (htypes : type ≠ format.field ∧ type ≠ length.field) (h : this.bitPos < 8) (pld : Payload) :
    Spec this (parseAll element [format, ⟨.attributeType, type⟩, length, ⟨.attributeValue, valueField⟩] this
      (pld, ⟨0, 0, 0, 0, false⟩)) fun part next =>
        (part.1.cls = pld.cls ∧ part.1.type = pld.type) ∧ next.pos = this.pos + 8 *
          if format.type = .attributeFormat ∧ part.1.num format.field ≠ 0 then 4
          else 4 + part.1.num length.field := by
  have hfirst : Spec this (parseRule element this pld ⟨0, 0, 0, 0, false⟩ format) fun part next =>
      next.pos = this.pos + 1 ∧ Updated [format.field] pld part.1 ∧
        (part.2.attributeFormat = true ↔
          format.type = .attributeFormat ∧ part.1.num format.field ≠ 0) := by
    obtain ⟨formatType, formatField⟩ := format
    obtain rfl | rfl := hformat
    · refine (spec_storeLocal (moves_parseBit h) (fun n => ⟨0, 0, 0, 0, n ≠ 0⟩) formatField).mono
        fun part₁ next₁ _ ⟨hpos₁, _, hlocals₁, _, hupdated₁⟩ => ⟨hpos₁, hupdated₁, ?_⟩
      rw [hlocals₁]
      simp
    · refine (parseRule_plain h rfl).mono
        fun part₁ next₁ _ ⟨hpos₁, _, hlocals₁, hupdated₁⟩ => ⟨hpos₁, hupdated₁, ?_⟩
      rw [hlocals₁]
      simp
  have hthird : ∀ (this : Parser) (part : Partial), this.bitPos < 8 →
      Spec this (parseRule element this part.1 part.2 length) (Keeps this part.1
        (fun n => { part.2 with attributeLength := n }) length.field 16 (this.parseUint 2)) := by
    intro this part h
    obtain ⟨lengthType, lengthField⟩ := length
    obtain rfl | rfl := hlength
    · exact spec_storeLocal (moves_parseUint h 2) _ _
    · exact spec_storeLocal (moves_parseUint h 2) _ _
  refine hfirst.andThen fun part₁ next₁ hgoes₁ ⟨hpos₁, hupdated₁, hformat₁⟩ => ?_
  refine (parseRule_plain hgoes₁.bitPos rfl).andThen
    fun part₂ next₂ hgoes₂ ⟨hpos₂, _, hlocals₂, hupdated₂⟩ => ?_
  refine (hthird next₂ part₂ hgoes₂.bitPos).andThen
    fun part₃ next₃ hgoes₃ ⟨hpos₃, _, hlocals₃, _, hupdated₃⟩ => ?_
  have hnum : part₃.1.num format.field = part₁.1.num format.field := by
    rw [hupdated₃.num _ (fun hmem => hfields (List.mem_singleton.mp hmem)),
      hupdated₂.num _ (fun hmem => htypes.1 (List.mem_singleton.mp hmem).symm)]
  have hcls : part₃.1.cls = pld.cls := by rw [hupdated₃.cls, hupdated₂.cls, hupdated₁.cls]
  have htype : part₃.1.type = pld.type := by rw [hupdated₃.type, hupdated₂.type, hupdated₁.type]
  have hlocal : part₃.2.attributeFormat = part₁.2.attributeFormat := by
    rw [hlocals₃]
    show part₂.2.attributeFormat = _
    rw [hlocals₂]
  rw [parseAll_singleton]
  show Spec next₃ (if part₃.2.attributeFormat = true then some (some (part₃.1, part₃.2), next₃)
    else some (storeChunk part₃.1 part₃.2 valueField (next₃.parseChunk part₃.2.attributeLength))) _
  by_cases hvalue : part₃.2.attributeFormat = true
  · rw [if_pos hvalue]
    refine .returns (.refl hgoes₃.bitPos) ⟨⟨hcls, htype⟩, ?_⟩
    rw [hlocal, hformat₁, ← hnum] at hvalue
    rw [if_pos hvalue, hpos₃, hpos₂, hpos₁]
  · rw [if_neg hvalue]
    refine (spec_storeChunk (moves_parseChunk hgoes₃.bitPos _) valueField).mono
      fun part₄ next₄ _ ⟨hpos₄, _, _, hupdated₄⟩ => ⟨⟨?_, ?_⟩, ?_⟩
    · rw [hupdated₄.cls, hcls]
    · rw [hupdated₄.type, htype]
    · rw [hlocal, hformat₁, ← hnum] at hvalue
      have hattributeLength : part₃.2.attributeLength = part₃.1.num length.field := by rw [hlocals₃]
      rw [hupdated₄.num _ List.not_mem_nil, hupdated₄.num _ List.not_mem_nil, if_neg hvalue, hpos₄,
        hpos₃, hpos₂, hpos₁, hattributeLength]
      omega

end Parser

end Encodings

end StrongSwan
