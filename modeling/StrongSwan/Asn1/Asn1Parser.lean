import StrongSwan.Asn1.Asn1

/-!
# The table-driven ASN.1 parser

A table of syntax definition lines (`Asn1Object`) steers the parser: each `iterate` goes to the next
line, takes an element from the blob of its level and leaves the content of the element to the level
below. `Asn1Parser.run` is the loop around `iterate` that every user of the parser has.

* `iterate_element`, `iterate_some`: what a line without options, loops and choices does.
* **`run_isSome`**: without loops in the table, the loop ends after as many steps as it has lines.
* `run_invariant`: what the lines keep holds at the end.
-/

namespace StrongSwan

/-! ## Tables -/

/-- The flags of a line -/
structure Asn1Flags where
  /-- `ASN1_DEF` -/
  default : Bool := false
  /-- `ASN1_OPT` -/
  option : Bool := false
  loop : Bool := false
  choice : Bool := false
  /-- `ASN1_CH` -/
  ch : Bool := false
  /-- `ASN1_END` -/
  close : Bool := false
  obj : Bool := false
  body : Bool := false
  raw : Bool := false
  exit : Bool := false
  deriving DecidableEq, Repr

/-- `asn1Object_t`, without its name -/
structure Asn1Object where
  level : ℕ
  type : U8
  flags : Asn1Flags
  deriving DecidableEq, Repr

/-- `private_asn1_parser_t`; `next` is the line after the current one. -/
structure Asn1Parser where
  objects : List Asn1Object
  next : ℕ := 0
  success : Bool := true
  implicit : Bool := false
  /-- Jump back address for loops for each level -/
  loopAddr : ℕ → ℕ := fun _ => 0
  /-- Current parsing pointer for each level -/
  blobs : ℕ → Chunk
  /-- Parsing a CHOICE on the current level ? -/
  choice : ℕ → Bool := fun _ => false

namespace Asn1Parser

def create (objects : List Asn1Object) (blob : Chunk) : Asn1Parser where
  objects := objects
  blobs := Function.update (fun _ => []) 0 blob

/-- The line behind the next one with a property, after skipping at least one line. -/
def skipTo (this : Asn1Parser) (p : Asn1Object → Bool) : ℕ :=
  this.next + (this.objects.drop this.next).findIdx p + 1

/-- The end of the option or loop on a level -/
def isEnd (level : ℕ) (obj : Asn1Object) : Bool := obj.flags.close && obj.level == level

/-- `end:` of `iterate`, with the object -/
def done (this : Asn1Parser) (object : Chunk) : Asn1Parser × Option (ℕ × Chunk) :=
  (this, if this.success then some (this.next - 1, object) else none)

/-- `end:` of `iterate`, after a parsing error -/
def fail (this : Asn1Parser) : Asn1Parser × Option (ℕ × Chunk) :=
  ({ this with success := false }, none)

def endObject (this : Asn1Parser) (obj : Asn1Object) : Asn1Parser × Option (ℕ × Chunk) :=
  let this := { this with loopAddr := Function.update this.loopAddr obj.level 0 }
  if obj.flags.choice ∧ this.choice (obj.level + 1) then this.fail
  else if obj.flags.ch then
    -- parsed a valid choice, advance to end of choices
    let this := { this with choice := Function.update this.choice obj.level false }
    done { this with
      next := this.skipTo (fun o => o.flags.close && o.flags.choice && o.level + 1 == obj.level)
        - 1 } []
  else this.done []

/-- Behind the type check: loops, choices and the object that is returned -/
def returnObject (this : Asn1Parser) (obj : Asn1Object) (tlv content : Chunk) :
    Asn1Parser × Option (ℕ × Chunk) :=
  if obj.flags.loop ∧ content.length = 0 then
    -- no items, advance directly to end of loop
    done { this with next := this.skipTo (isEnd obj.level) } []
  else
    let this := if obj.flags.loop then
      { this with loopAddr := Function.update this.loopAddr obj.level this.next } else this
    if obj.flags.choice ∧ content.length = 0 then this.fail
    else
      let this := if obj.flags.choice then
        { this with choice := Function.update this.choice (obj.level + 1) true } else this
      this.done (if obj.flags.obj then tlv else if obj.flags.body then content else [])

/-- The element of a line -/
def parseObject (this : Asn1Parser) (obj : Asn1Object) : Asn1Parser × Option (ℕ × Chunk) :=
  let blob := this.blobs obj.level
  let missing := blob.length = 0 ∨ blob.head? ≠ some obj.type
  if obj.flags.default ∧ missing then
    -- skip context-specific tag
    done { this with
      next := if obj.type &&& asn1Constructed ≠ 0 then this.next + 1 else this.next } []
  else if obj.flags.option ∧ missing then
    -- advance to end of missing option field
    done { this with next := this.skipTo (isEnd obj.level) } []
  else
    match asn1Element blob with
    | none => this.fail
    | some (tlv, content, rest) =>
      let blobs := Function.update this.blobs obj.level rest
      if obj.flags.choice ∧ obj.type = asn1Eoc then
        -- choice without explicit context encoding
        done { this with
          blobs := Function.update blobs (obj.level + 1) blob
          choice := Function.update this.choice (obj.level + 1) true } []
      else
        let this := { this with blobs := Function.update blobs (obj.level + 1) content }
        if obj.flags.raw then this.done tlv
        else if tlv.head? ≠ some obj.type ∧ ¬ (this.implicit ∧ this.next = 1) then this.fail
        else this.returnObject obj tlv content

/-- `iterate`: the line and the object of the next step; `none` is `FALSE`. -/
def iterate (this : Asn1Parser) : Asn1Parser × Option (ℕ × Chunk) :=
  let line := this.next
  let this := { this with next := line + 1 }
  match this.objects[line]? with
  | none => (this, none)
  | some obj =>
    if obj.flags.exit then (this, none)
    else if obj.flags.close then
      if this.loopAddr obj.level ≠ 0 ∧ (this.blobs (obj.level + 1)).length > 0 then
        -- another iteration
        let line := this.loopAddr obj.level
        match this.objects[line]? with
        | none => (this, none)
        | some obj => parseObject { this with next := line + 1 } obj
      else this.endObject obj
    else this.parseObject obj

/-- The loop around `iterate`; `handle` says what to do with an object, and whether to go on. The
result has the final parsing status; there is none without fuel. -/
def run {σ : Type} (handle : ℕ → Chunk → σ → σ × Bool) : ℕ → Asn1Parser → σ → Option (σ × Bool)
  | 0, _, _ => none
  | fuel + 1, this, s =>
    match this.iterate with
    | (this, none) => some (s, this.success)
    | (this, some (objectID, object)) =>
      match handle objectID object s with
      | (s, true) => run handle fuel this s
      | (s, false) => some (s, this.success)

/-! ## Plain lines -/

/-- A line without options, loops and choices -/
structure Plain (flags : Asn1Flags) : Prop where
  exit : flags.exit = false
  close : flags.close = false
  default : flags.default = false
  option : flags.option = false
  loop : flags.loop = false
  choice : flags.choice = false

/-- What a line returns of its element -/
def object (flags : Asn1Flags) (tlv content : Chunk) : Chunk :=
  if flags.raw then tlv else if flags.obj then tlv else if flags.body then content else []

/-- The parser behind an element -/
def behind (this : Asn1Parser) (level : ℕ) (content rest : Chunk) : Asn1Parser :=
  { this with
    next := this.next + 1
    blobs := Function.update (Function.update this.blobs level rest) (level + 1) content }

variable {this : Asn1Parser} {obj : Asn1Object}

/-- **A plain line** takes the element of its type. -/
theorem iterate_element {tlv content rest : Chunk} (hobj : this.objects[this.next]? = some obj)
    (hplain : Plain obj.flags) (hsuccess : this.success = true)
    (helement : asn1Element (this.blobs obj.level) = some (tlv, content, rest))
    (htype : obj.flags.raw = true ∨ tlv.head? = some obj.type) :
    this.iterate = (this.behind obj.level content rest,
      some (this.next, object obj.flags tlv content)) := by
  have hnot : ∀ p : Prop, ¬ (false = true ∧ p) := fun _ h => Bool.false_ne_true h.1
  have hhead : obj.flags.raw = true ∨ ¬ (tlv.head? ≠ some obj.type ∧
      ¬ (this.implicit = true ∧ this.next + 1 = 1)) :=
    htype.imp id fun h h' => h'.1 h
  unfold iterate
  dsimp only
  rw [hobj]
  simp only [hplain.exit, hplain.close, Bool.false_eq_true, if_false]
  unfold parseObject
  simp only [hplain.default, hplain.option, hplain.choice, Bool.false_eq_true, false_and, if_false,
    helement]
  obtain hraw | hhead := hhead
  · simp [hraw, done, object, behind, hsuccess]
  · rw [if_neg hhead]
    simp only [returnObject, hplain.loop, hplain.choice, Bool.false_eq_true, false_and, if_false, done,
      object, behind, hsuccess, if_true, Nat.add_sub_cancel]
    split_ifs <;> rfl

variable {parser : Asn1Parser}

theorem iterate_some {objectID : ℕ} {data : Chunk}
    (hobj : this.objects[this.next]? = some obj) (hplain : Plain obj.flags)
    (hsuccess : this.success = true) (himplicit : this.implicit = false)
    (h : this.iterate = (parser, some (objectID, data))) :
    ∃ tlv content rest, asn1Element (this.blobs obj.level) = some (tlv, content, rest) ∧
      parser = this.behind obj.level content rest ∧ objectID = this.next ∧
      data = object obj.flags tlv content := by
  obtain hnone | ⟨⟨tlv, content, rest⟩, helement⟩ :=
    Option.eq_none_or_eq_some (asn1Element (this.blobs obj.level))
  · unfold iterate at h
    dsimp only at h
    rw [hobj] at h
    simp only [hplain.exit, hplain.close, Bool.false_eq_true, if_false] at h
    unfold parseObject at h
    simp [hplain.default, hplain.option, hnone, fail] at h
  by_cases htype : obj.flags.raw = true ∨ tlv.head? = some obj.type
  · rw [iterate_element hobj hplain hsuccess helement htype] at h
    simp only [Prod.mk.injEq, Option.some.injEq] at h
    obtain ⟨rfl, rfl, rfl⟩ := h
    exact ⟨tlv, content, rest, helement, rfl, rfl, rfl⟩
  · rw [not_or] at htype
    unfold iterate at h
    dsimp only at h
    rw [hobj] at h
    simp only [hplain.exit, hplain.close, Bool.false_eq_true, if_false] at h
    unfold parseObject at h
    simp [hplain.default, hplain.option, hplain.choice, helement, htype.1, htype.2, himplicit,
      fail] at h

/-! ## Tables without loops -/

/-- `parser` has come further than `this` in a table without loops. -/
structure Further (this parser : Asn1Parser) : Prop where
  objects : parser.objects = this.objects
  noLoop : ∀ obj ∈ parser.objects, obj.flags.loop = false
  loopAddr : ∀ level, parser.loopAddr level = 0
  next : this.next ≤ parser.next

/-- A step comes further, and returns the number of the line it came to. -/
structure Step (this : Asn1Parser) (result : Asn1Parser × Option (ℕ × Chunk)) : Prop where
  further : Further this result.1
  objectID : ∀ {objectID data}, result.2 = some (objectID, data) → objectID = result.1.next - 1

section

variable {parser parser' : Asn1Parser}

theorem Further.keep (h : Further this parser) (hobjects : parser'.objects = parser.objects)
    (hloop : parser'.loopAddr = parser.loopAddr) (hnext : parser.next ≤ parser'.next) :
    Further this parser' :=
  ⟨hobjects.trans h.objects, fun obj hobj => h.noLoop obj (hobjects ▸ hobj),
    fun level => by rw [hloop, h.loopAddr], h.next.trans hnext⟩

theorem Further.none (h : Further this parser) : Step this (parser, none) :=
  ⟨h, fun h' => by cases h'⟩

theorem Further.done (h : Further this parser) (object : Chunk) : Step this (parser.done object) := by
  refine ⟨h, fun h' => ?_⟩
  unfold Asn1Parser.done at h'
  split_ifs at h'
  cases h'
  rfl

theorem Further.fail (h : Further this parser) : Step this parser.fail :=
  (h.keep rfl rfl le_rfl : Further this { parser with success := false }).none

theorem Further.endObject (h : Further this parser) (obj : Asn1Object) :
    Step this (parser.endObject obj) := by
  have hclosed : Further this
      { parser with loopAddr := Function.update parser.loopAddr obj.level 0 } := by
    refine ⟨h.objects, h.noLoop, fun level => ?_, h.next⟩
    dsimp only
    rw [Function.update_apply, h.loopAddr, ite_self]
  unfold Asn1Parser.endObject
  dsimp only
  split_ifs
  · exact hclosed.fail
  · apply Further.done
    exact hclosed.keep rfl rfl (by dsimp only [skipTo]; omega)
  · exact hclosed.done []

theorem Further.parseObject (h : Further this parser) {obj : Asn1Object}
    (hobj : obj ∈ parser.objects) : Step this (parser.parseObject obj) := by
  have hloop := h.noLoop obj hobj
  unfold Asn1Parser.parseObject
  dsimp only
  split
  · -- a default value
    apply Further.done
    exact h.keep rfl rfl (by dsimp only; split_ifs <;> omega)
  split
  · -- a missing option
    apply Further.done
    exact h.keep rfl rfl (by dsimp only [skipTo]; omega)
  split
  · exact h.fail
  split
  · apply Further.done
    exact h.keep rfl rfl le_rfl
  split
  · apply Further.done
    exact h.keep rfl rfl le_rfl
  split
  · exact Further.fail (h.keep rfl rfl le_rfl)
  · simp only [returnObject, hloop, Bool.false_eq_true, false_and, if_false]
    split
    · exact Further.fail (h.keep rfl rfl le_rfl)
    · apply Further.done
      refine h.keep ?_ ?_ (le_of_eq ?_) <;> split_ifs <;> rfl

end

variable (hobjects : ∀ obj ∈ this.objects, obj.flags.loop = false)
  (hloop : ∀ level, this.loopAddr level = 0)

include hobjects hloop

theorem iterate_step : Step { this with next := this.next + 1 } this.iterate := by
  have hself : Further { this with next := this.next + 1 } { this with next := this.next + 1 } :=
    ⟨rfl, hobjects, hloop, le_rfl⟩
  unfold Asn1Parser.iterate
  dsimp only
  split
  · exact hself.none
  · rename_i obj hobj
    simp only [hloop, ne_eq, not_true_eq_false, false_and, if_false]
    split_ifs
    · exact hself.none
    · exact hself.endObject obj
    · exact hself.parseObject (List.mem_of_getElem? hobj)

theorem iterate_objectID {objectID : ℕ} {data : Chunk}
    (h : this.iterate = (parser, some (objectID, data))) :
    Further this parser ∧ this.next < parser.next ∧ objectID + 1 = parser.next ∧
      this.next < this.objects.length := by
  have hstep := iterate_step hobjects hloop
  rw [h] at hstep
  have hnext : this.next + 1 ≤ parser.next := hstep.further.next
  have hid : objectID = parser.next - 1 := hstep.objectID rfl
  refine ⟨⟨hstep.further.objects, hstep.further.noLoop, hstep.further.loopAddr, by omega⟩, by omega,
    by omega, ?_⟩
  by_contra hend
  have hnone : this.objects[this.next]? = none := List.getElem?_eq_none (not_lt.mp hend)
  unfold Asn1Parser.iterate at h
  dsimp only at h
  rw [hnone] at h
  simp at h

omit hobjects hloop

variable {fuel : ℕ} {σ : Type}

/-- **The loop ends** within as many steps as there are lines left. -/
theorem run_isSome {handle : ℕ → Chunk → σ → σ × Bool} {s : σ}
    (hobjects : ∀ obj ∈ this.objects, obj.flags.loop = false)
    (hloop : ∀ level, this.loopAddr level = 0) (hpos : 0 < fuel)
    (hfuel : this.objects.length < this.next + fuel) :
    (run handle fuel this s).isSome = true := by
  induction fuel generalizing this s with
  | zero => omega
  | succ fuel ih =>
    rw [run]
    split
    · rfl
    rename_i parser objectID data hiterate
    obtain ⟨hfurther, hnext, -, hline⟩ := iterate_objectID hobjects hloop hiterate
    split
    · exact ih hfurther.noLoop hfurther.loopAddr (by omega) (by rw [hfurther.objects]; omega)
    · rfl

theorem run_invariant {handle : ℕ → Chunk → σ → σ × Bool} {P : σ → Prop}
    {s s' : σ} {success : Bool} (hobjects : ∀ obj ∈ this.objects, obj.flags.loop = false)
    (hloop : ∀ level, this.loopAddr level = 0)
    (hkeep : ∀ objectID data s, this.next ≤ objectID → P s → P (handle objectID data s).1) (hs : P s)
    (h : run handle fuel this s = some (s', success)) : P s' := by
  induction fuel generalizing this s with
  | zero => cases h
  | succ fuel ih =>
    rw [run] at h
    split at h
    · cases h
      exact hs
    rename_i parser objectID data hiterate
    obtain ⟨hfurther, hnext, hid, -⟩ := iterate_objectID hobjects hloop hiterate
    have hs₁ := hkeep objectID data s (by omega) hs
    split at h
    · rename_i s₁ hhandle
      rw [hhandle] at hs₁
      exact ih hfurther.noLoop hfurther.loopAddr
        (fun objectID data s hle => hkeep objectID data s (by omega)) hs₁ h
    · rename_i s₁ hhandle
      rw [hhandle] at hs₁
      cases h
      exact hs₁

theorem run_step {handle : ℕ → Chunk → σ → σ × Bool} {s s' : σ}
    {objectID : ℕ} {data : Chunk}
    (hiterate : this.iterate = (parser, some (objectID, data)))
    (hhandle : handle objectID data s = (s', true)) :
    run handle (fuel + 1) this s = run handle fuel parser s' := by
  rw [run, hiterate]
  simp only [hhandle]

theorem run_cases {handle : ℕ → Chunk → σ → σ × Bool} {s s' : σ}
    {success : Bool} (h : run handle (fuel + 1) this s = some (s', success)) :
    s' = s ∨ ∃ parser objectID data, this.iterate = (parser, some (objectID, data)) ∧
      (handle objectID data s = (s', false) ∨ ∃ s₁, handle objectID data s = (s₁, true) ∧
        run handle fuel parser s₁ = some (s', success)) := by
  rw [run] at h
  split at h
  · cases h
    exact .inl rfl
  rename_i parser objectID data hiterate
  refine .inr ⟨parser, objectID, data, hiterate, ?_⟩
  split at h
  · rename_i s₁ hhandle
    exact .inr ⟨s₁, hhandle, h⟩
  · rename_i s₁ hhandle
    cases h
    exact .inl hhandle

theorem run_stop {handle : ℕ → Chunk → σ → σ × Bool} {s : σ}
    (hiterate : this.iterate = (parser, none)) :
    run handle (fuel + 1) this s = some (s, parser.success) := by
  rw [run, hiterate]

end Asn1Parser

end StrongSwan
