import StrongSwan.Asn1.Asn1Parser
import StrongSwan.Lib.System
import Mathlib.Data.DFinsupp.WellFounded
import Mathlib.Order.PiLex

/-!
# Loops of the ASN.1 parser

With a loop in its table the parser jumps back. That it still comes to an end depends on the table:
the first line of a loop must take an element from the object that the loop is about.

* `iterate_cases`: what one step can do.
* `Ends`: parsing ends, loops make progress, and all indices are inside their arrays.
* `Sound`: what a table must be like, a condition that can be decided.
* **`ends_of_sound`**: with a sound table, the parser ends on every blob.
-/

namespace StrongSwan

namespace Asn1Parser

/-! ## Steps -/

def endOf (objects : List Asn1Object) (line level : ℕ) : ℕ :=
  line + 1 + (objects.drop (line + 1)).findIdx (isEnd level)

def choicesEnd (objects : List Asn1Object) (line level : ℕ) : ℕ :=
  line + 1 + (objects.drop (line + 1)).findIdx
    fun o => o.flags.close && o.flags.choice && o.level + 1 == level

/-- The lines that can follow a line, but for another iteration of a loop -/
def targets (objects : List Asn1Object) (line : ℕ) (obj : Asn1Object) : List ℕ :=
  [line + 1] ++
    (if obj.flags.default ∧ obj.type &&& asn1Constructed ≠ 0 then [line + 2] else []) ++
    (if obj.flags.option ∨ obj.flags.loop then [endOf objects line obj.level + 1] else []) ++
    (if obj.flags.ch then [choicesEnd objects line obj.level] else [])

/-- The element of a line is not there. -/
def Missing (this : Asn1Parser) (obj : Asn1Object) : Prop :=
  (this.blobs obj.level).length = 0 ∨ (this.blobs obj.level).head? ≠ some obj.type

/-- What a line does to the blobs and the loops -/
inductive Parses (this : Asn1Parser) (line : ℕ) (obj : Asn1Object) (parser : Asn1Parser) : Prop
  | missing (hmissing : this.Missing obj)
      (hflags : obj.flags.default = true ∨ obj.flags.option = true)
      (hblobs : parser.blobs = this.blobs) (hloop : parser.loopAddr = this.loopAddr)
  | element {tlv content rest inner : Chunk}
      (hthere : obj.flags.default = true ∨ obj.flags.option = true → ¬ this.Missing obj)
      (helement : asn1Element (this.blobs obj.level) = some (tlv, content, rest))
      (htype : obj.flags.raw = true ∨ obj.flags.choice = true ∨ tlv.head? = some obj.type ∨
        this.implicit = true ∧ line = 0)
      (hinner : inner = content ∨ obj.flags.choice = true ∧ inner = this.blobs obj.level)
      (hblobs : parser.blobs =
        Function.update (Function.update this.blobs obj.level rest) (obj.level + 1) inner)
      (hloop : parser.loopAddr = this.loopAddr ∧
          (obj.flags.loop = true → content = [] ∨ obj.flags.raw = true ∨ obj.flags.choice = true) ∨
        obj.flags.loop = true ∧ content ≠ [] ∧ parser.next = line + 1 ∧
          parser.loopAddr = Function.update this.loopAddr obj.level (line + 1))

/-- The line is that of another iteration. -/
def Again (this : Asn1Parser) (line : ℕ) : Prop :=
  ∃ last, this.objects[this.next]? = some last ∧ last.flags.exit = false ∧
    last.flags.close = true ∧ this.loopAddr last.level = line ∧ line ≠ 0 ∧
    this.blobs (last.level + 1) ≠ []

/-- **What a step does** -/
inductive Moves (this parser : Asn1Parser) : Prop
  | close {obj : Asn1Object} (hobj : this.objects[this.next]? = some obj)
      (hexit : obj.flags.exit = false) (hclose : obj.flags.close = true)
      (hdone : this.loopAddr obj.level = 0 ∨ this.blobs (obj.level + 1) = [])
      (hnext : parser.next ∈ targets this.objects this.next obj)
      (hblobs : parser.blobs = this.blobs)
      (hloop : parser.loopAddr = Function.update this.loopAddr obj.level 0)
  | parse {obj : Asn1Object} (hobj : this.objects[this.next]? = some obj)
      (hexit : obj.flags.exit = false) (hclose : obj.flags.close = false)
      (hnext : parser.next ∈ targets this.objects this.next obj)
      (hparses : this.Parses this.next obj parser)
  | again {line : ℕ} {obj : Asn1Object} (hagain : this.Again line)
      (hobj : this.objects[line]? = some obj)
      (hnext : parser.next ∈ targets this.objects line obj)
      (hparses : this.Parses line obj parser)

variable {this parser : Asn1Parser} {line : ℕ} {obj : Asn1Object} {r : ℕ × Chunk}

/-- What a step keeps -/
structure Keeps (this parser : Asn1Parser) : Prop where
  objects : parser.objects = this.objects
  implicit : parser.implicit = this.implicit
  success : parser.success = true

theorem done_some {object : Chunk} (h : this.done object = (parser, some r)) :
    parser = this ∧ this.success = true := by
  unfold done at h
  split_ifs at h with hsuccess
  · simp only [Prod.mk.injEq] at h
    exact ⟨h.1.symm, hsuccess⟩
  · simp at h

theorem fail_ne_some : this.fail ≠ (parser, some r) := by
  simp [fail]

theorem endObject_cases
    (h : endObject { this with next := line + 1 } obj = (parser, some r)) :
    Keeps this parser ∧ parser.next ∈ targets this.objects line obj ∧
      parser.blobs = this.blobs ∧
      parser.loopAddr = Function.update this.loopAddr obj.level 0 := by
  unfold endObject at h
  dsimp only at h
  split_ifs at h with hchoice hch
  · exact absurd h fail_ne_some
  · obtain ⟨rfl, hsuccess⟩ := done_some h
    refine ⟨⟨rfl, rfl, hsuccess⟩, ?_, rfl, rfl⟩
    simp [targets, hch, skipTo, choicesEnd]
  · obtain ⟨rfl, hsuccess⟩ := done_some h
    exact ⟨⟨rfl, rfl, hsuccess⟩, by simp [targets], rfl, rfl⟩

theorem parseObject_cases
    (h : parseObject { this with next := line + 1 } obj = (parser, some r)) :
    Keeps this parser ∧ parser.next ∈ targets this.objects line obj ∧ this.Parses line obj parser := by
  unfold parseObject at h
  dsimp only at h
  split at h
  · rename_i hdefault
    obtain ⟨rfl, hsuccess⟩ := done_some h
    refine ⟨⟨rfl, rfl, hsuccess⟩, ?_, .missing hdefault.2 (.inl hdefault.1) rfl rfl⟩
    dsimp only
    split_ifs with htype
    · unfold targets
      rw [if_pos ⟨hdefault.1, htype⟩]
      simp
    · simp [targets]
  rename_i hdefault
  split at h
  · rename_i hoption
    obtain ⟨rfl, hsuccess⟩ := done_some h
    refine ⟨⟨rfl, rfl, hsuccess⟩, ?_, .missing hoption.2 (.inr hoption.1) rfl rfl⟩
    simp [targets, hoption.1, skipTo, endOf]
  rename_i hoption
  have hthere : obj.flags.default = true ∨ obj.flags.option = true → ¬ this.Missing obj := by
    rintro (hflag | hflag) hmissing
    · exact hdefault ⟨hflag, hmissing⟩
    · exact hoption ⟨hflag, hmissing⟩
  split at h
  · exact absurd h fail_ne_some
  rename_i tlv content rest helement
  split at h
  · rename_i hchoice
    obtain ⟨rfl, hsuccess⟩ := done_some h
    exact ⟨⟨rfl, rfl, hsuccess⟩, by simp [targets],
      .element hthere helement (.inr (.inl hchoice.1)) (.inr ⟨hchoice.1, rfl⟩) rfl
        (.inl ⟨rfl, fun _ => .inr (.inr hchoice.1)⟩)⟩
  split at h
  · rename_i hraw
    obtain ⟨rfl, hsuccess⟩ := done_some h
    exact ⟨⟨rfl, rfl, hsuccess⟩, by simp [targets],
      .element hthere helement (.inl hraw) (.inl rfl) rfl
        (.inl ⟨rfl, fun _ => .inr (.inl hraw)⟩)⟩
  split at h
  · exact absurd h fail_ne_some
  rename_i htype
  have htype : obj.flags.raw = true ∨ obj.flags.choice = true ∨ tlv.head? = some obj.type ∨
      this.implicit = true ∧ line = 0 := by
    by_cases hhead : tlv.head? = some obj.type
    · exact .inr (.inr (.inl hhead))
    · have himplicit := not_not.mp fun h => htype ⟨hhead, h⟩
      exact .inr (.inr (.inr ⟨himplicit.1, Nat.succ.inj himplicit.2⟩))
  unfold returnObject at h
  dsimp only at h
  split at h
  · rename_i hempty
    obtain ⟨rfl, hsuccess⟩ := done_some h
    have hcontent : content = [] := List.length_eq_zero_iff.mp hempty.2
    refine ⟨⟨rfl, rfl, hsuccess⟩, ?_, .element hthere helement htype (.inl rfl) rfl
      (.inl ⟨rfl, fun _ => .inl hcontent⟩)⟩
    simp [targets, hempty.1, skipTo, endOf]
  rename_i hitems
  split at h
  · exact absurd h fail_ne_some
  obtain ⟨rfl, hsuccess⟩ := done_some h
  cases hloop : obj.flags.loop
  · simp only [hloop, Bool.false_eq_true, if_false] at hsuccess ⊢
    refine ⟨⟨?_, ?_, ?_⟩, ?_, .element hthere helement htype (.inl rfl) ?_ (.inl ⟨?_, ?_⟩)⟩ <;>
      split_ifs at hsuccess ⊢ <;> simp_all [targets]
  · have hcontent : content ≠ [] := fun h => hitems ⟨hloop, List.length_eq_zero_iff.mpr h⟩
    simp only [hloop, if_true] at hsuccess ⊢
    refine ⟨⟨?_, ?_, ?_⟩, ?_,
      .element hthere helement htype (.inl rfl) ?_ (.inr ⟨hloop, hcontent, ?_, ?_⟩)⟩ <;>
      split_ifs at hsuccess ⊢ <;> simp_all [targets]

/-- **What a step can do** -/
theorem iterate_cases (h : this.iterate = (parser, some r)) :
    Keeps this parser ∧ Moves this parser := by
  unfold iterate at h
  dsimp only at h
  split at h
  · simp at h
  rename_i obj hobj
  split_ifs at h with hexit hclose hagain
  · simp at h
  · split at h
    · simp at h
    rename_i first hfirst
    obtain ⟨hkeeps, hnext, hparses⟩ := parseObject_cases h
    refine ⟨hkeeps, .again ⟨obj, hobj, by simpa using hexit, hclose, rfl, hagain.1, ?_⟩ hfirst hnext
      hparses⟩
    exact List.length_pos_iff.mp hagain.2
  · obtain ⟨hkeeps, hnext, hblobs, hloop⟩ := endObject_cases h
    refine ⟨hkeeps, .close hobj (by simpa using hexit) hclose ?_ hnext hblobs hloop⟩
    rw [← List.length_eq_zero_iff]
    omega
  · obtain ⟨hkeeps, hnext, hparses⟩ := parseObject_cases h
    exact ⟨hkeeps, .parse hobj (by simpa using hexit) (by simpa using hclose) hnext hparses⟩

/-! ## Runs -/

/-- The calls of `iterate` that return `TRUE`, with what they return -/
def system (parser : Asn1Parser) : LTS.System Asn1Parser (ℕ × Chunk) where
  init := (· = parser)
  step s r t := s.iterate = (t, some r)

/-- Those that stay in the loop of a level -/
def within (level : ℕ) : LTS.System Asn1Parser (ℕ × Chunk) where
  init _ := True
  step s r t := s.iterate = (t, some r) ∧ t.loopAddr level ≠ 0

def AtEnd (this : Asn1Parser) (level : ℕ) : Prop :=
  this.loopAddr level ≠ 0 ∧
    ∃ obj, this.objects[this.next]? = some obj ∧ obj.flags.close = true ∧ obj.level = level

/-- An iteration of the loop of a level begins: its first line is the next one that is parsed. -/
def Begins (this : Asn1Parser) (level : ℕ) : Prop :=
  this.loopAddr level ≠ 0 ∧ (this.next = this.loopAddr level ∨
    this.AtEnd level ∧ this.blobs (level + 1) ≠ [])

/-- `ASN1_MAX_LEVEL` -/
def maxLevel : ℕ := 10

/-- The indices are inside their arrays: `line` and what `loopAddr` has for it inside the table, and
the levels inside `loopAddr`, which has one element more than `ASN1_MAX_LEVEL`. -/
structure InBounds (this : Asn1Parser) : Prop where
  next : this.next < this.objects.length
  loopAddr : ∀ level, this.loopAddr level < this.objects.length
  level : ∀ obj ∈ this.objects, obj.level < maxLevel + 1

/-- **Parsing ends**: `iterate` returns `FALSE` at last, each iteration of a loop leaves less of the
object that the loop is about, and no index leaves its array. -/
structure Ends (parser : Asn1Parser) : Prop where
  terminates : ∃ fuel, (run (fun _ _ s => (s, true)) fuel parser ()).isSome = true
  progress : ∀ {es es' s t level}, LTS.Run parser.system es s → s.Begins level → es' ≠ [] →
    LTS.Steps (within level) s es' t → t.AtEnd level →
    (t.blobs (level + 1)).length < (s.blobs (level + 1)).length
  inBounds : ∀ {es s}, LTS.Run parser.system es s → s.InBounds

theorem terminates_of_rank {α : Type*} [LT α] [WellFoundedLT α] {I : Asn1Parser → Prop}
    (rank : Asn1Parser → α)
    (hstep : ∀ {s t r}, I s → s.iterate = (t, some r) → I t ∧ rank t < rank s) (h : I this) :
    ∃ fuel, (run (fun _ _ s => (s, true)) fuel this ()).isSome = true := by
  induction hrank : rank this using WellFoundedLT.induction generalizing this with
  | ind a ih =>
    obtain hnone | ⟨⟨objectID, data⟩, hsome⟩ := Option.eq_none_or_eq_some this.iterate.2
    · have hiterate : this.iterate = (this.iterate.1, none) := Prod.ext rfl hnone
      exact ⟨1, by rw [run_stop hiterate]; rfl⟩
    · have hiterate : this.iterate = (this.iterate.1, some (objectID, data)) := Prod.ext rfl hsome
      obtain ⟨hI, hlt⟩ := hstep h hiterate
      obtain ⟨fuel, hfuel⟩ := ih _ (hrank ▸ hlt) hI rfl
      exact ⟨fuel + 1, by rw [run_step hiterate rfl]; exact hfuel⟩

/-! ## Sound tables -/

/-- A line starts a loop. -/
def Loop (objects : List Asn1Object) (line level : ℕ) : Prop :=
  ∃ obj ∈ objects[line]?, obj.flags.exit = false ∧ obj.flags.close = false ∧
    obj.flags.loop = true ∧ obj.level = level

/-- The first line of a loop takes an element, and no line of it leaves the loop but the last one. -/
structure SoundLoop (objects : List Asn1Object) (line level : ℕ) : Prop where
  first : ∃ first ∈ objects[line + 1]?, first.level = level + 1 ∧ first.flags.exit = false ∧
    first.flags.close = false ∧ first.flags.default = false ∧ first.flags.option = false
  first_lt : line + 1 < endOf objects line level
  body : ∀ i < endOf objects line level, line < i → ∀ obj ∈ objects[i]?, level < obj.level ∧
    ∀ target ∈ targets objects i obj, target ≤ endOf objects line level

/-- The lines behind a line are in the table, and if it starts a loop, the loop is sound. -/
structure SoundLine (objects : List Asn1Object) (line : ℕ) (obj : Asn1Object) : Prop where
  targets : ∀ target ∈ targets objects line obj, target < objects.length
  loop : obj.flags.close = false → obj.flags.loop = true → SoundLoop objects line obj.level

/-- What a table must be like for the parser to come to an end -/
structure Sound (objects : List Asn1Object) : Prop where
  nonempty : objects ≠ []
  level : ∀ obj ∈ objects, obj.level < maxLevel + 1
  line : ∀ line < objects.length, ∀ obj ∈ objects[line]?, obj.flags.exit = false →
    SoundLine objects line obj

instance (objects : List Asn1Object) (line level : ℕ) : Decidable (SoundLoop objects line level) :=
  decidable_of_iff (_ ∧ _ ∧ _) ⟨fun h => ⟨h.1, h.2.1, h.2.2⟩, fun h => ⟨h.first, h.first_lt, h.body⟩⟩

instance (objects : List Asn1Object) (line : ℕ) (obj : Asn1Object) :
    Decidable (SoundLine objects line obj) :=
  decidable_of_iff (_ ∧ _) ⟨fun h => ⟨h.1, h.2⟩, fun h => ⟨h.targets, h.loop⟩⟩

instance (objects : List Asn1Object) : Decidable (Sound objects) :=
  decidable_of_iff (_ ∧ _ ∧ _) ⟨fun h => ⟨h.1, h.2.1, h.2.2⟩, fun h => ⟨h.nonempty, h.level, h.line⟩⟩

variable {objects : List Asn1Object} {s t : Asn1Parser} {level : ℕ}

theorem lt_length_of_getElem? (h : objects[line]? = some obj) : line < objects.length :=
  (List.getElem?_eq_some_iff.mp h).1

theorem lt_of_mem_targets {target : ℕ} (h : target ∈ targets objects line obj) : line < target := by
  simp only [targets, List.mem_append, List.mem_singleton, List.mem_ite_nil_right, endOf,
    choicesEnd] at h
  omega

theorem Sound.line_of (h : Sound objects) (hobj : objects[line]? = some obj)
    (hexit : obj.flags.exit = false) : SoundLine objects line obj :=
  h.line line (lt_length_of_getElem? hobj) obj hobj hexit

theorem Sound.loop (h : Sound objects) (hloop : Loop objects line level) :
    SoundLoop objects line level := by
  obtain ⟨obj, hobj, hexit, hclose, hloop, rfl⟩ := hloop
  exact (h.line_of hobj hexit).loop hclose hloop

theorem Sound.endOf (h : Sound objects) (hloop : Loop objects line level) :
    ∃ last, objects[endOf objects line level]? = some last ∧ last.flags.close = true ∧
      last.level = level := by
  obtain ⟨obj, hobj, hexit, hclose, hloop, rfl⟩ := hloop
  have hlt : Asn1Parser.endOf objects line obj.level + 1 < objects.length :=
    (h.line_of hobj hexit).targets _ (by simp [Asn1Parser.targets, hloop])
  have hfound : (objects.drop (line + 1)).findIdx (isEnd obj.level) <
      (objects.drop (line + 1)).length := by
    rw [List.length_drop]
    unfold Asn1Parser.endOf at hlt
    omega
  have hend := List.findIdx_getElem (w := hfound)
  simp only [List.getElem_drop, isEnd, Bool.and_eq_true, beq_iff_eq] at hend
  exact ⟨_, List.getElem?_eq_getElem (by omega), hend⟩

/-! ## The invariant -/

/-- What holds between two steps with a sound table: the next line is in every loop that runs. -/
structure Inv (objects : List Asn1Object) (s : Asn1Parser) : Prop where
  table : s.objects = objects
  success : s.success = true
  next : s.next < objects.length
  loop : ∀ level, s.loopAddr level ≠ 0 → ∃ line, s.loopAddr level = line + 1 ∧
    Loop objects line level ∧ line < s.next ∧ s.next ≤ endOf objects line level

/-- A line is inside every loop that runs. -/
def Inside (objects : List Asn1Object) (s : Asn1Parser) (line : ℕ) : Prop :=
  ∀ level, s.loopAddr level ≠ 0 → ∃ start, s.loopAddr level = start + 1 ∧
    Loop objects start level ∧ start < line ∧ line < endOf objects start level

variable (hs : Sound objects) (hi : Inv objects s)

include hs

theorem Inside.level_lt (h : Inside objects s line) (hobj : objects[line]? = some obj)
    (hloop : s.loopAddr level ≠ 0) : level < obj.level := by
  obtain ⟨start, -, hstart, hlt, hend⟩ := h level hloop
  exact ((hs.loop hstart).body line hend hlt obj hobj).1

include hi

theorem Inv.level_le (hobj : objects[s.next]? = some obj) (hloop : s.loopAddr level ≠ 0) :
    level ≤ obj.level ∧ (obj.level = level →
      ∃ start, s.loopAddr level = start + 1 ∧ Loop objects start level ∧
        s.next = endOf objects start level) := by
  obtain ⟨start, haddr, hstart, hlt, hle⟩ := hi.loop level hloop
  obtain heq | hend := hle.eq_or_lt
  · obtain ⟨last, hlast, -, hlevel⟩ := hs.endOf hstart
    rw [← heq, hobj, Option.some.injEq] at hlast
    subst hlast
    exact ⟨hlevel.ge, fun _ => ⟨start, haddr, hstart, heq⟩⟩
  · have hlevel := ((hs.loop hstart).body s.next hend hlt obj hobj).1
    exact ⟨hlevel.le, fun heq => absurd heq hlevel.ne'⟩

theorem Inv.inside_next (hobj : objects[s.next]? = some obj) (hclose : obj.flags.close = false) :
    Inside objects s s.next := by
  intro level hlevel
  obtain ⟨start, haddr, hloop, hlt, hle⟩ := hi.loop level hlevel
  refine ⟨start, haddr, hloop, hlt, lt_of_le_of_ne hle fun heq => ?_⟩
  -- the end of a loop is no line that is parsed
  obtain ⟨last, hlast, hclosed, -⟩ := hs.endOf hloop
  rw [← heq, hobj, Option.some.injEq] at hlast
  rw [← hlast, hclose] at hclosed
  cases hclosed

theorem Inv.again (h : s.Again line) (hobj : objects[line]? = some obj) :
    ∃ start level, line = start + 1 ∧ s.loopAddr level = line ∧ Loop objects start level ∧
      s.next = endOf objects start level ∧ obj.level = level + 1 ∧ obj.flags.exit = false ∧
      obj.flags.close = false ∧ obj.flags.default = false ∧ obj.flags.option = false := by
  obtain ⟨last, hlast, -, -, haddr, hline, -⟩ := h
  rw [hi.table] at hlast
  obtain ⟨start, hstart, hloop, hend⟩ := (hi.level_le hs hlast (haddr ▸ hline)).2 rfl
  obtain rfl : line = start + 1 := haddr.symm.trans hstart
  obtain ⟨first, hfirst, hflags⟩ := (hs.loop hloop).first
  rw [hobj, Option.mem_some_iff] at hfirst
  subst hfirst
  exact ⟨start, last.level, rfl, haddr, hloop, hend, hflags⟩

theorem Inv.inside_again (h : s.Again line) (hobj : objects[line]? = some obj) :
    Inside objects s line := by
  obtain ⟨start, level, rfl, haddr, hloop, hnext, -⟩ := hi.again hs h hobj
  have hfirst := (hs.loop hloop).first_lt
  obtain ⟨last, hlast, -, rfl⟩ := hs.endOf hloop
  intro level hlevel
  obtain ⟨start', haddr', hloop', hlt, hle⟩ := hi.loop level hlevel
  refine ⟨start', haddr', hloop', not_le.mp fun hout => ?_, by omega⟩
  -- a loop that starts inside this one has a higher level, and is over
  obtain ⟨obj', hobj', -, -, -, rfl⟩ := hloop'
  have hhigher := ((hs.loop hloop).body start' (hnext ▸ hlt) hout obj' hobj').1
  have hlower := (hi.level_le hs (hnext ▸ hlast) hlevel).1
  omega

omit hs hi

theorem Parses.length_lt (h : s.Parses line obj t) (hdefault : obj.flags.default = false)
    (hoption : obj.flags.option = false) :
    (t.blobs obj.level).length < (s.blobs obj.level).length := by
  cases h with
  | missing _ hflags _ _ =>
    rw [hdefault, hoption] at hflags
    simp at hflags
  | element _ helement _ _ hblobs _ =>
    obtain ⟨hblob, -, hlen⟩ := asn1Element_some helement
    have hlength := congrArg List.length hblob
    rw [List.length_append] at hlength
    rw [hblobs, Function.update_of_ne (by omega), Function.update_self]
    omega

theorem Parses.length_le (h : s.Parses line obj t) (hlevel : level ≤ obj.level) :
    (t.blobs level).length ≤ (s.blobs level).length := by
  cases h with
  | missing _ _ hblobs _ => rw [hblobs]
  | element _ helement _ _ hblobs _ =>
    rw [hblobs, Function.update_of_ne (by omega), Function.update_apply]
    split_ifs with heq
    · obtain ⟨hblob, -, -⟩ := asn1Element_some helement
      have hlength := congrArg List.length hblob
      rw [List.length_append] at hlength
      rw [heq]
      omega
    · exact le_rfl

theorem Parses.blobs (h : s.Parses line obj t) (hlevel : level < obj.level) :
    t.blobs level = s.blobs level := by
  cases h with
  | missing _ _ hblobs _ => rw [hblobs]
  | element _ _ _ _ hblobs _ =>
    rw [hblobs, Function.update_of_ne (by omega), Function.update_of_ne (by omega)]

theorem Parses.loopAddr (h : s.Parses line obj t) (level : ℕ) :
    t.loopAddr level = s.loopAddr level ∨ level = obj.level ∧ obj.flags.loop = true ∧
      t.next = line + 1 ∧ t.loopAddr level = line + 1 := by
  cases h with
  | missing _ _ _ hloop => exact .inl (congrFun hloop level)
  | element _ _ _ _ _ hloop =>
    obtain ⟨hloop, -⟩ | ⟨hflag, -, hnext, hloop⟩ := hloop
    · exact .inl (congrFun hloop level)
    · rw [hloop, Function.update_apply]
      split_ifs with heq
      · exact .inr ⟨heq, hflag, hnext, rfl⟩
      · exact .inl rfl

include hs

theorem Parses.inv (hobj : objects[line]? = some obj) (hexit : obj.flags.exit = false)
    (hclose : obj.flags.close = false) (hinside : Inside objects s line)
    (hnext : t.next ∈ targets objects line obj) (htable : t.objects = objects)
    (hsuccess : t.success = true) (h : s.Parses line obj t) : Inv objects t := by
  have hline := hs.line_of hobj hexit
  refine ⟨htable, hsuccess, hline.targets _ hnext, fun level hlevel => ?_⟩
  obtain hsame | ⟨rfl, hflag, hnext', haddr⟩ := h.loopAddr level
  · rw [hsame] at hlevel ⊢
    obtain ⟨start, haddr, hloop, hlt, hend⟩ := hinside level hlevel
    have hle := ((hs.loop hloop).body line hend hlt obj hobj).2 _ hnext
    exact ⟨start, haddr, hloop, hlt.trans (lt_of_mem_targets hnext), hle⟩
  · have hfirst := (hline.loop hclose hflag).first_lt
    exact ⟨line, haddr, ⟨obj, hobj, hexit, hclose, hflag, rfl⟩, by omega, by omega⟩

include hi

theorem Inv.close (hobj : objects[s.next]? = some obj) (hexit : obj.flags.exit = false)
    (hnext : t.next ∈ targets objects s.next obj) (htable : t.objects = objects)
    (hsuccess : t.success = true)
    (hloop : t.loopAddr = Function.update s.loopAddr obj.level 0) : Inv objects t := by
  refine ⟨htable, hsuccess, (hs.line_of hobj hexit).targets _ hnext, fun level hlevel => ?_⟩
  rw [hloop, Function.update_apply] at hlevel ⊢
  split_ifs at hlevel ⊢ with heq
  · exact absurd rfl hlevel
  obtain ⟨start, haddr, hstart, hlt, hle⟩ := hi.loop level hlevel
  have hend : s.next < endOf objects start level := by
    refine lt_of_le_of_ne hle fun hend => ?_
    obtain ⟨last, hlast, -, hlevel'⟩ := hs.endOf hstart
    rw [← hend, hobj, Option.some.injEq] at hlast
    subst hlast
    exact heq hlevel'.symm
  exact ⟨start, haddr, hstart, hlt.trans (lt_of_mem_targets hnext),
    ((hs.loop hstart).body s.next hend hlt obj hobj).2 _ hnext⟩

/-- **A step keeps the invariant.** -/
theorem Inv.step (h : s.iterate = (t, some r)) : Inv objects t := by
  obtain ⟨hkeeps, hmoves⟩ := iterate_cases h
  have htable := hkeeps.objects.trans hi.table
  cases hmoves with
  | close hobj hexit _ _ hnext _ hloop =>
    rw [hi.table] at hobj hnext
    exact hi.close hs hobj hexit hnext htable hkeeps.success hloop
  | parse hobj hexit hclose hnext hparses =>
    rw [hi.table] at hobj hnext
    exact hparses.inv hs hobj hexit hclose (hi.inside_next hs hobj hclose) hnext htable
      hkeeps.success
  | again hagain hobj hnext hparses =>
    rw [hi.table] at hobj hnext
    obtain ⟨-, -, -, -, -, -, -, hexit, hclose, -⟩ := hi.again hs hagain hobj
    exact hparses.inv hs hobj hexit hclose (hi.inside_again hs hagain hobj) hnext htable
      hkeeps.success

/-! ## What is left of a loop -/

/-- **Inside a loop, what it is about does not grow.** -/
theorem Inv.length_le (h : s.iterate = (t, some r)) (hloop : s.loopAddr level ≠ 0) :
    (t.blobs (level + 1)).length ≤ (s.blobs (level + 1)).length := by
  obtain ⟨-, hmoves⟩ := iterate_cases h
  cases hmoves with
  | close _ _ _ _ _ hblobs _ => rw [hblobs]
  | parse hobj _ hclose _ hparses =>
    rw [hi.table] at hobj
    exact hparses.length_le ((hi.inside_next hs hobj hclose).level_lt hs hobj hloop)
  | again hagain hobj _ hparses =>
    rw [hi.table] at hobj
    exact hparses.length_le ((hi.inside_again hs hagain hobj).level_lt hs hobj hloop)

/-- **The first line of an iteration takes an element.** -/
theorem Inv.length_lt (h : s.iterate = (t, some r)) (hbegins : s.Begins level) :
    (t.blobs (level + 1)).length < (s.blobs (level + 1)).length := by
  obtain ⟨-, hmoves⟩ := iterate_cases h
  obtain ⟨hloop, hbegins⟩ := hbegins
  obtain ⟨start, haddr, hstart, -⟩ := hi.loop level hloop
  obtain ⟨first, hfirst, hlevel, -, hopen, hdefault, hoption⟩ := (hs.loop hstart).first
  have htakes : ∀ {obj}, s.Parses (start + 1) obj t → objects[start + 1]? = some obj →
      (t.blobs (level + 1)).length < (s.blobs (level + 1)).length := by
    intro obj hparses hobj
    rw [hfirst, Option.some.injEq] at hobj
    subst hobj
    exact hlevel ▸ hparses.length_lt hdefault hoption
  obtain hnext | ⟨⟨-, last, hlast, hclosed, hlevel'⟩, hne⟩ := hbegins
  · -- the first iteration
    rw [haddr] at hnext
    cases hmoves with
    | close hobj _ hclose _ _ _ _ =>
      rw [hi.table, hnext, hfirst, Option.some.injEq] at hobj
      rw [← hobj, hopen] at hclose
      cases hclose
    | parse hobj _ _ _ hparses =>
      rw [hi.table] at hobj
      exact htakes (hnext ▸ hparses) (hnext ▸ hobj)
    | again hagain _ _ _ =>
      obtain ⟨last, hlast, -, hclose, -⟩ := hagain
      rw [hi.table, hnext, hfirst, Option.some.injEq] at hlast
      rw [← hlast, hopen] at hclose
      cases hclose
  · -- another iteration
    subst hlevel'
    cases hmoves with
    | close hobj _ _ hdone _ _ _ =>
      rw [hlast, Option.some.injEq] at hobj
      subst hobj
      exact absurd hdone (not_or.mpr ⟨hloop, hne⟩)
    | parse hobj _ hclose _ _ =>
      rw [hlast, Option.some.injEq] at hobj
      rw [← hobj, hclosed] at hclose
      cases hclose
    | again hagain hobj _ hparses =>
      obtain ⟨last', hlast', -, -, haddr', -⟩ := hagain
      rw [hlast, Option.some.injEq] at hlast'
      subst hlast'
      rw [haddr] at haddr'
      subst haddr'
      rw [hi.table] at hobj
      exact htakes hparses hobj

/-! ## Parsing ends -/

omit hs hi

def levelOf (objects : List Asn1Object) (line : ℕ) : ℕ := objects[line]?.elim 0 Asn1Object.level

/-- What is left to do for the loop of a line: all of it if the line is still to come, what is left of
its object if the loop runs, and nothing else. -/
def left (objects : List Asn1Object) (s : Asn1Parser) (line : ℕ) : WithTop ℕ :=
  if s.next ≤ line then ⊤
  else if s.loopAddr (levelOf objects line) = line + 1 then
    ((s.blobs (levelOf objects line + 1)).length : ℕ)
  else 0

/-- What is left to do: for the loops, an outer one before the ones in it, and then for the lines -/
def rank (objects : List Asn1Object) (s : Asn1Parser) :
    Lex (Fin objects.length → WithTop ℕ) ×ₗ ℕ :=
  toLex (toLex fun line => left objects s line, objects.length - s.next)

theorem Loop.levelOf (h : Loop objects line level) : levelOf objects line = level := by
  obtain ⟨obj, hobj, -, -, -, rfl⟩ := h
  rw [Option.mem_def] at hobj
  rw [Asn1Parser.levelOf, hobj]
  rfl

theorem rank_lt_of_next (hnext : s.next < t.next) (hend : t.next ≤ objects.length)
    (hloop : ∀ line < s.next, t.loopAddr (levelOf objects line) = line + 1 →
      s.loopAddr (levelOf objects line) = line + 1 ∧
        (t.blobs (levelOf objects line + 1)).length ≤ (s.blobs (levelOf objects line + 1)).length) :
    rank objects t < rank objects s := by
  refine Prod.Lex.toLex_lt_toLex'.mpr ⟨Pi.toLex_monotone fun line => ?_, fun _ => ?_⟩
  · dsimp only [left]
    by_cases hline : s.next ≤ line
    · rw [if_pos hline]
      exact le_top
    rw [if_neg hline, if_neg (by omega : ¬ t.next ≤ line)]
    split_ifs with ht hs hs
    · exact Nat.cast_le.mpr (hloop line (not_le.mp hline) ht).2
    · exact absurd (hloop line (not_le.mp hline) ht).1 hs
    · exact bot_le
    · exact le_rfl
  · dsimp only
    omega

include hs hi

theorem rank_lt (h : s.iterate = (t, some r)) : rank objects t < rank objects s := by
  have ht := hi.step hs h
  have hlength : ∀ level, s.loopAddr level ≠ 0 →
      (t.blobs (level + 1)).length ≤ (s.blobs (level + 1)).length := fun _ => hi.length_le hs h
  obtain ⟨-, hmoves⟩ := iterate_cases h
  cases hmoves with
  | close hobj _ _ _ hnext _ hloop =>
    refine rank_lt_of_next (lt_of_mem_targets hnext) ht.next.le fun line hline haddr => ?_
    rw [hloop, Function.update_apply] at haddr
    split_ifs at haddr
    exact ⟨haddr, hlength _ (haddr ▸ Nat.succ_ne_zero line)⟩
  | parse hobj _ _ hnext hparses =>
    refine rank_lt_of_next (lt_of_mem_targets hnext) ht.next.le fun line hline haddr => ?_
    obtain hsame | ⟨-, -, -, haddr'⟩ := hparses.loopAddr (levelOf objects line)
    · rw [hsame] at haddr
      exact ⟨haddr, hlength _ (haddr ▸ Nat.succ_ne_zero line)⟩
    · omega
  | again hagain hobj hnext hparses =>
    rw [hi.table] at hobj hnext
    have hinside := hi.inside_again hs hagain hobj
    obtain ⟨start, level, rfl, haddr, hstart, hend, hlevel, -, -, hdefault, hoption⟩ :=
      hi.again hs hagain hobj
    have hfirst := (hs.loop hstart).first_lt
    have hlt := lt_of_mem_targets hnext
    have hsame : ∀ line ≤ start, (t.loopAddr (levelOf objects line) = line + 1 ↔
        s.loopAddr (levelOf objects line) = line + 1) := by
      intro line hline
      obtain hsame | ⟨heq, -, -, haddr'⟩ := hparses.loopAddr (levelOf objects line)
      · rw [hsame]
      · refine ⟨fun h => by omega, fun h => ?_⟩
        have := hinside.level_lt hs hobj (h.trans_ne (Nat.succ_ne_zero line))
        omega
    have hstart_lt : start < objects.length := by
      have := hi.next
      omega
    refine Prod.Lex.toLex_lt_toLex.mpr (.inl ⟨⟨start, hstart_lt⟩, fun line hline => ?_, ?_⟩)
    · -- an outer loop, or one that is over
      have hline : (line : ℕ) < start := hline
      have hs_next : ¬ s.next ≤ line := by omega
      have ht_next : ¬ t.next ≤ line := by omega
      simp only [Pi.toLex_apply, left, hsame line hline.le, if_neg hs_next, if_neg ht_next]
      split_ifs with hrun
      · have hlower := hinside.level_lt hs hobj (hrun.trans_ne (Nat.succ_ne_zero (line : ℕ)))
        have hne : levelOf objects line ≠ level := by
          rintro heq
          rw [heq] at hrun
          omega
        rw [hparses.blobs (by omega)]
      · rfl
    · -- the loop itself
      have hs_next : ¬ s.next ≤ start := by omega
      have ht_next : ¬ t.next ≤ start := by omega
      have hrun := hsame start le_rfl
      rw [hstart.levelOf] at hrun
      simp only [Pi.toLex_apply, left, hstart.levelOf, hrun, haddr, if_true, if_neg hs_next,
        if_neg ht_next]
      rw [← hlevel]
      exact Nat.cast_lt.mpr (hparses.length_lt hdefault hoption)

omit hs hi

theorem inv_create (hs : Sound objects) (hobjects : this.objects = objects)
    (hnext : this.next = 0) (hsuccess : this.success = true)
    (hloop : ∀ level, this.loopAddr level = 0) : Inv objects this :=
  ⟨hobjects, hsuccess, hnext ▸ List.length_pos_iff.mpr hs.nonempty,
    fun level hlevel => absurd (hloop level) hlevel⟩

/-- **With a sound table, parsing ends.** -/
theorem ends_of_sound (hs : Sound objects) (implicit : Bool) (blob : Chunk) :
    Ends { create objects blob with implicit := implicit } := by
  set parser : Asn1Parser := { create objects blob with implicit := implicit } with hparser
  have hinit : Inv objects parser := inv_create hs rfl rfl rfl fun _ => rfl
  have hrun : ∀ {es s}, LTS.Run parser.system es s → Inv objects s := fun h =>
    h.invariant (fun h => h ▸ hinit) fun hi h => hi.step hs h
  refine ⟨?_, fun {es es' s t level} hreach hbegins hne hsteps _ => ?_, fun {es s} h => ?_⟩
  · exact terminates_of_rank (I := Inv objects) (rank objects)
      (fun hi h => ⟨hi.step hs h, rank_lt hs hi h⟩) hinit
  · -- after its first line, an iteration leaves less than before it
    obtain ⟨e, es', rfl⟩ := List.exists_cons_of_ne_nil hne
    obtain ⟨u, hfirst, hrest⟩ := LTS.Steps.of_append (List.singleton_append ▸ hsteps)
    obtain ⟨hiterate, hloop⟩ := LTS.steps_singleton.mp hfirst
    have hi := hrun hreach
    have hless := hi.length_lt hs hiterate hbegins
    have hend : Inv objects t ∧ t.loopAddr level ≠ 0 ∧
        (t.blobs (level + 1)).length < (s.blobs (level + 1)).length := by
      refine hrest.preserves (C := fun _ => True) (I := fun u => Inv objects u ∧
        u.loopAddr level ≠ 0 ∧ (u.blobs (level + 1)).length < (s.blobs (level + 1)).length)
        ?_ (fun _ _ => trivial) ⟨hi.step hs hiterate, hloop, hless⟩
      rintro u e v - ⟨hi, hloop, hless⟩ ⟨hstep, hloop'⟩
      exact ⟨hi.step hs hstep, hloop', (hi.length_le hs hstep hloop).trans_lt hless⟩
    exact hend.2.2
  · have hi := hrun h
    refine ⟨hi.table ▸ hi.next, fun level => ?_, hi.table ▸ hs.level⟩
    rw [hi.table]
    obtain hzero | hloop := Nat.eq_zero_or_pos (s.loopAddr level)
    · have := hi.next
      omega
    · obtain ⟨start, haddr, -, hlt, -⟩ := hi.loop level hloop.ne'
      have := hi.next
      omega

end Asn1Parser

end StrongSwan
