import Mathlib.Data.List.TakeWhile
import StrongSwan.Lib.Scan
import StrongSwan.Plugins.Vici.Grammar

/-!
# Looking up keys in vici messages

`findValue` scans a message once: for the start of each section of a path, one level below the last,
and then for the key. It does not see when it leaves a section it was looking for.

* `sections`: the sections that are open behind a sequence of elements.
* `firstDirect`: the value of the first key that is directly in the sections of a path.
* `Candidate`, `findValue_spec`: a key behind starts of the sections, of which the first is found.
* **`lookup_iff`**: the messages and paths for which that is the right one.
-/

namespace StrongSwan

namespace Vici

/-! ## The scan -/

/-- The rest behind a `read_data8` that fails, or the data of which can not be printed. -/
def behindName (reader : Chunk) : Chunk :=
  match BioReader.readUint8 reader with
  | some (len, reader) =>
    match BioReader.readData reader len.toNat with
    | some (_, reader) => reader
    | none => reader
  | none => reader

/-- The rest behind a `read_data16` that fails. -/
def behindValue (reader : Chunk) : Chunk :=
  match BioReader.readUint16 reader with
  | some (_, reader) => reader
  | none => reader

/-- What is left of an enumerator that returned FALSE. -/
def ParseEnumerator.failed (this : ParseEnumerator) : ParseEnumerator :=
  match BioReader.readUint8 this.reader with
  | none => this
  | some (byte, reader) =>
    let type := ViciType.ofU8 byte
    if !verifyType type this.section_ this.list then { this with reader := reader }
    else
      match type with
      | .sectionStart | .listStart => { this with reader := behindName reader }
      | .keyValue =>
        match readName reader with
        | some (_, reader) => { this with reader := behindValue reader }
        | none => { this with reader := behindName reader }
      | _ => { this with reader := reader }

/-- The enumerator of `find_value`, the variables it stores to, and the number of sections that were
started and not ended. -/
structure Search where
  enumerator : ParseEnumerator
  args : Args
  section_ : U32

/-- The loop that descends into a section; an element has at least one byte. -/
def seekSection (key : Chunk) (keysection : U32) : ℕ → Search → Search
  | 0, this => this
  | fuel + 1, this =>
    match parseEnumerate this.enumerator this.args with
    | none => { this with enumerator := this.enumerator.failed }
    | some (args, enumerator) =>
      match args.type with
      | .sectionStart =>
        if this.section_ + 1 = keysection && args.name = key then
          ⟨enumerator, args, this.section_ + 1⟩
        else seekSection key keysection fuel ⟨enumerator, args, this.section_ + 1⟩
      | .sectionEnd => seekSection key keysection fuel ⟨enumerator, args, this.section_ - 1⟩
      | .end_ => ⟨enumerator, args, this.section_⟩
      | _ => seekSection key keysection fuel ⟨enumerator, args, this.section_⟩

/-- The loop over the sections of a path, up to the key behind the last dot. -/
def descend (size : ℕ) : ℕ → Chunk → U32 → Search → Chunk × U32 × Search
  | 0, next, keysection, this => (next, keysection, this)
  | fuel + 1, next, keysection, this =>
    match next.span (· ≠ 0x2e) with
    | (key, _ :: next) =>
      descend size fuel next (keysection + 1) (seekSection key (keysection + 1) size this)
    | (_, []) => (next, keysection, this)

/-- The loop that looks for the key in the current section. -/
def seekKey (key : Chunk) (keysection : U32) : ℕ → Search → Option Chunk
  | 0, _ => none
  | fuel + 1, this =>
    match parseEnumerate this.enumerator this.args with
    | none => none
    | some (args, enumerator) =>
      match args.type with
      | .keyValue =>
        if this.section_ = keysection && key = args.name then some args.value
        else seekKey key keysection fuel ⟨enumerator, args, this.section_⟩
      | .sectionStart => seekKey key keysection fuel ⟨enumerator, args, this.section_ + 1⟩
      | .sectionEnd => seekKey key keysection fuel ⟨enumerator, args, this.section_ - 1⟩
      | .end_ => none
      | _ => seekKey key keysection fuel ⟨enumerator, args, this.section_⟩

/-- `find_value`, with the text that `vsnprintf` prints, and what is in the variables before. -/
def findValue (encoding text : Chunk) (args : Args) : Option Chunk :=
  let buf := text.take 127
  let size := encoding.length + 1
  let (key, keysection, search) :=
    descend size (buf.length + 1) buf 0 ⟨createEnumerator encoding, args, 0⟩
  seekKey key keysection size search

/-- `vget_str`; the default is returned as well if the value can not be printed. -/
def getStr (encoding : Chunk) (default : Option Chunk) (text : Chunk) (args : Args) :
    Option Chunk :=
  match findValue encoding text args with
  | some value => if chunkPrintable value then some value else default
  | none => default

def getValue (encoding default text : Chunk) (args : Args) : Chunk :=
  match findValue encoding text args with
  | some value => value
  | none => default

/-! ## Where keys are -/

/-- The sections that are open behind an element. -/
def enter (stack : List Chunk) : Element → List Chunk
  | .sectionStart name => stack ++ [name]
  | .sectionEnd => stack.dropLast
  | _ => stack

/-- The sections that are open behind elements, from the root. -/
def sections (es : List Element) : List Chunk := es.foldl enter []

/-- The value of the first key of a name that is directly in the sections of a path, behind elements
within other sections. -/
def firstDirectFrom (path : List Chunk) (key : Chunk) : List Chunk → List Element → Option Chunk
  | _, [] => none
  | stack, .keyValue name value :: es =>
    if stack = path ∧ name = key then some value else firstDirectFrom path key stack es
  | stack, e :: es => firstDirectFrom path key (enter stack e) es

/-- The value of the first key of a name that is directly in the sections of a path. -/
def firstDirect (path : List Chunk) (key : Chunk) (es : List Element) : Option Chunk :=
  firstDirectFrom path key [] es

/-- Among elements there are starts of the sections of a path, each behind and one below the one
before. That the sections are still open is not asked for. -/
inductive Passed : List Chunk → List Element → Prop
  | nil (es : List Element) : Passed [] es
  | snoc {path : List Chunk} {es : List Element} (name : Chunk) (more : List Element) :
    Passed path es → (sections es).length = path.length →
    Passed (path ++ [name]) (es ++ .sectionStart name :: more)

/-- A key of the name, as deep as the path is long, behind starts of the sections of the path. -/
def Candidate (path : List Chunk) (key : Chunk) (es before : List Element) (value : Chunk) : Prop :=
  (∃ behind, es = before ++ .keyValue key value :: behind) ∧
    (sections before).length = path.length ∧ Passed path before

def pathText : List Chunk → Chunk → Chunk
  | [], key => key
  | name :: path, key => name ++ 0x2e :: pathText path key

/-! ## The loops on elements -/

/-- The number of open sections behind an element. -/
def Element.move (section_ : U32) : Element → U32
  | sectionStart _ => section_ + 1
  | sectionEnd => section_ - 1
  | _ => section_

variable {level level' : Level}

theorem Level.section_next {e : Element} (h : level.next e = some level') :
    level'.section_ = e.move level.section_ := by
  unfold Level.next at h
  split_ifs at h
  cases e with
  | sectionStart | sectionEnd | keyValue | listStart | listItem | listEnd =>
    cases h
    rfl

theorem Level.section_ne_zero (h : level.next .sectionEnd = some level') :
    level.section_ ≠ 0 := by
  unfold Level.next at h
  split_ifs at h with hverify
  intro hzero
  rw [hzero] at hverify
  cases hlist : level.list <;> rw [hlist] at hverify <;> cases hverify

theorem toNat_move {e : Element} (h : level.next e = some level')
    {stack : List Chunk} (hdepth : level.section_.toNat = stack.length)
    (hlt : stack.length + 1 < 2 ^ 32) :
    (e.move level.section_).toNat = (enter stack e).length := by
  have hone : (1 : U32).toNat = 1 := rfl
  cases e with
  | sectionStart name =>
    rw [Element.move, enter, List.length_append, List.length_singleton, BitVec.toNat_add, hdepth, hone]
    omega
  | sectionEnd =>
    have hne := Level.section_ne_zero h
    rw [Element.move, enter, List.length_dropLast, ← hdepth]
    bv_omega
  | keyValue | listStart | listItem | listEnd => exact hdepth

theorem length_enter_le (stack : List Chunk) (e : Element) :
    (enter stack e).length ≤ stack.length + 1 := by
  cases e with
  | sectionStart => exact List.length_append.le
  | sectionEnd =>
    rw [enter, List.length_dropLast]
    omega
  | keyValue | listStart | listItem | listEnd => exact Nat.le_succ _

/-- A search has the elements before it, within sections. -/
structure Search.At (this : Search) (stack : List Chunk) (es : List Element) : Prop where
  reader : this.enumerator.reader = es.flatMap Element.encode
  fits : ∀ e ∈ es, e.Fits
  path : ∃ level, this.enumerator.level.path es = some level
  depth : this.enumerator.section_.toNat = stack.length
  section_ : this.section_ = this.enumerator.section_
  lt : stack.length + es.length < 2 ^ 32

namespace Search

variable {this : Search} {stack : List Chunk} {es : List Element}

theorem At.nil (h : this.At stack []) : parseEnumerate this.enumerator this.args =
    some ({ this.args with type := .end_ }, this.enumerator) := by
  have hnil : BioReader.readUint8 this.enumerator.reader = none := by
    rw [h.reader]
    rfl
  rw [parseEnumerate, hnil]

theorem At.cons {e : Element} (h : this.At stack (e :: es)) : ∃ args' enumerator',
    args'.element = some e ∧
      parseEnumerate this.enumerator this.args = some (args', enumerator') ∧
      At ⟨enumerator', args', e.move this.section_⟩ (enter stack e) es := by
  have hlt := h.lt
  rw [List.length_cons] at hlt
  obtain ⟨last, hpath⟩ := h.path
  obtain ⟨level, hnext, hpath⟩ := Option.bind_eq_some_iff.mp hpath
  have hdepth := toNat_move hnext h.depth (by omega)
  have hle := length_enter_le stack e
  obtain ⟨args', helement, hparse⟩ := parseEnumerate_encode (h.fits e List.mem_cons_self) hnext
    (es.flatMap Element.encode) this.args
  have hthis : this.enumerator = ⟨e.encode ++ es.flatMap Element.encode,
      this.enumerator.level.section_, this.enumerator.level.list⟩ := by
    rw [← List.flatMap_cons, ← h.reader]
    rfl
  refine ⟨args', _, helement, (congrArg (parseEnumerate · this.args) hthis).trans hparse, ?_⟩
  exact ⟨rfl, List.forall_mem_of_forall_mem_cons h.fits, ⟨last, hpath⟩,
    (congrArg BitVec.toNat (Level.section_next hnext)).trans hdepth,
    (congrArg e.move h.section_).trans (Level.section_next hnext).symm, by omega⟩

end Search

theorem type_of_element {args : Args} {e : Element} (h : args.element = some e) : args.type = e.type :=
  congrArg Prod.fst (Args.seen_eq h)

theorem name_of_sectionStart {args : Args} {name : Chunk}
    (h : args.element = some (.sectionStart name)) : args.name = name := by
  rw [Args.element, type_of_element h] at h
  cases h
  rfl

theorem of_keyValue {args : Args} {name value : Chunk}
    (h : args.element = some (.keyValue name value)) : args.name = name ∧ args.value = value := by
  rw [Args.element, type_of_element h] at h
  cases h
  exact ⟨rfl, rfl⟩

def IsSection (key : Chunk) (depth : ℕ) (stack : List Chunk) (e : Element) : Prop :=
  e = .sectionStart key ∧ stack.length + 1 = depth

/-- A key of a name, at a depth. -/
def IsKey (key : Chunk) (depth : ℕ) (stack : List Chunk) (e : Element) : Prop :=
  (∃ value, e = .keyValue key value) ∧ stack.length = depth

section Loops

variable (key : Chunk) (keysection : U32) {this : Search} {stack : List Chunk} {es : List Element}
  {e : Element} {args' : Args} {enumerator' : ParseEnumerator}

theorem seekSection_cons (hparse : parseEnumerate this.enumerator this.args = some (args', enumerator'))
    (helement : args'.element = some e) (hdepth : this.section_.toNat = stack.length)
    (hlt : stack.length + 1 < 2 ^ 32) (fuel : ℕ) :
    (IsSection key keysection.toNat stack e ∧ seekSection key keysection (fuel + 1) this =
        ⟨enumerator', args', e.move this.section_⟩) ∨
      (¬IsSection key keysection.toNat stack e ∧ seekSection key keysection (fuel + 1) this =
        seekSection key keysection fuel ⟨enumerator', args', e.move this.section_⟩) := by
  have htype := type_of_element helement
  rw [seekSection, hparse]
  dsimp only
  rw [htype]
  cases e with
  | sectionStart name =>
    have hone : (1 : U32).toNat = 1 := rfl
    have hsection : this.section_ + 1 = keysection ↔ stack.length + 1 = keysection.toNat := by
      rw [← BitVec.toNat_inj, BitVec.toNat_add, hdepth, hone, Nat.mod_eq_of_lt hlt]
    have hname := name_of_sectionStart helement
    have hiff : (decide (this.section_ + 1 = keysection) && decide (args'.name = key)) = true ↔
        IsSection key keysection.toNat stack (.sectionStart name) := by
      rw [Bool.and_eq_true, decide_eq_true_iff, decide_eq_true_iff, hsection, hname, IsSection,
        Element.sectionStart.injEq, and_comm]
    by_cases his : IsSection key keysection.toNat stack (.sectionStart name)
    · exact .inl ⟨his, if_pos (hiff.mpr his)⟩
    · exact .inr ⟨his, if_neg (mt hiff.mp his)⟩
  | sectionEnd | keyValue | listStart | listItem | listEnd => exact .inr ⟨nofun, rfl⟩

/-- **The first loop stops behind the first start of a section of the name at the depth**, or at the end
of the message. -/
theorem seekSection_spec (h : this.At stack es) {fuel : ℕ} (hfuel : es.length < fuel) :
    (∃ before e behind, Scan.First enter (IsSection key keysection.toNat) stack es before e behind ∧
        (seekSection key keysection fuel this).At (before.foldl enter stack ++ [key]) behind) ∨
      (Scan.Absent enter (IsSection key keysection.toNat) stack es ∧
        ∃ stack', (seekSection key keysection fuel this).At stack' []) := by
  induction es generalizing this stack fuel with
  | nil =>
    obtain ⟨fuel, rfl⟩ := Nat.exists_eq_succ_of_ne_zero (Nat.ne_of_gt hfuel)
    refine .inr ⟨Scan.absent_nil, stack, ?_⟩
    rw [seekSection, h.nil]
    exact ⟨h.reader, h.fits, h.path, h.depth, h.section_, h.lt⟩
  | cons e es ih =>
    obtain ⟨fuel, rfl⟩ := Nat.exists_eq_succ_of_ne_zero (Nat.ne_of_gt (Nat.zero_lt_of_lt hfuel))
    obtain ⟨args', enumerator', helement, hparse, hnext⟩ := h.cons
    have hdepth : this.section_.toNat = stack.length := (congrArg BitVec.toNat h.section_).trans h.depth
    have hlt := h.lt
    rw [List.length_cons] at hlt
    rcases seekSection_cons key keysection hparse helement hdepth (by omega) fuel with
      ⟨his, heq⟩ | ⟨hnot, heq⟩
    · obtain ⟨rfl, -⟩ := id his
      exact .inl ⟨[], _, es, .head his, heq ▸ hnext⟩
    · rw [heq]
      rcases ih hnext (Nat.lt_of_succ_lt_succ hfuel) with
        ⟨before, e', behind, hfirst, hat⟩ | ⟨habsent, hat⟩
      · exact .inl ⟨e :: before, e', behind, hfirst.cons hnot, hat⟩
      · exact .inr ⟨habsent.cons hnot, hat⟩

theorem seekKey_cons (hparse : parseEnumerate this.enumerator this.args = some (args', enumerator'))
    (helement : args'.element = some e) (hdepth : this.section_.toNat = stack.length) (fuel : ℕ) :
    (∃ value, e = .keyValue key value ∧ stack.length = keysection.toNat ∧
        seekKey key keysection (fuel + 1) this = some value) ∨
      (¬IsKey key keysection.toNat stack e ∧ seekKey key keysection (fuel + 1) this =
        seekKey key keysection fuel ⟨enumerator', args', e.move this.section_⟩) := by
  have htype := type_of_element helement
  rw [seekKey, hparse]
  dsimp only
  rw [htype]
  cases e with
  | keyValue name value =>
    obtain ⟨hname, hvalue⟩ := of_keyValue helement
    have hsection : this.section_ = keysection ↔ stack.length = keysection.toNat := by
      rw [← BitVec.toNat_inj, hdepth]
    have hiff : (decide (this.section_ = keysection) && decide (key = args'.name)) = true ↔
        stack.length = keysection.toNat ∧ key = name := by
      rw [Bool.and_eq_true, decide_eq_true_iff, decide_eq_true_iff, hsection, hname]
    by_cases his : stack.length = keysection.toNat ∧ key = name
    · obtain ⟨hlen, rfl⟩ := id his
      refine .inl ⟨value, rfl, hlen, ?_⟩
      exact (if_pos (hiff.mpr his)).trans (congrArg some hvalue)
    · refine .inr ⟨?_, if_neg (mt hiff.mp his)⟩
      rintro ⟨⟨value', heq⟩, hlen⟩
      exact his ⟨hlen, (Element.keyValue.inj heq).1.symm⟩
  | sectionStart | sectionEnd | listStart | listItem | listEnd =>
    refine .inr ⟨?_, rfl⟩
    rintro ⟨⟨_, heq⟩, -⟩
    cases heq

/-- **The last loop finds the first key of the name at the depth.** -/
theorem seekKey_spec (h : this.At stack es) {fuel : ℕ} (hfuel : es.length < fuel) :
    (∃ before value behind,
        Scan.First enter (IsKey key keysection.toNat) stack es before (.keyValue key value) behind ∧
        seekKey key keysection fuel this = some value) ∨
      (Scan.Absent enter (IsKey key keysection.toNat) stack es ∧
        seekKey key keysection fuel this = none) := by
  induction es generalizing this stack fuel with
  | nil =>
    obtain ⟨fuel, rfl⟩ := Nat.exists_eq_succ_of_ne_zero (Nat.ne_of_gt hfuel)
    refine .inr ⟨Scan.absent_nil, ?_⟩
    rw [seekKey, h.nil]
  | cons e es ih =>
    obtain ⟨fuel, rfl⟩ := Nat.exists_eq_succ_of_ne_zero (Nat.ne_of_gt (Nat.zero_lt_of_lt hfuel))
    obtain ⟨args', enumerator', helement, hparse, hnext⟩ := h.cons
    have hdepth : this.section_.toNat = stack.length := (congrArg BitVec.toNat h.section_).trans h.depth
    rcases seekKey_cons key keysection hparse helement hdepth fuel with
      ⟨value, rfl, hlen, heq⟩ | ⟨hnot, heq⟩
    · exact .inl ⟨[], value, es, .head ⟨⟨value, rfl⟩, hlen⟩, heq⟩
    · rw [heq]
      rcases ih hnext (Nat.lt_of_succ_lt_succ hfuel) with
        ⟨before, value, behind, hfirst, hseek⟩ | ⟨habsent, hseek⟩
      · exact .inl ⟨e :: before, value, behind, hfirst.cons hnot, hseek⟩
      · exact .inr ⟨habsent.cons hnot, hseek⟩

end Loops

/-! ## The sections that are passed -/

theorem sections_append (es es' : List Element) :
    sections (es ++ es') = es'.foldl enter (sections es) := List.foldl_append

variable {path : List Chunk} {es : List Element}

theorem Passed.append (h : Passed path es)
    (more : List Element) : Passed path (es ++ more) := by
  cases h with
  | nil => exact .nil _
  | snoc name tail hpassed hlen =>
    rw [List.append_assoc, List.cons_append]
    exact .snoc name (tail ++ more) hpassed hlen

theorem Passed.of_snoc {name : Chunk}
    (h : Passed (path ++ [name]) es) : ∃ before behind, es = before ++ .sectionStart name :: behind ∧
      Passed path before ∧ (sections before).length = path.length := by
  generalize hpath : path ++ [name] = path' at h
  cases h with
  | nil => simp at hpath
  | snoc name' more hpassed hlen =>
    obtain ⟨rfl, hname⟩ := List.append_inj' hpath rfl
    obtain rfl := List.singleton_inj.mp hname
    exact ⟨_, more, rfl, hpassed, hlen⟩

theorem exists_between {before behind q r : List Element} (heq : before ++ behind = q ++ r)
    (hle : before.length ≤ q.length) : ∃ m, q = before ++ m ∧ behind = m ++ r := by
  rcases List.append_eq_append_iff.mp heq with ⟨m, rfl, rfl⟩ | ⟨m, rfl, rfl⟩
  · exact ⟨m, rfl, rfl⟩
  · have hnil : m = [] := by simpa using hle
    exact ⟨[], by simp [hnil]⟩

/-- How far the scan of a message got: behind the first place where the sections were passed, or to
the end if there is none. -/
def Descended (es : List Element) (path : List Chunk) (this : Search) : Prop :=
  (∃ before behind, es = before ++ behind ∧ this.At (sections before) behind ∧ Passed path before ∧
      ∀ before' behind', es = before' ++ behind' → Passed path before' →
        before.length ≤ before'.length) ∨
    ((∀ before behind, es = before ++ behind → ¬Passed path before) ∧ ∃ stack, this.At stack [])

/-- **One section of the path.** -/
theorem Descended.step {this : Search} {size : ℕ}
    (h : Descended es path this) (hsize : es.length < size) (name : Chunk) {keysection : U32}
    (hkeysection : keysection.toNat = path.length + 1) :
    Descended es (path ++ [name]) (seekSection name keysection size this) := by
  rcases h with ⟨before, behind, rfl, hat, hpassed, hleast⟩ | ⟨hnone, stack, hat⟩
  · rw [List.length_append] at hsize
    rcases seekSection_spec name keysection hat (by omega : behind.length < size) with
      ⟨mid, e, behind', hfirst, hat'⟩ | ⟨habsent, hat'⟩
    · obtain ⟨rfl, hlen⟩ := hfirst.holds
      obtain rfl := hfirst.eq
      rw [← sections_append, hkeysection] at hlen
      refine .inl ⟨before ++ mid ++ [.sectionStart name], behind', by simp, ?_, ?_, ?_⟩
      · rw [sections_append (before ++ mid), sections_append]
        exact hat'
      · exact .snoc name [] (hpassed.append mid) (Nat.succ_inj.mp hlen)
      · intro before' behind'' heq hpassed'
        obtain ⟨q, m, rfl, hq, hqlen⟩ := hpassed'.of_snoc
        rw [List.append_assoc, List.cons_append] at heq
        obtain ⟨m', rfl, hbehind⟩ := exists_between heq (hleast q _ heq hq)
        rw [sections_append] at hqlen
        have hle := hfirst.le m' _ _ hbehind ⟨rfl, by rw [hqlen, hkeysection]⟩
        simp only [List.length_append, List.length_cons, List.length_nil]
        omega
    · refine .inr ⟨?_, hat'⟩
      intro before' behind'' heq hpassed'
      obtain ⟨q, m, rfl, hq, hqlen⟩ := hpassed'.of_snoc
      rw [List.append_assoc, List.cons_append] at heq
      obtain ⟨m', rfl, hbehind⟩ := exists_between heq (hleast q _ heq hq)
      rw [sections_append] at hqlen
      exact habsent m' _ _ hbehind ⟨rfl, by rw [hqlen, hkeysection]⟩
  · refine .inr ⟨?_, ?_⟩
    · intro before behind heq hpassed
      obtain ⟨q, m, rfl, hq, -⟩ := hpassed.of_snoc
      rw [List.append_assoc] at heq
      exact hnone q _ heq hq
    · rcases seekSection_spec name keysection hat (Nat.zero_lt_of_lt hsize) with
        ⟨mid, e, behind, hfirst, -⟩ | ⟨-, hat'⟩
      · exact absurd hfirst.eq (by simp)
      · exact hat'

theorem span_dot {name : Chunk} (h : 0x2e ∉ name) (rest : Chunk) :
    (name ++ 0x2e :: rest).span (· ≠ 0x2e) = (name, 0x2e :: rest) := by
  have hall : ∀ c ∈ name, decide (c ≠ 0x2e) = true := fun c hc =>
    decide_eq_true fun heq => h (heq ▸ hc)
  rw [List.span_eq_takeWhile_dropWhile, List.takeWhile_append_of_pos hall,
    List.dropWhile_append_of_pos hall]
  simp

theorem span_no_dot {key : Chunk} (h : 0x2e ∉ key) : key.span (· ≠ 0x2e) = (key, []) := by
  have hall : ∀ c ∈ key, decide (c ≠ 0x2e) = true := fun c hc =>
    decide_eq_true fun heq => h (heq ▸ hc)
  rw [List.span_eq_takeWhile_dropWhile, List.takeWhile_eq_self_iff.mpr hall,
    List.dropWhile_eq_nil_iff.mpr hall]

/-- **The loop over the sections of a path.** -/
theorem descend_spec {size : ℕ} (hsize : es.length < size) {key : Chunk}
    (hkey : 0x2e ∉ key) (hpath : ∀ name ∈ path, 0x2e ∉ name) {done : List Chunk}
    {keysection : U32} (hkeysection : keysection.toNat = done.length)
    (hlt : done.length + path.length < 2 ^ 32) {this : Search} (h : Descended es done this) {fuel : ℕ}
    (hfuel : path.length < fuel) : ∃ keysection' this',
      descend size fuel (pathText path key) keysection this = (key, keysection', this') ∧
        keysection'.toNat = (done ++ path).length ∧ Descended es (done ++ path) this' := by
  induction path generalizing done keysection this fuel with
  | nil =>
    obtain ⟨fuel, rfl⟩ := Nat.exists_eq_succ_of_ne_zero (Nat.ne_of_gt hfuel)
    refine ⟨keysection, this, ?_, by rwa [List.append_nil], by rwa [List.append_nil]⟩
    rw [pathText, descend, span_no_dot hkey]
  | cons name path ih =>
    obtain ⟨fuel, rfl⟩ := Nat.exists_eq_succ_of_ne_zero (Nat.ne_of_gt (Nat.zero_lt_of_lt hfuel))
    obtain ⟨hname, hpath⟩ := List.forall_mem_cons.mp hpath
    rw [List.length_cons] at hlt
    have hone : (1 : U32).toNat = 1 := rfl
    have hnext : (keysection + 1).toNat = done.length + 1 := by
      rw [BitVec.toNat_add, hkeysection, hone, Nat.mod_eq_of_lt (by omega)]
    have hlen : (keysection + 1).toNat = (done ++ [name]).length := by
      rw [hnext, List.length_append, List.length_singleton]
    obtain ⟨keysection', this', heq, hlen', hdescended⟩ := ih hpath hlen
      (by rw [List.length_append, List.length_singleton]; omega) (h.step hsize name hnext)
      (Nat.lt_of_succ_lt_succ hfuel)
    rw [List.append_assoc, List.singleton_append] at hlen' hdescended
    refine ⟨keysection', this', ?_, hlen', hdescended⟩
    rw [pathText, descend, span_dot hname]
    exact heq

theorem length_lt_pathText (path : List Chunk) (key : Chunk) :
    path.length < (pathText path key).length + 1 := by
  induction path with
  | nil => exact Nat.succ_pos _
  | cons name path ih =>
    rw [pathText, List.length_cons, List.length_append, List.length_cons]
    omega

theorem findValue_spec (hfits : ∀ e ∈ es, e.Fits) (hbalanced : Balanced es)
    (hlt : es.length < 2 ^ 32) (hpath : ∀ name ∈ path, 0x2e ∉ name) {key : Chunk}
    (hkey : 0x2e ∉ key) (hbuf : (pathText path key).length ≤ 127) (args : Args) :
    (∃ before value, Candidate path key es before value ∧
        (∀ before' value', Candidate path key es before' value' →
          before.length ≤ before'.length) ∧
        findValue (es.flatMap Element.encode) (pathText path key) args = some value) ∨
      ((∀ before value, ¬Candidate path key es before value) ∧
        findValue (es.flatMap Element.encode) (pathText path key) args = none) := by
  have hsize : es.length < (es.flatMap Element.encode).length + 1 :=
    Nat.lt_succ_of_le (length_le_flatMap_encode es)
  have hat : Search.At ⟨createEnumerator (es.flatMap Element.encode), args, 0⟩ (sections []) es :=
    ⟨rfl, hfits, ⟨_, hbalanced.path ((Nat.zero_add _).trans_lt hlt)⟩, rfl, rfl,
      (Nat.zero_add _).trans_lt hlt⟩
  have hstart : Descended es [] ⟨createEnumerator (es.flatMap Element.encode), args, 0⟩ :=
    .inl ⟨[], es, rfl, hat, .nil _, fun _ _ _ _ => Nat.zero_le _⟩
  have hlen := length_lt_pathText path key
  have hzero : (0 : U32).toNat = ([] : List Chunk).length := rfl
  obtain ⟨keysection, this, hdescend, hkeysection, hdescended⟩ :=
    descend_spec hsize hkey hpath hzero (by rw [List.length_nil]; omega) hstart hlen
  have hfind : findValue (es.flatMap Element.encode) (pathText path key) args =
      seekKey key keysection ((es.flatMap Element.encode).length + 1) this := by
    rw [findValue, List.take_of_length_le hbuf]
    dsimp only
    rw [hdescend]
  rw [hfind]
  rw [List.nil_append] at hkeysection hdescended
  rcases hdescended with ⟨before, behind, rfl, hat, hpassed, hleast⟩ | ⟨hnone, stack, hat⟩
  · rw [List.length_append] at hsize
    have hbehind := (Nat.le_add_left _ _).trans_lt hsize
    rcases seekKey_spec key keysection hat hbehind with
      ⟨mid, value, behind', hfirst, hseek⟩ | ⟨habsent, hseek⟩
    · obtain rfl := hfirst.eq
      have hholds := hfirst.holds.2
      rw [← sections_append, hkeysection] at hholds
      refine .inl ⟨before ++ mid, value, ⟨⟨behind', by simp⟩, hholds, hpassed.append mid⟩, ?_, hseek⟩
      rintro before' value' ⟨⟨behind'', heq⟩, hdepth, hpassed'⟩
      obtain ⟨m, rfl, hbehind⟩ := exists_between heq (hleast before' _ heq hpassed')
      rw [sections_append] at hdepth
      have hle := hfirst.le m _ _ hbehind ⟨⟨value', rfl⟩, hdepth.trans hkeysection.symm⟩
      rw [List.length_append, List.length_append]
      omega
    · refine .inr ⟨?_, hseek⟩
      rintro before' value' ⟨⟨behind'', heq⟩, hdepth, hpassed'⟩
      obtain ⟨m, rfl, hbehind⟩ := exists_between heq (hleast before' _ heq hpassed')
      rw [sections_append] at hdepth
      exact habsent m _ _ hbehind ⟨⟨value', rfl⟩, hdepth.trans hkeysection.symm⟩
  · refine .inr ⟨fun before value hcandidate => ?_, ?_⟩
    · obtain ⟨⟨behind, heq⟩, -, hpassed⟩ := hcandidate
      exact hnone before _ heq hpassed
    · rcases seekKey_spec key keysection hat (Nat.succ_pos _) with
        ⟨mid, value, behind, hfirst, -⟩ | ⟨-, hseek⟩
      · exact absurd hfirst.eq (by simp)
      · exact hseek

/-! ## The keys that are found -/

theorem passed_sections (es : List Element) : Passed (sections es) es := by
  induction es using List.reverseRecOn with
  | nil => exact .nil _
  | append_singleton es e ih =>
    rw [sections_append]
    cases e with
    | sectionStart name => exact .snoc name [] ih rfl
    | sectionEnd =>
      change Passed (sections es).dropLast _
      rcases List.eq_nil_or_concat (sections es) with hnil | ⟨path, name, hsections⟩
      · rw [hnil]
        exact .nil _
      · rw [List.concat_eq_append] at hsections
        rw [hsections] at ih ⊢
        rw [List.dropLast_concat]
        obtain ⟨before, behind, rfl, hpassed, -⟩ := ih.of_snoc
        rw [List.append_assoc]
        exact hpassed.append _
    | keyValue | listStart | listItem | listEnd => exact ih.append _

theorem exists_candidate {key value : Chunk}
    (h : firstDirect path key es = some value) :
    ∃ before value, Candidate path key es before value := by
  have hfrom (before rest : List Element)
      (hrest : firstDirectFrom path key (sections before) rest = some value) :
      ∃ before' value', Candidate path key (before ++ rest) before' value' := by
    induction rest generalizing before with
    | nil => cases hrest
    | cons e rest ih =>
      have hnext (hgo : firstDirectFrom path key (enter (sections before) e) rest = some value) :
          ∃ before' value', Candidate path key (before ++ e :: rest) before' value' := by
        have hmore := ih (before ++ [e]) (by rwa [sections_append])
        rwa [List.append_assoc, List.singleton_append] at hmore
      cases e with
      | keyValue name value' =>
        rw [firstDirectFrom] at hrest
        split_ifs at hrest with his
        · obtain ⟨rfl, rfl⟩ := his
          exact ⟨before, value', ⟨rest, rfl⟩, rfl, passed_sections before⟩
        · exact hnext hrest
      | sectionStart | sectionEnd | listStart | listItem | listEnd => exact hnext hrest
  exact hfrom [] es h

/-! ## The value that is returned -/

/-- `get_value` and `get_str` return the value of the first key that is directly in the sections of the
path, and the default if there is none. -/
def LooksUp (es : List Element) (path : List Chunk) (key : Chunk) (args : Args) : Prop :=
  (∀ default, getValue (es.flatMap Element.encode) default (pathText path key) args =
      (firstDirect path key es).getD default) ∧
    ∀ default, getStr (es.flatMap Element.encode) default (pathText path key) args =
      (firstDirect path key es).or default

/-- The first candidate has the value of the first key that is directly in the sections of the path, and
that can be printed. -/
structure Leads (es : List Element) (path : List Chunk) (key : Chunk) : Prop where
  candidate : ∀ before value, Candidate path key es before value →
    (∀ before' value', Candidate path key es before' value' → before.length ≤ before'.length) →
    firstDirect path key es = some value
  printable : ∀ value, firstDirect path key es = some value → chunkPrintable value = true

theorem getD_inj {o o' : Option Chunk} (h : ∀ default, o.getD default = o'.getD default) : o = o' := by
  cases o with
  | none =>
    cases o' with
    | none => rfl
    | some value =>
      have hcons := h (0 :: value)
      simp at hcons
  | some value =>
    cases o' with
    | none =>
      have hcons := h (0 :: value)
      simp at hcons
    | some value' => exact congrArg some (h [])

theorem looksUp_iff_findValue (es : List Element) (path : List Chunk) (key : Chunk) (args : Args) :
    LooksUp es path key args ↔
      findValue (es.flatMap Element.encode) (pathText path key) args = firstDirect path key es ∧
        ∀ value, firstDirect path key es = some value → chunkPrintable value = true := by
  unfold LooksUp getValue getStr
  cases findValue (es.flatMap Element.encode) (pathText path key) args with
  | none =>
    refine ⟨fun h => ?_, fun ⟨heq, _⟩ => ?_⟩
    · have hnone := getD_inj (o := none) h.1
      exact ⟨hnone, fun value hvalue => by rw [← hnone] at hvalue; cases hvalue⟩
    · rw [← heq]
      exact ⟨fun _ => rfl, fun _ => rfl⟩
  | some value =>
    dsimp only
    refine ⟨fun h => ?_, fun ⟨heq, hprint⟩ => ?_⟩
    · have hsome := getD_inj (o := some value) h.1
      refine ⟨hsome, fun value' hvalue => ?_⟩
      have hstr := h.2 none
      rw [hvalue] at hstr hsome
      cases hsome
      by_contra hnot
      rw [if_neg hnot] at hstr
      cases hstr
    · rw [← heq]
      refine ⟨fun _ => rfl, fun _ => ?_⟩
      rw [if_pos (hprint value heq.symm)]
      rfl

/-- **A path leads to the right key** if and only if the first key of the name that is as deep as the
path, behind starts of its sections, has the value of the first one that is directly in them, which can
be printed. -/
theorem lookup_iff {es : List Element} (hfits : ∀ e ∈ es, e.Fits) (hbalanced : Balanced es)
    (hlt : es.length < 2 ^ 32) {path : List Chunk} (hpath : ∀ name ∈ path, 0x2e ∉ name) {key : Chunk}
    (hkey : 0x2e ∉ key) (hbuf : (pathText path key).length ≤ 127) (args : Args) :
    LooksUp es path key args ↔ Leads es path key := by
  rw [looksUp_iff_findValue]
  rcases findValue_spec hfits hbalanced hlt hpath hkey hbuf args with
    ⟨before, value, hcandidate, hleast, hfind⟩ | ⟨hnone, hfind⟩
  · rw [hfind]
    refine ⟨fun ⟨heq, hprint⟩ => ⟨fun before' value' hcandidate' hleast' => ?_, hprint⟩,
      fun h => ⟨(h.candidate before value hcandidate hleast).symm, h.printable⟩⟩
    obtain ⟨⟨behind, hes⟩, -, -⟩ := id hcandidate
    obtain ⟨⟨behind', hes'⟩, -, -⟩ := id hcandidate'
    have hlen : before.length = before'.length := Nat.le_antisymm
      (hleast before' value' hcandidate') (hleast' before value hcandidate)
    obtain ⟨-, hsame⟩ := List.append_inj (hes.symm.trans hes') hlen
    obtain ⟨-, rfl⟩ := Element.keyValue.inj (List.cons.inj hsame).1
    exact heq.symm
  · rw [hfind]
    have hdirect : firstDirect path key es = none := by
      by_contra hne
      obtain ⟨value, hvalue⟩ := Option.ne_none_iff_exists'.mp hne
      obtain ⟨before, value', hcandidate⟩ := exists_candidate hvalue
      exact hnone before value' hcandidate
    refine ⟨fun ⟨_, hprint⟩ => ⟨fun before value hcandidate => ?_, hprint⟩, fun h =>
      ⟨hdirect.symm, h.printable⟩⟩
    exact absurd hcandidate (hnone before value)

/-- A key in the only section is found. -/
theorem lookup_iff_section : LooksUp [.sectionStart [0x61], .keyValue [0x6b] [0x76], .sectionEnd] [[0x61]]
    [0x6b] ⟨.start, [], []⟩ ↔ Leads [.sectionStart [0x61], .keyValue [0x6b] [0x76], .sectionEnd] [[0x61]]
    [0x6b] := by
  have hstart : (Element.sectionStart [0x61]).Fits := ⟨by decide, rfl, by decide⟩
  have hkey : (Element.keyValue [0x6b] [0x76]).Fits := ⟨by decide, rfl, by decide⟩
  have hend : Element.sectionEnd.Fits := ⟨by decide, rfl, by decide⟩
  have hfits : ∀ e ∈ [Element.sectionStart [0x61], .keyValue [0x6b] [0x76], .sectionEnd], e.Fits :=
    List.forall_mem_cons.mpr ⟨hstart, List.forall_mem_cons.mpr ⟨hkey, List.forall_mem_singleton.mpr hend⟩⟩
  exact lookup_iff hfits (.section_ _ (.keyValue _ _ .nil) .nil) (by decide) (by decide) (by decide)
    (by decide) _

/-- The key is in the second section, not in the first one, which is ended when it is found. -/
theorem not_looksUp : ¬LooksUp
    [.sectionStart [0x61], .sectionEnd, .sectionStart [0x62], .keyValue [0x6b] [0x76], .sectionEnd]
    [[0x61]] [0x6b] ⟨.start, [], []⟩ := by
  rintro ⟨h, -⟩
  have hdefault := h []
  revert hdefault
  decide

end Vici

end StrongSwan
