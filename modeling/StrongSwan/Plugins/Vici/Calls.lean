import StrongSwan.Plugins.Vici.RoundTrip

/-!
# Calls of a builder

A sequence of calls is `tally`d: how many of them the builder refuses, and which elements it writes.

* `Call.run_eq`, `run_eq`: what a call, and a sequence of them, does to a builder.
* `accepted_iff`: the calls of which a message is made.
* **`survives_iff`**: which of these messages are what was asked for, and can be read and built again.
-/

namespace StrongSwan

namespace Vici

/-- The calls of a builder; what `vsnprintf` prints is the text of the call. -/
inductive Call
  | add (type : ViciType) (name value : Chunk)
  | addKv (key : Chunk) (text : Option Chunk)
  | addLi (text : Option Chunk)
  | beginSection (name : Chunk)
  | endSection
  | beginList (name : Chunk)
  | endList

namespace Call

def run (this : ViciBuilder) : Call → ViciBuilder
  | add type name value => this.add type name value
  | addKv key text => this.addKv key text
  | addLi text => this.addLi text
  | beginSection name => this.beginSection name
  | endSection => this.endSection
  | beginList name => this.beginList name
  | endList => this.endList

/-- The element a caller asks for; there is none if nothing is printed, or for other types. -/
def element : Call → Option Element
  | add type name value => Args.element ⟨type, name, value⟩
  | addKv key text => text.map (.keyValue key)
  | addLi text => text.map .listItem
  | beginSection name => some (.sectionStart name)
  | endSection => some .sectionEnd
  | beginList name => some (.listStart name)
  | endList => some .listEnd

/-- The element that reaches `add`. -/
def written : Call → Option Element
  | addKv key text => text.map fun text => .keyValue key (ViciBuilder.printedValue text)
  | addLi text => text.map fun text => .listItem (ViciBuilder.printedValue text)
  | c => c.element

/-- The text that is printed. -/
def text : Call → Option Chunk
  | addKv _ text | addLi text => text
  | _ => none

end Call

namespace Level

def accept (level : Level) (e : Element) : Option Level :=
  if e.value.length > 0xffff then none else level.next e

end Level

theorem add_refused (this : ViciBuilder) {type : ViciType} {name value : Chunk}
    (h : Args.element ⟨type, name, value⟩ = none) :
    this.add type name value = { this with error := this.error + 1 } := by
  cases type with
  | start | unknown => rfl
  | end_ =>
    cases hverify : verifyType .end_ this.section_ this.list
    all_goals
      simp [ViciBuilder.add, hverify]
  | sectionStart | sectionEnd | keyValue | listStart | listItem | listEnd => cases h

/-- **What a call does**: its element is written, or it is refused. -/
theorem Call.run_eq (this : ViciBuilder) (c : Call) :
    c.run this = match c.written with
      | some e => this.push e (this.level.accept e)
      | none => { this with error := this.error + 1 } := by
  cases c with
  | add type name value =>
    change this.add type name value = match Args.element ⟨type, name, value⟩ with
      | some e => this.push e (this.level.accept e)
      | none => { this with error := this.error + 1 }
    cases helement : Args.element ⟨type, name, value⟩ with
    | some e => exact (add_args this helement).trans (ViciBuilder.add_element this e)
    | none => exact add_refused this helement
  | addKv key text =>
    cases text with
    | none => rfl
    | some text => exact ViciBuilder.add_element this (.keyValue key (ViciBuilder.printedValue text))
  | addLi text =>
    cases text with
    | none => rfl
    | some text => exact ViciBuilder.add_element this (.listItem (ViciBuilder.printedValue text))
  | beginSection name => exact ViciBuilder.add_element this (.sectionStart name)
  | endSection => exact ViciBuilder.add_element this .sectionEnd
  | beginList name => exact ViciBuilder.add_element this (.listStart name)
  | endList => exact ViciBuilder.add_element this .listEnd

/-! ## Sequences of calls -/

/-- What came of a sequence of calls. -/
structure Tally where
  /-- the calls that were refused -/
  refused : ℕ
  /-- the elements that were written -/
  elements : List Element
  level : Level

namespace Tally

def init : Tally := ⟨0, [], ⟨0, false⟩⟩

def step (this : Tally) (c : Call) : Tally :=
  match c.written with
  | some e =>
    match this.level.accept e with
    | some level => ⟨this.refused, this.elements ++ [e], level⟩
    | none => { this with refused := this.refused + 1 }
  | none => { this with refused := this.refused + 1 }

/-- The builder that did what is in the tally; it counts in 32 bits. -/
def builder (this : Tally) : ViciBuilder :=
  ⟨this.elements.flatMap Element.encode, BitVec.ofNat 32 this.refused, this.level.section_,
    this.level.list⟩

theorem run_builder (this : Tally) (c : Call) : c.run this.builder = (this.step c).builder := by
  have herror : BitVec.ofNat 32 this.refused + 1 = BitVec.ofNat 32 (this.refused + 1) := by
    rw [BitVec.ofNat_add]
    rfl
  rw [Call.run_eq]
  unfold step
  cases c.written with
  | none =>
    rw [builder, builder, herror]
  | some e =>
    change this.builder.push e (this.level.accept e) = builder (match this.level.accept e with
      | some level => _
      | none => _)
    cases this.level.accept e with
    | none =>
      rw [ViciBuilder.push, builder, builder, herror]
    | some level =>
      rw [ViciBuilder.push, builder, builder, List.flatMap_append, List.flatMap_singleton]

end Tally

def tally (calls : List Call) : Tally := calls.foldl Tally.step .init

def run (calls : List Call) : ViciBuilder := calls.foldl Call.run .create

theorem tally_append (calls : List Call) (c : Call) :
    tally (calls ++ [c]) = (tally calls).step c := by
  rw [tally, List.foldl_append]
  rfl

theorem Tally.step_cases (this : Tally) (c : Call) :
    this.step c = { this with refused := this.refused + 1 } ∨
      ∃ e level, c.written = some e ∧ e.value.length ≤ 0xffff ∧ this.level.next e = some level ∧
        this.step c = ⟨this.refused, this.elements ++ [e], level⟩ := by
  unfold step
  cases hwritten : c.written with
  | none => exact .inl rfl
  | some e =>
    dsimp only
    cases haccept : this.level.accept e with
    | none => exact .inl rfl
    | some level =>
      obtain ⟨hlen, hnext⟩ := Option.ite_none_left_eq_some.mp haccept
      exact .inr ⟨e, level, rfl, Nat.not_lt.mp hlen, hnext, rfl⟩

/-- **What a sequence of calls does** is in its tally. -/
theorem run_eq (calls : List Call) : run calls = (tally calls).builder := by
  induction calls using List.reverseRecOn with
  | nil => rfl
  | append_singleton calls c ih =>
    rw [tally_append, run, List.foldl_append, ← Tally.run_builder, ← ih]
    rfl

theorem tally_spec (calls : List Call) :
    ((tally calls).elements.map some).Sublist (calls.map Call.written) ∧
      (tally calls).elements.length + (tally calls).refused = calls.length ∧
      (∀ e ∈ (tally calls).elements, e.value.length ≤ 0xffff) ∧
      Level.path ⟨0, false⟩ (tally calls).elements = some (tally calls).level := by
  induction calls using List.reverseRecOn with
  | nil => exact ⟨.slnil, rfl, List.forall_mem_nil _, rfl⟩
  | append_singleton calls c ih =>
    obtain ⟨hsub, hlen, hvalue, hpath⟩ := ih
    rw [tally_append, List.map_append, List.length_append]
    rcases (tally calls).step_cases c with hstep | ⟨e, level, hwritten, hfits, hnext, hstep⟩
    · rw [hstep]
      refine ⟨hsub.trans (List.sublist_append_left _ _), ?_, hvalue, hpath⟩
      dsimp only
      rw [← hlen, List.length_singleton]
      omega
    · rw [hstep]
      refine ⟨?_, ?_, ?_, ?_⟩
      · rw [List.map_append]
        refine hsub.append ?_
        rw [List.map_singleton, List.map_singleton, hwritten]
      · dsimp only
        rw [List.length_append, List.length_singleton, List.length_singleton]
        omega
      · simpa [or_imp, forall_and, hfits] using hvalue
      · rw [Level.path_append, hpath]
        change ((tally calls).level.next e).bind _ = _
        rw [hnext]
        rfl

/-! ## Messages -/

/-- A message is made of the calls: in 32 bits, no call is refused and no section is open. -/
def Accepted (calls : List Call) : Prop :=
  (tally calls).refused % 2 ^ 32 = 0 ∧ (tally calls).level = ⟨0, false⟩

instance (calls : List Call) : Decidable (Accepted calls) := by unfold Accepted; infer_instance

variable {calls : List Call}

theorem finalize_run {message : Chunk} :
    (run calls).finalize = some message ↔
      Accepted calls ∧ (tally calls).elements.flatMap Element.encode = message := by
  have herror : BitVec.ofNat 32 (tally calls).refused = 0 ↔ (tally calls).refused % 2 ^ 32 = 0 := by
    rw [← BitVec.toNat_inj, BitVec.toNat_ofNat]
    rfl
  have hlevel : (tally calls).level = ⟨0, false⟩ ↔
      (tally calls).level.section_ = 0 ∧ (tally calls).level.list = false := by
    obtain ⟨section_, list⟩ := (tally calls).level
    exact Level.mk.injEq section_ list _ _ ▸ Iff.rfl
  rw [run_eq, ViciBuilder.finalize, Option.ite_none_left_eq_some, Option.some_inj, Accepted, ← herror,
    hlevel, not_or, not_or, not_not, not_not, Bool.not_eq_true]
  rfl

theorem written_of_refused (h : (tally calls).refused = 0) :
    calls.map Call.written = (tally calls).elements.map some := by
  obtain ⟨hsub, hlen, -, -⟩ := tally_spec calls
  refine (hsub.eq_of_length ?_).symm
  rw [List.length_map, List.length_map]
  omega

/-- Elements with values that fit and that may stand in a message are written. -/
theorem tally_of_path {es : List Element}
    (hwritten : calls.map Call.written = es.map some) (hvalues : ∀ e ∈ es, e.value.length ≤ 0xffff)
    {level : Level} (hpath : Level.path ⟨0, false⟩ es = some level) :
    tally calls = ⟨0, es, level⟩ := by
  induction calls using List.reverseRecOn generalizing es level with
  | nil =>
    rw [List.map_nil, eq_comm, List.map_eq_nil_iff] at hwritten
    subst hwritten
    cases hpath
    rfl
  | append_singleton calls c ih =>
    rw [List.map_append, eq_comm, List.map_eq_append_iff] at hwritten
    obtain ⟨es, tail, rfl, hes, htail⟩ := hwritten
    obtain ⟨e, rfl, he⟩ := List.map_eq_singleton_iff.mp htail
    obtain ⟨level₁, hpath, hnext⟩ := Option.bind_eq_some_iff.mp (Level.path_append _ es [e] ▸ hpath)
    obtain ⟨level₂, hnext, hlevel⟩ := Option.bind_eq_some_iff.mp hnext
    cases hlevel
    have hvalue : e.value.length ≤ 0xffff := hvalues e (List.mem_append_right _ List.mem_cons_self)
    have ih := ih hes.symm (fun e he => hvalues e (List.mem_append_left _ he)) hpath
    rw [tally_append, ih, Tally.step, ← he]
    dsimp only
    rw [Level.accept, if_neg (Nat.not_lt.mpr hvalue), hnext]

/-- **The calls of which a message is made**: fewer than the builder can count are balanced elements
with values that fit. -/
theorem accepted_iff (hlt : calls.length < 2 ^ 32) :
    Accepted calls ↔ ∃ es : List Element, calls.map Call.written = es.map some ∧ Balanced es ∧
      ∀ e ∈ es, e.value.length ≤ 0xffff := by
  obtain ⟨-, hlen, hvalue, hpath⟩ := tally_spec calls
  constructor
  · rintro ⟨hrefused, hlevel⟩
    have hzero : (tally calls).refused = 0 := by omega
    refine ⟨(tally calls).elements, written_of_refused hzero, ?_, hvalue⟩
    rw [hlevel] at hpath
    exact (path_iff (by omega)).mp hpath
  · rintro ⟨es, hwritten, hbalanced, hvalues⟩
    have htally := tally_of_path hwritten hvalues
      ((path_iff (by rw [← List.length_map some, ← hwritten, List.length_map]; exact hlt)).mpr hbalanced)
    rw [Accepted, htally]
    exact ⟨rfl, rfl⟩

/-- What a message has to be for the elements that were asked for to survive the wire. -/
structure Survives (calls : List Call) : Prop where
  /-- the elements are enumerated, and the end -/
  enumerated : ∀ message, (run calls).finalize = some message →
    ∃ es : List Element, calls.map Call.element = es.map some ∧ ∀ args,
      (enumerate (message.length + 1) (createEnumerator message) args).map Args.seen =
        es.map (fun e => (e.type, some e)) ++ [(.end_, none)]
  /-- the message is built again of what is enumerated -/
  again : ∀ message, (run calls).finalize = some message →
    ∀ args, createFromEnumerator message args = some message
  /-- there is a message for balanced elements only that fit their lengths -/
  refused : (¬∃ es : List Element, calls.map Call.element = es.map some ∧ Balanced es ∧
    ∀ e ∈ es, e.name.length ≤ 255 ∧ e.value.length ≤ 0xffff) → (run calls).finalize = none

/-- What calls have to be for that. -/
structure Good (calls : List Call) : Prop where
  /-- no counter wrapped around -/
  refused : (tally calls).refused = 0
  balanced : ∀ es : List Element, calls.map Call.element = es.map some → Balanced es
  name_le : ∀ c ∈ calls, ∀ e, c.element = some e → e.name.length ≤ 255
  printable : ∀ c ∈ calls, ∀ e, c.element = some e → chunkPrintable e.name = true
  /-- the first buffer was large enough -/
  text_lt : ∀ c ∈ calls, ∀ text, c.text = some text → text.length < 512

theorem Call.written_eq {c : Call} :
    c.written = c.element ↔ ∀ text, c.text = some text → text.length < 512 := by
  have hprinted : ∀ text : Chunk, ViciBuilder.printedValue text = text ↔ text.length < 512 :=
    fun text => by
      rw [ViciBuilder.printedValue, ← not_le]
      split_ifs with h
      · exact iff_of_false (by simp) (not_not.mpr h)
      · exact iff_of_true rfl h
  cases c with
  | addKv key text =>
    cases text with
    | none => simp [written, element, Call.text]
    | some text => simpa [written, element, Call.text] using hprinted text
  | addLi text =>
    cases text with
    | none => simp [written, element, Call.text]
    | some text => simpa [written, element, Call.text] using hprinted text
  | add | beginSection | endSection | beginList | endList => simp [written, Call.text]

theorem Call.name_written {c : Call} {e : Element} (h : c.written = some e) :
    ∃ e', c.element = some e' ∧ e'.name = e.name := by
  cases c with
  | addKv key text =>
    cases text with
    | none => cases h
    | some text =>
      cases h
      exact ⟨_, rfl, rfl⟩
  | addLi text =>
    cases text with
    | none => cases h
    | some text =>
      cases h
      exact ⟨_, rfl, rfl⟩
  | add | beginSection | endSection | beginList | endList => exact ⟨e, h, rfl⟩

theorem survives_of_good (haccepted : Accepted calls) (hgood : Good calls) :
    Survives calls := by
  obtain ⟨-, -, hvalue, hpath⟩ := tally_spec calls
  have hwritten := written_of_refused hgood.refused
  have helement : calls.map Call.element = (tally calls).elements.map some := by
    rw [← hwritten]
    exact List.map_congr_left fun c hc => (Call.written_eq.mpr (hgood.text_lt c hc)).symm
  have hfrom : ∀ e ∈ (tally calls).elements, ∃ c ∈ calls, c.element = some e := fun e he => by
    have hmem : some e ∈ calls.map Call.element := helement ▸ List.mem_map_of_mem he
    exact List.mem_map.mp hmem
  have hname : ∀ e ∈ (tally calls).elements, e.name.length ≤ 255 := fun e he => by
    obtain ⟨c, hc, hce⟩ := hfrom e he
    exact hgood.name_le c hc e hce
  have hfits : ∀ e ∈ (tally calls).elements, e.Fits := fun e he => by
    obtain ⟨c, hc, hce⟩ := hfrom e he
    exact ⟨hname e he, hgood.printable c hc e hce, hvalue e he⟩
  rw [haccepted.2] at hpath
  have hlen := length_le_flatMap_encode (tally calls).elements
  constructor
  · intro message hmessage
    obtain ⟨-, rfl⟩ := finalize_run.mp hmessage
    exact ⟨_, helement, fun args => enumerate_encode hfits hpath (Nat.lt_succ_of_le hlen) args⟩
  · intro message hmessage args
    obtain ⟨-, rfl⟩ := finalize_run.mp hmessage
    rw [createFromEnumerator, createEnumerator,
      addEnumerated_encode hfits hpath (Nat.lt_succ_of_le hlen) args rfl]
    rfl
  · intro hnot
    exact absurd ⟨_, helement, hgood.balanced _ helement, fun e he => ⟨hname e he, hvalue e he⟩⟩ hnot

theorem good_of_survives (haccepted : Accepted calls) (h : Survives calls) :
    Good calls := by
  obtain ⟨hsub, hlen, hvalue, hpath⟩ := tally_spec calls
  have hmessage := finalize_run.mpr ⟨haccepted, rfl⟩
  obtain ⟨es, helement, hbalanced, hsize⟩ : ∃ es : List Element, calls.map Call.element = es.map some ∧
      Balanced es ∧ ∀ e ∈ es, e.name.length ≤ 255 ∧ e.value.length ≤ 0xffff := by
    by_contra hnot
    rw [h.refused hnot] at hmessage
    cases hmessage
  have hinj : Function.Injective (List.map (some : Element → Option Element)) :=
    List.map_injective_iff.mpr (Option.some_injective _)
  have hfrom : ∀ c ∈ calls, ∀ e, c.element = some e → e ∈ es := fun c hc e hce => by
    have hmem : some e ∈ es.map some := helement ▸ hce ▸ List.mem_map_of_mem hc
    obtain ⟨e', he', heq⟩ := List.mem_map.mp hmem
    cases heq
    exact he'
  rw [haccepted.2] at hpath
  -- the names are those that were asked for
  have hwritten : ∀ e ∈ (tally calls).elements, e.name.length ≤ 255 ∧ e.value.length ≤ 0xffff :=
    fun e he => by
      have hmem := hsub.subset (List.mem_map_of_mem he)
      obtain ⟨c, hc, hce⟩ := List.mem_map.mp hmem
      obtain ⟨e', he', hname⟩ := Call.name_written hce
      rw [← hname]
      exact ⟨(hsize e' (hfrom c hc e' he')).1, hvalue e he⟩
  obtain ⟨es', helement', hseen⟩ := h.enumerated _ hmessage
  obtain rfl : es' = es := hinj (helement'.symm.trans helement)
  have hseen := hseen ⟨.start, [], []⟩
  have hend : (ViciType.end_, none) ∈ es'.map (fun e => (e.type, some e)) ++ [(.end_, none)] :=
    List.mem_append_right _ List.mem_cons_self
  rw [← hseen] at hend
  have hfits := fits_of_enumerate hwritten hpath hend
  -- what is enumerated was written
  rw [createEnumerator, enumerate_encode hfits hpath
    (Nat.lt_succ_of_le (length_le_flatMap_encode _)), List.append_cancel_right_eq] at hseen
  have hsame : (tally calls).elements = es' := by
    have hsnd := congrArg (List.map Prod.snd) hseen
    rw [List.map_map, List.map_map] at hsnd
    exact hinj hsnd
  have hrefused : (tally calls).refused = 0 := by
    have hlength := congrArg List.length helement
    rw [List.length_map, List.length_map, ← hsame] at hlength
    omega
  have hmaps : calls.map Call.written = calls.map Call.element := by
    rw [written_of_refused hrefused, hsame, helement]
  constructor
  case refused => exact hrefused
  case balanced =>
    intro es heq
    rwa [hinj (heq.symm.trans helement)]
  case name_le => exact fun c hc e hce => (hsize e (hfrom c hc e hce)).1
  case printable =>
    intro c hc e hce
    have hmem := hfrom c hc e hce
    rw [← hsame] at hmem
    exact (hfits e hmem).printable
  case text_lt => exact fun c hc => Call.written_eq.mp (List.map_inj_left.mp hmaps c hc)

/-- **Which messages survive the wire**: those that are not made, and those of calls with names that
can be printed, of at most 255 bytes, and with texts that fit the first buffer, if no counter wrapped
around. It is made of calls that write balanced elements, with values of at most 65535 bytes. -/
theorem survives_iff (calls : List Call) :
    (Survives calls ↔ (Accepted calls → Good calls)) ∧
      (calls.length < 2 ^ 32 → (Accepted calls ↔ ∃ es : List Element,
        calls.map Call.written = es.map some ∧ Balanced es ∧ ∀ e ∈ es, e.value.length ≤ 0xffff)) := by
  refine ⟨⟨fun h haccepted => good_of_survives haccepted h, fun h => ?_⟩, accepted_iff⟩
  by_cases haccepted : Accepted calls
  · exact survives_of_good haccepted (h haccepted)
  · have hnone : ∀ message, (run calls).finalize ≠ some message :=
      fun message hmessage => haccepted (finalize_run.mp hmessage).1
    exact ⟨fun message hmessage => absurd hmessage (hnone message),
      fun message hmessage => absurd hmessage (hnone message),
      fun _ => Option.eq_none_iff_forall_ne_some.mpr hnone⟩

/-- A section with a key and a list is balanced, and its message survives. -/
theorem survives_iff_section : Survives [.beginSection [0x61], .addKv [0x62] (some [0x63]),
    .beginList [0x64], .addLi (some []), .endList, .endSection] := by
  have hbalanced : Balanced [.sectionStart [0x61], .keyValue [0x62] [0x63], .listStart [0x64],
      .listItem [], .listEnd, .sectionEnd] :=
    .section_ [0x61] (.keyValue [0x62] [0x63] (.list [0x64] [[]] .nil)) .nil
  refine (survives_iff _).1.mpr fun _ => ?_
  constructor
  case refused => decide
  case balanced =>
    intro es hes
    have hinj := List.map_injective_iff.mpr (Option.some_injective Element)
    have heq : _ = es := hinj (show List.map some [.sectionStart [0x61], .keyValue [0x62] [0x63],
      .listStart [0x64], .listItem [], .listEnd, .sectionEnd] = es.map some from hes)
    rwa [← heq]
  case name_le | printable | text_lt => decide

/-- The length of a name of 256 bytes is cut off, although a message is made. -/
theorem not_survives : ¬∀ calls : List Call, Survives calls := by
  intro h
  have hgood := good_of_survives
    (show Accepted [.beginSection (List.replicate 256 0x61), .endSection] by decide) (h _)
  have hle := hgood.name_le _ List.mem_cons_self _ rfl
  rw [Element.name, List.length_replicate] at hle
  omega

end Vici

end StrongSwan
