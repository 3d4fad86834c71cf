import StrongSwan.Plugins.Vici.RoundTrip

/-!
# The grammar of vici messages

A message is well formed if it is a sequence of balanced elements that can be printed. The enumerator
reads one element after the other, and three kinds of malformed messages are not noticed.

* `parseEnumerate_cases`: what a call does that returns TRUE.
* `flatMap_encode_append`: how a byte string starts with elements is unique.
* **`parsesExactly_iff`**: the byte strings of which the enumerator accepts the well-formed ones, and
  yields but what is in the message.
-/

namespace StrongSwan

namespace Vici

/-! ## What a call does -/

def ParseEnumerator.level (this : ParseEnumerator) : Level := ⟨this.section_, this.list⟩

theorem toU8_ofU8 (byte : U8) : (ViciType.ofU8 byte).toU8 = byte := by
  revert byte
  decide

/-- What a call does that returns TRUE. -/
inductive Reads (this : ParseEnumerator) (args : Args) : Args → ParseEnumerator → Prop
  /-- There is nothing left. -/
  | done : this.reader = [] → Reads this args { args with type := .end_ } this
  /-- An element that may stand there is read. -/
  | element {args' : Args} {this' : ParseEnumerator} (e : Element) : args'.element = some e → e.Fits →
    this.reader = e.encode ++ this'.reader → this.level.next e = some this'.level →
    Reads this args args' this'
  /-- The type of the end is not stored. -/
  | stale (tail : Chunk) : this.reader = ViciType.end_.toU8 :: tail → this.level = ⟨0, false⟩ →
    Reads this args args { this with reader := tail }
  /-- The value of an item is not there in full. -/
  | unread {this' : ParseEnumerator} (tail : Chunk) :
    this.reader = ViciType.listItem.toU8 :: tail → this.list = true →
    BioReader.readData16 tail = none → Reads this args { args with type := .listItem } this'

theorem eq_readName {buf name rest : Chunk} (h : readName buf = some (name, rest)) :
    buf = BioWriter.writeData8 [] name ++ rest ∧ name.length ≤ 255 ∧ chunkPrintable name = true := by
  unfold readName at h
  split at h
  case h_1 data reader hread =>
    split_ifs at h with hprint
    cases h
    exact ⟨(BioWriter.eq_writeData8 hread).1, (BioWriter.eq_writeData8 hread).2, hprint⟩
  case h_2 => cases h

theorem verifyType_end {section_ : U32} {list : Bool} (h : verifyType .end_ section_ list = true) :
    section_ = 0 ∧ list = false := by
  cases list with
  | true => cases h
  | false =>
    refine ⟨?_, rfl⟩
    simpa [verifyType] using h

theorem verifyType_listItem {section_ : U32} {list : Bool}
    (h : verifyType .listItem section_ list = true) : list = true := by
  cases list with
  | true => rfl
  | false => cases h

/-- **What a call does that returns TRUE.** -/
theorem parseEnumerate_cases {this this' : ParseEnumerator} {args args' : Args}
    (h : parseEnumerate this args = some (args', this')) : Reads this args args' this' := by
  obtain ⟨reader, section_, list⟩ := this
  cases reader with
  | nil =>
    cases h
    exact .done rfl
  | cons byte reader =>
    have hbyte := toU8_ofU8 byte
    simp only [parseEnumerate, readUint8_cons] at h
    generalize ViciType.ofU8 byte = type at h hbyte
    subst hbyte
    split_ifs at h with hverify
    have hverify : verifyType type section_ list = true := by simpa using hverify
    cases type with
    | start | unknown => cases h
    | sectionStart =>
      dsimp only at h
      split at h
      case h_1 name rest hread =>
        cases h
        obtain ⟨rfl, hlen, hprint⟩ := eq_readName hread
        exact .element (.sectionStart name) rfl ⟨hlen, hprint, Nat.zero_le _⟩ rfl (if_pos hverify)
      case h_2 => cases h
    | sectionEnd =>
      cases h
      exact .element .sectionEnd rfl ⟨Nat.zero_le _, rfl, Nat.zero_le _⟩ rfl (if_pos hverify)
    | keyValue =>
      dsimp only at h
      split at h
      case h_1 name rest hread =>
        obtain ⟨rfl, hlen, hprint⟩ := eq_readName hread
        split at h
        case h_1 value rest' hvalue =>
          cases h
          obtain ⟨rfl, hle⟩ := BioWriter.eq_writeData16 hvalue
          refine .element (.keyValue name value) rfl ⟨hlen, hprint, hle⟩ ?_ (if_pos hverify)
          simp [Element.encode]
        case h_2 => cases h
      case h_2 => cases h
    | listStart =>
      dsimp only at h
      split at h
      case h_1 name rest hread =>
        cases h
        obtain ⟨rfl, hlen, hprint⟩ := eq_readName hread
        exact .element (.listStart name) rfl ⟨hlen, hprint, Nat.zero_le _⟩ rfl (if_pos hverify)
      case h_2 => cases h
    | listItem =>
      dsimp only at h
      split at h
      case h_1 value rest hvalue =>
        cases h
        obtain ⟨rfl, hle⟩ := BioWriter.eq_writeData16 hvalue
        exact .element (.listItem value) rfl ⟨Nat.zero_le _, rfl, hle⟩ rfl (if_pos hverify)
      case h_2 hvalue =>
        cases h
        exact .unread reader rfl (verifyType_listItem hverify) hvalue
    | listEnd =>
      cases h
      exact .element .listEnd rfl ⟨Nat.zero_le _, rfl, Nat.zero_le _⟩ rfl (if_pos hverify)
    | end_ =>
      cases h
      obtain ⟨rfl, rfl⟩ := verifyType_end hverify
      exact .stale reader rfl rfl

/-! ## How a byte string starts with elements -/

theorem writeData8_cancel {name name' r r' : Chunk} (h : name.length ≤ 255) (h' : name'.length ≤ 255)
    (heq : BioWriter.writeData8 [] name ++ r = BioWriter.writeData8 [] name' ++ r') :
    name = name' ∧ r = r' := by
  have hread := BioWriter.readData8_writeData8 h r
  rw [heq, BioWriter.readData8_writeData8 h'] at hread
  simpa [eq_comm] using hread

theorem writeData16_cancel {value value' r r' : Chunk} (h : value.length ≤ 0xffff)
    (h' : value'.length ≤ 0xffff)
    (heq : BioWriter.writeData16 [] value ++ r = BioWriter.writeData16 [] value' ++ r') :
    value = value' ∧ r = r' := by
  have hread := BioWriter.readData16_writeData16 h r
  rw [heq, BioWriter.readData16_writeData16 h'] at hread
  simpa [eq_comm] using hread

theorem encode_eq_cons (e : Element) : ∃ tail, e.encode = e.type.toU8 :: tail := by
  cases e with
  | sectionStart | sectionEnd | keyValue | listStart | listItem | listEnd => exact ⟨_, rfl⟩

theorem type_inj {e e' : Element} (h : e.type.toU8 = e'.type.toU8) : e.type = e'.type := by
  rw [← ofU8_toU8 e, h, ofU8_toU8]

theorem encode_cancel {e e' : Element} (h : e.Fits) (h' : e'.Fits) {r r' : Chunk}
    (heq : e.encode ++ r = e'.encode ++ r') : e = e' ∧ r = r' := by
  have htype : e.type = e'.type := by
    obtain ⟨tail, htail⟩ := encode_eq_cons e
    obtain ⟨tail', htail'⟩ := encode_eq_cons e'
    rw [htail, htail', List.cons_append, List.cons_append] at heq
    exact type_inj (List.cons.inj heq).1
  cases e with
  | sectionStart name =>
    cases e' with
    | sectionStart name' =>
      obtain ⟨rfl, rfl⟩ := writeData8_cancel h.name_le h'.name_le (List.cons.inj heq).2
      exact ⟨rfl, rfl⟩
    | sectionEnd | keyValue | listStart | listItem | listEnd => cases htype
  | keyValue name value =>
    cases e' with
    | keyValue name' value' =>
      simp only [Element.encode, List.cons_append, List.append_assoc] at heq
      have htail := (List.cons.inj heq).2
      obtain ⟨rfl, hvalue⟩ := writeData8_cancel h.name_le h'.name_le htail
      obtain ⟨rfl, rfl⟩ := writeData16_cancel h.value_le h'.value_le hvalue
      exact ⟨rfl, rfl⟩
    | sectionStart | sectionEnd | listStart | listItem | listEnd => cases htype
  | listStart name =>
    cases e' with
    | listStart name' =>
      obtain ⟨rfl, rfl⟩ := writeData8_cancel h.name_le h'.name_le (List.cons.inj heq).2
      exact ⟨rfl, rfl⟩
    | sectionStart | sectionEnd | keyValue | listItem | listEnd => cases htype
  | listItem value =>
    cases e' with
    | listItem value' =>
      obtain ⟨rfl, rfl⟩ := writeData16_cancel h.value_le h'.value_le (List.cons.inj heq).2
      exact ⟨rfl, rfl⟩
    | sectionStart | sectionEnd | keyValue | listStart | listEnd => cases htype
  | sectionEnd =>
    cases e' with
    | sectionEnd => exact ⟨rfl, (List.cons.inj heq).2⟩
    | sectionStart | keyValue | listStart | listItem | listEnd => cases htype
  | listEnd =>
    cases e' with
    | listEnd => exact ⟨rfl, (List.cons.inj heq).2⟩
    | sectionStart | sectionEnd | keyValue | listStart | listItem => cases htype

theorem flatMap_encode_append {es es' : List Element} (h : ∀ e ∈ es, e.Fits) (h' : ∀ e ∈ es', e.Fits)
    {r r' : Chunk} (heq : es.flatMap Element.encode ++ r = es'.flatMap Element.encode ++ r') :
    (∃ more, es' = es ++ more ∧ r = more.flatMap Element.encode ++ r') ∨
      ∃ more, es = es' ++ more ∧ r' = more.flatMap Element.encode ++ r := by
  induction es generalizing es' with
  | nil => exact .inl ⟨es', rfl, heq⟩
  | cons e es ih =>
    cases es' with
    | nil => exact .inr ⟨e :: es, rfl, heq.symm⟩
    | cons e' es' =>
      rw [List.flatMap_cons, List.flatMap_cons, List.append_assoc, List.append_assoc] at heq
      obtain ⟨rfl, htail⟩ := encode_cancel (h e List.mem_cons_self) (h' e' List.mem_cons_self) heq
      have hes := List.forall_mem_of_forall_mem_cons h
      have hes' := List.forall_mem_of_forall_mem_cons h'
      rcases ih hes hes' htail with ⟨more, rfl, hr⟩ | ⟨more, rfl, hr⟩
      · exact .inl ⟨more, rfl, hr⟩
      · exact .inr ⟨more, rfl, hr⟩

/-- No element that may stand at the level comes next. -/
def Stuck (level : Level) (rest : Chunk) : Prop :=
  ∀ e : Element, e.Fits → ∀ tail, rest = e.encode ++ tail → level.next e = none

theorem exists_stuck (bytes : Chunk) (level : Level) : ∃ es rest level', (∀ e ∈ es, e.Fits) ∧
    level.path es = some level' ∧ bytes = es.flatMap Element.encode ++ rest ∧ Stuck level' rest := by
  induction hlen : bytes.length using Nat.strong_induction_on generalizing bytes level with
  | _ n ih =>
    by_cases hstuck : Stuck level bytes
    · exact ⟨[], bytes, level, List.forall_mem_nil _, rfl, rfl, hstuck⟩
    · unfold Stuck at hstuck
      push Not at hstuck
      obtain ⟨e, hfits, tail, rfl, hnext⟩ := hstuck
      obtain ⟨level₁, hnext⟩ := Option.ne_none_iff_exists'.mp hnext
      have hlt : tail.length < n := by
        obtain ⟨tail', htail'⟩ := encode_eq_cons e
        rw [← hlen, List.length_append, htail', List.length_cons]
        omega
      obtain ⟨es, rest, level', hes, hpath, rfl, hstuck⟩ := ih tail.length hlt tail level₁ rfl
      refine ⟨e :: es, rest, level', List.forall_mem_cons.mpr ⟨hfits, hes⟩, ?_, ?_, hstuck⟩
      · rw [Level.path, hnext, Option.bind_some, hpath]
      · rw [List.flatMap_cons, List.append_assoc]

/-! ## What an enumerator accepts -/

/-- The calls of an enumerator up to one that stores the end, or that returns FALSE: what the calls
before it store, and whether the end was reached. Nothing if `fuel` calls are not enough. -/
def enumerateAll : ℕ → ParseEnumerator → Args → Option (List Args × Bool)
  | 0, _, _ => none
  | fuel + 1, this, args =>
    match parseEnumerate this args with
    | none => some ([], false)
    | some (args, this) =>
      if args.type = .end_ then some ([], true)
      else (enumerateAll fuel this args).map fun (all, reached) => (args :: all, reached)

/-- The string is made of elements, with all sections and lists ended. -/
def WellFormed (bytes : Chunk) : Prop :=
  ∃ es : List Element, (∀ e ∈ es, e.Fits) ∧ Balanced es ∧ bytes = es.flatMap Element.encode

/-- The end is reached in well-formed messages only, and then all elements were yielded. Otherwise
those were that are at the beginning of the string, before the enumerator returned FALSE. -/
def ParsesExactly (bytes : Chunk) (args : Args) : Prop :=
  ∃ (all : List Args) (reached : Bool) (es : List Element) (rest : Chunk),
    enumerateAll (bytes.length + 1) (createEnumerator bytes) args = some (all, reached) ∧
      all.map Args.element = es.map some ∧ (∀ e ∈ es, e.Fits) ∧
      bytes = es.flatMap Element.encode ++ rest ∧ (reached = true → rest = []) ∧
      (reached = true ↔ WellFormed bytes)

/-- What an enumerator does not notice, behind elements that it reads. -/
inductive Unnoticed (bytes : Chunk) : Prop
  /-- The message ends within a section or a list. -/
  | open_ (es : List Element) (level : Level) : (∀ e ∈ es, e.Fits) →
    Level.path ⟨0, false⟩ es = some level → bytes = es.flatMap Element.encode → ¬Balanced es →
    Unnoticed bytes
  /-- The type of the end is in the message. -/
  | end_ (es : List Element) (tail : Chunk) : (∀ e ∈ es, e.Fits) →
    Level.path ⟨0, false⟩ es = some ⟨0, false⟩ →
    bytes = es.flatMap Element.encode ++ ViciType.end_.toU8 :: tail → Unnoticed bytes
  /-- The value of an item in a list is not there in full. -/
  | item (es : List Element) (section_ : U32) (tail : Chunk) : (∀ e ∈ es, e.Fits) →
    Level.path ⟨0, false⟩ es = some ⟨section_, true⟩ →
    bytes = es.flatMap Element.encode ++ ViciType.listItem.toU8 :: tail →
    BioReader.readData16 tail = none → Unnoticed bytes
  /-- There are more sections in each other than can be counted. -/
  | deep (es : List Element) : (∀ e ∈ es, e.Fits) → Balanced es →
    Level.path ⟨0, false⟩ es = none → bytes = es.flatMap Element.encode → Unnoticed bytes

theorem enumerateAll_nil (fuel : ℕ) (section_ : U32) (list : Bool) (args : Args) :
    enumerateAll (fuel + 1) ⟨[], section_, list⟩ args = some ([], true) := rfl

theorem enumerateAll_none (fuel : ℕ) {this : ParseEnumerator} {args : Args}
    (h : parseEnumerate this args = none) : enumerateAll (fuel + 1) this args = some ([], false) := by
  rw [enumerateAll, h]

variable {es : List Element}

/-- Elements that may stand there are yielded. -/
theorem enumerateAll_encode (hfits : ∀ e ∈ es, e.Fits) {level level' : Level}
    (hpath : level.path es = some level') (fuel : ℕ) (rest : Chunk) (args : Args) :
    ∃ all args', all.map Args.element = es.map some ∧
      enumerateAll (fuel + es.length)
        ⟨es.flatMap Element.encode ++ rest, level.section_, level.list⟩ args =
      (enumerateAll fuel ⟨rest, level'.section_, level'.list⟩ args').map
        fun (more, reached) => (all ++ more, reached) := by
  induction es generalizing level args with
  | nil =>
    cases hpath
    exact ⟨[], args, rfl, by simp⟩
  | cons e es ih =>
    obtain ⟨he, hes⟩ := List.forall_mem_cons.mp hfits
    obtain ⟨level₁, hnext, hpath⟩ := Option.bind_eq_some_iff.mp hpath
    obtain ⟨args₁, helement, hparse⟩ :=
      parseEnumerate_encode he hnext (es.flatMap Element.encode ++ rest) args
    obtain ⟨all, args', hall, hrun⟩ := ih hes hpath args₁
    refine ⟨args₁ :: all, args', ?_, ?_⟩
    · rw [List.map_cons, List.map_cons, helement, hall]
    · rw [List.flatMap_cons, List.append_assoc, List.length_cons, ← Nat.add_assoc, enumerateAll,
        hparse]
      dsimp only
      rw [if_neg (Args.type_ne_end helement), hrun, Option.map_map]
      rfl

variable {level : Level}

theorem enumerateAll_bytes (hfits : ∀ e ∈ es, e.Fits)
    (hpath : Level.path ⟨0, false⟩ es = some level) (rest : Chunk) (args : Args) :
    ∃ all args' fuel, all.map Args.element = es.map some ∧
      enumerateAll ((es.flatMap Element.encode ++ rest).length + 1)
        (createEnumerator (es.flatMap Element.encode ++ rest)) args =
      (enumerateAll (fuel + 1) ⟨rest, level.section_, level.list⟩ args').map
        fun (more, reached) => (all ++ more, reached) := by
  have hle : es.length ≤ (es.flatMap Element.encode).length := length_le_flatMap_encode es
  obtain ⟨fuel, hfuel⟩ : ∃ fuel, (es.flatMap Element.encode ++ rest).length = fuel + es.length :=
    ⟨_, (Nat.sub_add_cancel (hle.trans (by simp))).symm⟩
  obtain ⟨all, args', hall, hrun⟩ := enumerateAll_encode hfits hpath (fuel + 1) rest args
  refine ⟨all, args', fuel, hall, ?_⟩
  rw [hfuel, Nat.add_right_comm]
  exact hrun

/-- Where no element may follow, either nothing does, or the enumerator returns FALSE, or something
is not noticed. -/
theorem Stuck.cases {rest : Chunk} (h : Stuck level rest) (args : Args) :
    rest = [] ∨ parseEnumerate ⟨rest, level.section_, level.list⟩ args = none ∨
      (∃ tail, rest = ViciType.end_.toU8 :: tail ∧ level = ⟨0, false⟩) ∨
      ∃ tail, rest = ViciType.listItem.toU8 :: tail ∧ level.list = true ∧
        BioReader.readData16 tail = none := by
  cases hparse : parseEnumerate ⟨rest, level.section_, level.list⟩ args with
  | none => exact .inr (.inl rfl)
  | some result =>
    obtain ⟨args', this'⟩ := result
    cases parseEnumerate_cases hparse with
    | done hnil => exact .inl hnil
    | element e helement hfits hrest hnext =>
      rw [show ParseEnumerator.level ⟨rest, level.section_, level.list⟩ = level from rfl,
        h e hfits _ hrest] at hnext
      cases hnext
    | stale tail hrest hlevel => exact .inr (.inr (.inl ⟨tail, hrest, hlevel⟩))
    | unread tail hrest hlist hread => exact .inr (.inr (.inr ⟨tail, hrest, hlist, hread⟩))

/-! ### Where it goes wrong -/

theorem eq_of_flatMap_encode {es es' : List Element} (h : ∀ e ∈ es, e.Fits) (h' : ∀ e ∈ es', e.Fits)
    (heq : es.flatMap Element.encode = es'.flatMap Element.encode) : es = es' := by
  have hmore {more : List Element} (hnil : [] = more.flatMap Element.encode ++ []) : more = [] := by
    cases more with
    | nil => rfl
    | cons e more =>
      obtain ⟨tail, htail⟩ := encode_eq_cons e
      rw [List.flatMap_cons, htail] at hnil
      cases hnil
  have hends : es.flatMap Element.encode ++ [] = es'.flatMap Element.encode ++ [] := by
    simpa using heq
  rcases flatMap_encode_append h h' hends with
    ⟨more, rfl, hnil⟩ | ⟨more, rfl, hnil⟩
  · rw [hmore hnil, List.append_nil]
  · rw [hmore hnil, List.append_nil]

theorem prefix_of_none {es es' : List Element} (h : ∀ e ∈ es, e.Fits) (h' : ∀ e ∈ es', e.Fits)
    {rest rest' : Chunk} (hnone : ∀ e : Element, e.Fits → ∀ tail, rest ≠ e.encode ++ tail)
    (heq : es.flatMap Element.encode ++ rest = es'.flatMap Element.encode ++ rest') :
    ∃ more, es = es' ++ more ∧ rest' = more.flatMap Element.encode ++ rest := by
  rcases flatMap_encode_append h h' heq with ⟨more, rfl, hrest⟩ | hlonger
  · cases more with
    | nil => exact ⟨[], by simp, hrest.symm⟩
    | cons e more =>
      rw [List.flatMap_cons, List.append_assoc] at hrest
      exact absurd hrest (hnone e (h' e (by simp)) _)
  · exact hlonger

theorem not_parsesExactly (hfits : ∀ e ∈ es, e.Fits)
    (hpath : Level.path ⟨0, false⟩ es = some level) {rest : Chunk} (hne : rest ≠ [])
    (hnone : ∀ e : Element, e.Fits → ∀ tail, rest ≠ e.encode ++ tail)
    (hparse : ∀ args, parseEnumerate ⟨rest, level.section_, level.list⟩ args ≠ none) (args : Args) :
    ¬ParsesExactly (es.flatMap Element.encode ++ rest) args := by
  rintro ⟨all, reached, es', rest', hrun, hall, hfits', hbytes, hend, -⟩
  obtain ⟨all₀, args₀, fuel, hall₀, hstart⟩ := enumerateAll_bytes hfits hpath rest args
  obtain ⟨⟨args₁, this₁⟩, hnext⟩ := Option.ne_none_iff_exists'.mp (hparse args₀)
  obtain ⟨more, hes, hrest⟩ := prefix_of_none hfits hfits' hnone hbytes
  rw [hstart, enumerateAll, hnext] at hrun
  dsimp only at hrun
  split_ifs at hrun with htype
  · cases hrun
    rw [hend rfl] at hrest
    exact hne (List.append_eq_nil_iff.mp hrest.symm).2
  · obtain ⟨⟨all₂, reached₂⟩, hrun, heq⟩ := Option.map_eq_some_iff.mp hrun
    obtain ⟨⟨all₃, reached₃⟩, -, hcons⟩ := Option.map_eq_some_iff.mp hrun
    cases hcons
    cases heq
    have hlen := congrArg List.length hall
    have hlen₀ := congrArg List.length hall₀
    have hlonger := congrArg List.length hes
    simp only [List.length_map, List.length_append, List.length_cons] at hlen hlen₀ hlonger
    omega

theorem ne_encode (type : ViciType) (hof : ViciType.ofU8 type.toU8 = type) {e : Element}
    (hne : e.type ≠ type) (tail tail' : Chunk) : type.toU8 :: tail ≠ e.encode ++ tail' := by
  intro heq
  obtain ⟨tail₁, htail⟩ := encode_eq_cons e
  rw [htail, List.cons_append] at heq
  have hbyte := congrArg ViciType.ofU8 (List.cons.inj heq).1
  rw [hof, ofU8_toU8] at hbyte
  exact hne hbyte.symm

theorem Element.type_ne_end (e : Element) : e.type ≠ .end_ := by
  cases e with
  | sectionStart | sectionEnd | keyValue | listStart | listItem | listEnd => exact nofun

theorem ne_item_encode {tail : Chunk} (hread : BioReader.readData16 tail = none) {e : Element}
    (hfits : e.Fits) (tail' : Chunk) : ViciType.listItem.toU8 :: tail ≠ e.encode ++ tail' := by
  cases e with
  | listItem value =>
    intro heq
    have hvalue : BioReader.readData16 (BioWriter.writeData16 [] value ++ tail') = some (value, tail') :=
      BioWriter.readData16_writeData16 hfits.value_le tail'
    rw [← show tail = BioWriter.writeData16 [] value ++ tail' from (List.cons.inj heq).2, hread] at hvalue
    cases hvalue
  | sectionStart | sectionEnd | keyValue | listStart | listEnd =>
    exact ne_encode .listItem rfl (by exact nofun) _ _

theorem parseEnumerate_end (tail : Chunk) (args : Args) :
    parseEnumerate ⟨ViciType.end_.toU8 :: tail, 0, false⟩ args = some (args, ⟨tail, 0, false⟩) := by
  rw [parseEnumerate, readUint8_cons]
  rfl

/-- An item is yielded whether or not there is a value. -/
theorem parseEnumerate_item_ne_none (section_ : U32) (tail : Chunk) (args : Args) :
    parseEnumerate ⟨ViciType.listItem.toU8 :: tail, section_, true⟩ args ≠ none := by
  have hof : ViciType.ofU8 ViciType.listItem.toU8 = .listItem := rfl
  have hverify : verifyType .listItem section_ true = true := rfl
  simp only [parseEnumerate, readUint8_cons, hof, hverify, Bool.not_true, Bool.false_eq_true, if_false]
  split
  · exact Option.some_ne_none _
  · exact Option.some_ne_none _

theorem not_parsesExactly_of_unnoticed {bytes : Chunk} (h : Unnoticed bytes) (args : Args) :
    ¬ParsesExactly bytes args := by
  cases h with
  | open_ es level hfits hpath hbytes hopen =>
    subst hbytes
    rintro ⟨all, reached, es', rest', hrun, -, -, -, -, hiff⟩
    obtain ⟨all₀, args₀, fuel, -, hstart⟩ := enumerateAll_bytes hfits hpath [] args
    rw [List.append_nil] at hstart
    rw [hstart] at hrun
    cases hrun
    obtain ⟨es₁, hfits₁, hbalanced, heq⟩ := hiff.mp rfl
    exact hopen (eq_of_flatMap_encode hfits hfits₁ heq ▸ hbalanced)
  | end_ es tail hfits hpath hbytes =>
    subst hbytes
    exact not_parsesExactly hfits hpath (List.cons_ne_nil _ _)
      (fun e _ => ne_encode .end_ rfl e.type_ne_end tail)
      (fun args => parseEnumerate_end tail args ▸ Option.some_ne_none _) args
  | item es section_ tail hfits hpath hbytes hread =>
    subst hbytes
    exact not_parsesExactly hfits hpath (List.cons_ne_nil _ _) (fun e he => ne_item_encode hread he)
      (parseEnumerate_item_ne_none section_ tail) args
  | deep es hfits hbalanced hpath hbytes =>
    subst hbytes
    rintro ⟨all, reached, es', rest', hrun, -, -, -, -, hiff⟩
    have hreached := hiff.mpr ⟨es, hfits, hbalanced, rfl⟩
    obtain ⟨es₀, rest₀, level₀, hfits₀, hpath₀, hbytes, hstuck⟩ :=
      exists_stuck (es.flatMap Element.encode) ⟨0, false⟩
    obtain ⟨all₀, args₀, fuel, -, hstart⟩ := enumerateAll_bytes hfits₀ hpath₀ rest₀ args
    obtain ⟨e, more, rfl, rfl⟩ : ∃ e more, es = es₀ ++ e :: more ∧
        rest₀ = (e :: more).flatMap Element.encode := by
      rcases flatMap_encode_append hfits hfits₀ (r := []) (by simpa using hbytes) with
        ⟨more, rfl, -⟩ | ⟨more, rfl, hrest⟩
      · rw [Level.path_append, hpath, Option.bind_none] at hpath₀
        cases hpath₀
      · cases more with
        | nil =>
          rw [List.append_nil, hpath₀] at hpath
          cases hpath
        | cons e more => exact ⟨e, more, rfl, by simpa using hrest⟩
    have hfits₁ : e.Fits := hfits e (by simp)
    rw [List.flatMap_cons] at hstuck hbytes hstart
    have hnone : parseEnumerate ⟨e.encode ++ more.flatMap Element.encode, level₀.section_,
        level₀.list⟩ args₀ = none := by
      rcases hstuck.cases args₀ with hnil | hnone | ⟨tail, hrest, -⟩ | ⟨tail, hrest, -, hread⟩
      · obtain ⟨tail, htail⟩ := encode_eq_cons e
        rw [htail] at hnil
        cases hnil
      · exact hnone
      · exact absurd hrest.symm (ne_encode .end_ rfl e.type_ne_end tail _)
      · exact absurd hrest.symm (ne_item_encode hread hfits₁ _)
    rw [hbytes, hstart, enumerateAll_none fuel hnone] at hrun
    cases hrun
    cases hreached

theorem not_wellFormed (hfits : ∀ e ∈ es, e.Fits)
    (hpath : Level.path ⟨0, false⟩ es = some level) {rest : Chunk} (hstuck : Stuck level rest)
    (hne : rest ≠ []) (h : ¬Unnoticed (es.flatMap Element.encode ++ rest)) :
    ¬WellFormed (es.flatMap Element.encode ++ rest) := by
  rintro ⟨es', hfits', hbalanced, hbytes⟩
  obtain ⟨level', hpath'⟩ : ∃ level', Level.path ⟨0, false⟩ es' = some level' :=
    Option.ne_none_iff_exists'.mp fun hnone => h (.deep es' hfits' hbalanced hnone hbytes)
  have hends : es.flatMap Element.encode ++ rest = es'.flatMap Element.encode ++ [] := by
    simpa using hbytes
  rcases flatMap_encode_append hfits hfits' hends with
    ⟨more, rfl, hrest⟩ | ⟨more, rfl, hrest⟩
  · cases more with
    | nil => exact hne (by simpa using hrest)
    | cons e more =>
      rw [Level.path_append, hpath, Option.bind_some, Level.path] at hpath'
      rw [List.append_nil, List.flatMap_cons] at hrest
      rw [hstuck e (hfits' e (by simp)) _ hrest] at hpath'
      cases hpath'
  · exact hne (List.append_eq_nil_iff.mp hrest.symm).2

theorem parsesExactly_of_noticed {bytes : Chunk} (h : ¬Unnoticed bytes) (args : Args) :
    ParsesExactly bytes args := by
  obtain ⟨es, rest, level, hfits, hpath, rfl, hstuck⟩ := exists_stuck bytes ⟨0, false⟩
  obtain ⟨all, args', fuel, hall, hstart⟩ := enumerateAll_bytes hfits hpath rest args
  rcases hstuck.cases args' with rfl | hnone | ⟨tail, rfl, rfl⟩ | ⟨tail, rfl, hlist, hread⟩
  · have hbalanced : Balanced es := by
      by_contra hopen
      exact h (.open_ es level hfits hpath (List.append_nil _) hopen)
    have hwell : WellFormed (es.flatMap Element.encode ++ []) :=
      ⟨es, hfits, hbalanced, List.append_nil _⟩
    rw [enumerateAll_nil, Option.map_some] at hstart
    exact ⟨all, true, es, [], by simpa using hstart, hall, hfits, rfl, fun _ => rfl,
      iff_of_true rfl hwell⟩
  · have hne : rest ≠ [] := by
      rintro rfl
      cases hnone
    rw [enumerateAll_none fuel hnone, Option.map_some] at hstart
    dsimp only at hstart
    rw [List.append_nil] at hstart
    exact ⟨all, false, es, rest, hstart, hall, hfits, rfl, nofun,
      iff_of_false Bool.false_ne_true (not_wellFormed hfits hpath hstuck hne h)⟩
  · exact absurd (.end_ es tail hfits hpath rfl) h
  · obtain ⟨section_, list⟩ := level
    subst hlist
    exact absurd (.item es section_ tail hfits hpath rfl hread) h

/-- **Exactly the well-formed messages are accepted, and nothing is yielded that is not in the
message**, unless the message ends within a section or a list, has the type of the end in it or an
item that is not complete, or has more sections in each other than can be counted. -/
theorem parsesExactly_iff (bytes : Chunk) (args : Args) :
    ParsesExactly bytes args ↔ ¬Unnoticed bytes :=
  ⟨fun h hunnoticed => not_parsesExactly_of_unnoticed hunnoticed args h,
    fun h => parsesExactly_of_noticed h args⟩

/-- The value of an item is cut off, and the item is yielded with what the caller had before. -/
theorem not_parsesExactly_item : ¬ParsesExactly [0x04, 0x01, 0x6c, 0x05, 0x00, 0x0a, 0x61]
    ⟨.start, [], [0x78]⟩ := by
  refine not_parsesExactly_of_unnoticed ?_ _
  refine .item [.listStart [0x6c]] 0 [0x00, 0x0a, 0x61] ?_ rfl rfl rfl
  rintro e he
  rw [List.mem_singleton.mp he]
  exact ⟨by decide, rfl, by decide⟩

end Vici

end StrongSwan
