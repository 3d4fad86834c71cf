import StrongSwan.Plugins.Vici.Builder

/-!
# Elements on the wire

* `parseEnumerate_encode`: an element that fits is read back.
* **`enumerate_encode`**, **`addEnumerated_encode`**: so are messages, which can be built again of what
  is read.
* `Balanced`, **`path_iff`**: the elements that may stand in a message are those that end all sections
  and lists they begin.
-/

namespace StrongSwan

namespace Vici

/-! ## Reading back what was written -/

/-- The element can be read back. -/
structure Element.Fits (e : Element) : Prop where
  name_le : e.name.length ≤ 255
  printable : chunkPrintable e.name = true
  value_le : e.value.length ≤ 0xffff

theorem readUint8_cons (b : U8) (rest : Chunk) :
    BioReader.readUint8 (b :: rest) = some (b, rest) := by
  simp [BioReader.readUint8]

theorem readName_writeData8 {name : Chunk} (hlen : name.length ≤ 255)
    (hprint : chunkPrintable name = true) (rest : Chunk) :
    readName (BioWriter.writeData8 [] name ++ rest) = some (name, rest) := by
  rw [readName, BioWriter.readData8_writeData8 hlen]
  exact if_pos hprint

theorem ofU8_toU8 (e : Element) : ViciType.ofU8 e.type.toU8 = e.type := by cases e <;> rfl

variable {level level' : Level}

theorem parseEnumerate_encode {e : Element} (h : e.Fits)
    (hnext : level.next e = some level') (rest : Chunk) (args : Args) :
    ∃ args', args'.element = some e ∧
      parseEnumerate ⟨e.encode ++ rest, level.section_, level.list⟩ args =
        some (args', ⟨rest, level'.section_, level'.list⟩) := by
  unfold Level.next at hnext
  obtain ⟨hverify, hnext⟩ := Option.ite_none_right_eq_some.mp hnext
  have hof := ofU8_toU8 e
  have hname := readName_writeData8 h.name_le h.printable
  have hvalue := BioWriter.readData16_writeData16 h.value_le
  cases e with
  | sectionStart name =>
    cases hnext
    refine ⟨{ args with type := .sectionStart, name := name }, rfl, ?_⟩
    simp only [Element.type, Element.name] at hverify hof hname
    simp [parseEnumerate, Element.encode, readUint8_cons, hof, hverify, hname]
  | sectionEnd =>
    cases hnext
    refine ⟨{ args with type := .sectionEnd }, rfl, ?_⟩
    simp only [Element.type] at hverify hof
    simp [parseEnumerate, Element.encode, readUint8_cons, hof, hverify]
  | keyValue name value =>
    cases hnext
    refine ⟨⟨.keyValue, name, value⟩, rfl, ?_⟩
    simp only [Element.type, Element.name, Element.value] at hverify hof hname hvalue
    simp [parseEnumerate, Element.encode, readUint8_cons, hof, hverify, hname, hvalue]
  | listStart name =>
    cases hnext
    refine ⟨{ args with type := .listStart, name := name }, rfl, ?_⟩
    simp only [Element.type, Element.name] at hverify hof hname
    simp [parseEnumerate, Element.encode, readUint8_cons, hof, hverify, hname]
  | listItem value =>
    cases hnext
    refine ⟨{ args with type := .listItem, value := value }, rfl, ?_⟩
    simp only [Element.type, Element.value] at hverify hof hvalue
    simp [parseEnumerate, Element.encode, readUint8_cons, hof, hverify, hvalue]
  | listEnd =>
    cases hnext
    refine ⟨{ args with type := .listEnd }, rfl, ?_⟩
    simp only [Element.type] at hverify hof
    simp [parseEnumerate, Element.encode, readUint8_cons, hof, hverify]

theorem readName_none {name : Chunk} (hlen : name.length ≤ 255)
    (hprint : chunkPrintable name = false) (rest : Chunk) :
    readName (BioWriter.writeData8 [] name ++ rest) = none := by
  rw [readName, BioWriter.readData8_writeData8 hlen]
  exact if_neg (by simp [hprint])

theorem parseEnumerate_none {e : Element} (hname : e.name.length ≤ 255)
    (hprint : chunkPrintable e.name = false) (rest : Chunk) (level : Level) (args : Args) :
    parseEnumerate ⟨e.encode ++ rest, level.section_, level.list⟩ args = none := by
  have hof := ofU8_toU8 e
  have hread := readName_none hname hprint
  cases e with
  | sectionStart name =>
    simp only [Element.type, Element.name] at hof hread
    simp [parseEnumerate, Element.encode, readUint8_cons, hof, hread]
  | keyValue name value =>
    simp only [Element.type, Element.name] at hof hread
    simp [parseEnumerate, Element.encode, readUint8_cons, hof, hread]
  | listStart name =>
    simp only [Element.type, Element.name] at hof hread
    simp [parseEnumerate, Element.encode, readUint8_cons, hof, hread]
  | sectionEnd | listItem | listEnd => cases hprint

/-! ## Runs of elements -/

namespace Args

/-- What a caller sees: a type, and an element if it is not the end. -/
def seen (args : Args) : ViciType × Option Element := (args.type, args.element)

theorem seen_eq {args : Args} {e : Element} (h : args.element = some e) :
    args.seen = (e.type, some e) := by
  obtain ⟨type, name, value⟩ := args
  cases type with
  | start | end_ | unknown => cases h
  | sectionStart | sectionEnd | keyValue | listStart | listItem | listEnd =>
    cases h
    rfl

theorem type_ne_end {args : Args} {e : Element} (h : args.element = some e) : args.type ≠ .end_ := by
  intro hend
  rw [element, hend] at h
  cases h

end Args

/-- The level behind a sequence of elements, if they may stand there. -/
def Level.path : Level → List Element → Option Level
  | level, [] => some level
  | level, e :: es => (level.next e).bind (·.path es)

theorem Level.path_append (level : Level) (es es' : List Element) :
    level.path (es ++ es') = (level.path es).bind (·.path es') := by
  induction es generalizing level with
  | nil => rfl
  | cons e es ih =>
    rw [List.cons_append, Level.path, Level.path]
    cases level.next e with
    | none => rfl
    | some level' => exact ih level'

theorem length_le_flatMap_encode (es : List Element) :
    es.length ≤ (es.flatMap Element.encode).length := by
  induction es with
  | nil => rfl
  | cons e es ih =>
    have hpos : 0 < e.encode.length := by
      cases e with
      | sectionStart | sectionEnd | keyValue | listStart | listItem | listEnd => exact Nat.succ_pos _
    rw [List.flatMap_cons, List.length_append, List.length_cons]
    omega

variable {es : List Element}

/-- **Elements that fit are enumerated as they were written.** -/
theorem enumerate_encode (hfits : ∀ e ∈ es, e.Fits)
    (hpath : level.path es = some level') {fuel : ℕ} (hfuel : es.length < fuel) (args : Args) :
    (enumerate fuel ⟨es.flatMap Element.encode, level.section_, level.list⟩ args).map Args.seen =
      es.map (fun e => (e.type, some e)) ++ [(.end_, none)] := by
  induction es generalizing level fuel args with
  | nil =>
    obtain ⟨fuel, rfl⟩ := Nat.exists_eq_succ_of_ne_zero (Nat.ne_of_gt hfuel)
    simp [enumerate, parseEnumerate, BioReader.readUint8, Args.seen, Args.element]
  | cons e es ih =>
    obtain ⟨fuel, rfl⟩ := Nat.exists_eq_succ_of_ne_zero (Nat.ne_of_gt (Nat.zero_lt_of_lt hfuel))
    obtain ⟨he, hes⟩ := List.forall_mem_cons.mp hfits
    obtain ⟨level₁, hnext, hpath⟩ := Option.bind_eq_some_iff.mp hpath
    obtain ⟨args', helement, hparse⟩ :=
      parseEnumerate_encode he hnext (es.flatMap Element.encode) args
    have hend := Args.type_ne_end helement
    rw [List.flatMap_cons, enumerate, hparse]
    dsimp only
    rw [if_neg hend, List.map_cons, Args.seen_eq helement,
      ih hes hpath (Nat.lt_of_succ_lt_succ hfuel)]
    rfl

theorem fits_of_enumerate
    (hsize : ∀ e ∈ es, e.name.length ≤ 255 ∧ e.value.length ≤ 0xffff)
    (hpath : level.path es = some level') {fuel : ℕ} {args : Args}
    (hend : (.end_, none) ∈
      (enumerate fuel ⟨es.flatMap Element.encode, level.section_, level.list⟩ args).map Args.seen) :
    ∀ e ∈ es, e.Fits := by
  induction es generalizing level fuel args with
  | nil => exact List.forall_mem_nil _
  | cons e es ih =>
    obtain ⟨he, hes⟩ := List.forall_mem_cons.mp hsize
    obtain ⟨level₁, hnext, hpath⟩ := Option.bind_eq_some_iff.mp hpath
    cases fuel with
    | zero => cases hend
    | succ fuel =>
      rw [List.flatMap_cons, enumerate] at hend
      cases hprint : chunkPrintable e.name with
      | false =>
        rw [parseEnumerate_none he.1 hprint] at hend
        cases hend
      | true =>
        have hfits : e.Fits := ⟨he.1, hprint, he.2⟩
        obtain ⟨args', helement, hparse⟩ :=
          parseEnumerate_encode hfits hnext (es.flatMap Element.encode) args
        have hnot := Args.type_ne_end helement
        rw [hparse] at hend
        dsimp only at hend
        rw [if_neg hnot, List.map_cons, List.mem_cons, Args.seen_eq helement] at hend
        exact List.forall_mem_cons.mpr ⟨hfits, ih hes hpath (hend.resolve_left (by simp))⟩

theorem add_args (this : ViciBuilder) {args : Args} {e : Element} (h : args.element = some e) :
    this.add args.type args.name args.value = this.add e.type e.name e.value := by
  obtain ⟨type, name, value⟩ := args
  cases type with
  | start | end_ | unknown => cases h
  | sectionStart | sectionEnd | keyValue | listStart | listItem | listEnd =>
    cases h
    rfl

theorem addEnumerated_encode (hfits : ∀ e ∈ es, e.Fits)
    (hpath : level.path es = some level') {fuel : ℕ} (hfuel : es.length < fuel) (args : Args)
    {builder : ViciBuilder} (hlevel : builder.level = level) :
    addEnumerated fuel ⟨es.flatMap Element.encode, level.section_, level.list⟩ args builder =
      ⟨builder.writer ++ es.flatMap Element.encode, builder.error, level'.section_, level'.list⟩ := by
  induction es generalizing level fuel args builder with
  | nil =>
    obtain ⟨fuel, rfl⟩ := Nat.exists_eq_succ_of_ne_zero (Nat.ne_of_gt hfuel)
    cases hpath
    subst hlevel
    simp [addEnumerated, parseEnumerate, BioReader.readUint8, ViciBuilder.level]
  | cons e es ih =>
    obtain ⟨fuel, rfl⟩ := Nat.exists_eq_succ_of_ne_zero (Nat.ne_of_gt (Nat.zero_lt_of_lt hfuel))
    obtain ⟨he, hes⟩ := List.forall_mem_cons.mp hfits
    obtain ⟨level₁, hnext, hpath⟩ := Option.bind_eq_some_iff.mp hpath
    obtain ⟨args', helement, hparse⟩ :=
      parseEnumerate_encode he hnext (es.flatMap Element.encode) args
    have hend := Args.type_ne_end helement
    have hadd : builder.add args'.type args'.name args'.value =
        ⟨builder.writer ++ e.encode, builder.error, level₁.section_, level₁.list⟩ := by
      rw [add_args builder helement, ViciBuilder.add_element, hlevel,
        if_neg (Nat.not_lt.mpr he.value_le), hnext]
      rfl
    rw [List.flatMap_cons, addEnumerated, hparse]
    dsimp only
    rw [if_neg hend, hadd, ih hes hpath (Nat.lt_of_succ_lt_succ hfuel) args' rfl, List.append_assoc]

/-! ## Balanced elements -/

/-- All sections and lists are ended, and items are in lists, which have nothing else. -/
inductive Balanced : List Element → Prop
  | nil : Balanced []
  | keyValue (name value : Chunk) {es : List Element} :
    Balanced es → Balanced (.keyValue name value :: es)
  | list (name : Chunk) (values : List Chunk) {es : List Element} :
    Balanced es → Balanced (.listStart name :: (values.map .listItem ++ .listEnd :: es))
  | section_ (name : Chunk) {body es : List Element} :
    Balanced body → Balanced es → Balanced (.sectionStart name :: (body ++ .sectionEnd :: es))

theorem Balanced.append {es es' : List Element} (h : Balanced es) (h' : Balanced es') :
    Balanced (es ++ es') := by
  induction h with
  | nil => exact h'
  | keyValue name value _ ih => exact .keyValue name value ih
  | list name values _ ih =>
    rw [List.cons_append, List.append_assoc, List.cons_append]
    exact .list name values ih
  | section_ name hbody _ _ ih =>
    rw [List.cons_append, List.append_assoc, List.cons_append]
    exact .section_ name hbody ih

theorem path_items (section_ : U32) (values : List Chunk) (es : List Element) :
    Level.path ⟨section_, true⟩ (values.map .listItem ++ es) = Level.path ⟨section_, true⟩ es := by
  induction values with
  | nil => rfl
  | cons value values ih => exact ih

theorem next_sectionEnd {section_ : U32} (h : section_ ≠ 0) :
    Level.next ⟨section_, false⟩ .sectionEnd = some ⟨section_ - 1, false⟩ := by
  have h : section_ ≠ 0#32 := h
  simp [Level.next, verifyType, Element.type, h]

theorem next_sectionStart (section_ : U32) (name : Chunk) :
    Level.next ⟨section_, false⟩ (.sectionStart name) = some ⟨section_ + 1, false⟩ := rfl

theorem Balanced.path (h : Balanced es) {section_ : U32}
    (hlt : section_.toNat + es.length < 2 ^ 32) :
    Level.path ⟨section_, false⟩ es = some ⟨section_, false⟩ := by
  induction h generalizing section_ with
  | nil => rfl
  | keyValue name value _ ih =>
    rw [List.length_cons] at hlt
    exact ih (by omega)
  | list name values _ ih =>
    rw [List.length_cons, List.length_append, List.length_cons] at hlt
    change Level.path ⟨section_, true⟩ _ = _
    rw [path_items]
    exact @ih section_ (by omega)
  | section_ name _ _ ihbody ih =>
    rw [List.length_cons, List.length_append, List.length_cons] at hlt
    have hsucc : (section_ + 1).toNat = section_.toNat + 1 := by bv_omega
    have hne : section_ + 1 ≠ 0 := fun hzero => by
      rw [hzero] at hsucc
      cases hsucc
    rw [Level.path, next_sectionStart, Option.bind_some, Level.path_append, ihbody (by omega),
      Option.bind_some, Level.path]
    rw [next_sectionEnd hne, BitVec.add_sub_cancel]
    exact ih (by omega)

/-- The elements end as many sections as are open, and nothing else that they do not begin. -/
def Closes : ℕ → List Element → Prop
  | 0, es => Balanced es
  | depth + 1, es => ∃ body es', es = body ++ .sectionEnd :: es' ∧ Balanced body ∧ Closes depth es'

theorem Closes.append {depth : ℕ} {es es' : List Element} (h : Balanced es) (h' : Closes depth es') :
    Closes depth (es ++ es') := by
  cases depth with
  | zero => exact h.append h'
  | succ depth =>
    obtain ⟨body, tail, rfl, hbody, htail⟩ := h'
    exact ⟨es ++ body, tail, (List.append_assoc _ _ _).symm, h.append hbody, htail⟩

theorem closes_of_path {section_ : U32} {list : Bool}
    (hpath : Level.path ⟨section_, list⟩ es = some ⟨0, false⟩)
    (hlt : section_.toNat + es.length < 2 ^ 32) :
    if list then ∃ (values : List Chunk) (es' : List Element),
      es = values.map .listItem ++ .listEnd :: es' ∧
        Closes section_.toNat es'
      else Closes section_.toNat es := by
  induction es generalizing section_ list with
  | nil =>
    cases hpath
    exact .nil
  | cons e es ih =>
    obtain ⟨level, hnext, hpath⟩ := Option.bind_eq_some_iff.mp hpath
    rw [List.length_cons] at hlt
    cases list with
    | false =>
      cases e with
      | sectionStart name =>
        cases hnext
        have hsucc : (section_ + 1).toNat = section_.toNat + 1 := by bv_omega
        have hcloses := @ih (section_ + 1) false hpath (by omega)
        rw [hsucc] at hcloses
        obtain ⟨body, tail, rfl, hbody, htail⟩ := hcloses
        have happend := Closes.append (.section_ name hbody .nil) htail
        rwa [List.cons_append, List.append_assoc, List.singleton_append] at happend
      | sectionEnd =>
        by_cases hzero : section_ = 0
        · rw [hzero] at hnext
          cases hnext
        · rw [next_sectionEnd hzero] at hnext
          cases hnext
          have hpred : (section_ - 1).toNat + 1 = section_.toNat := by bv_omega
          have hcloses := @ih (section_ - 1) false hpath (by omega)
          change Closes section_.toNat _
          rw [← hpred]
          exact ⟨[], es, rfl, .nil, hcloses⟩
      | keyValue name value =>
        cases hnext
        exact Closes.append (.keyValue name value .nil) (@ih section_ false hpath (by omega))
      | listStart name =>
        cases hnext
        obtain ⟨values, tail, rfl, htail⟩ := @ih section_ true hpath (by omega)
        have happend := Closes.append (.list name values .nil) htail
        rwa [List.cons_append, List.append_assoc, List.singleton_append] at happend
      | listItem | listEnd => cases hnext
    | true =>
      cases e with
      | listItem value =>
        cases hnext
        obtain ⟨values, tail, rfl, htail⟩ := @ih section_ true hpath (by omega)
        exact ⟨value :: values, tail, rfl, htail⟩
      | listEnd =>
        cases hnext
        exact ⟨[], es, rfl, @ih section_ false hpath (by omega)⟩
      | sectionStart | sectionEnd | keyValue | listStart => cases hnext

/-- **The elements that may stand in a message are the balanced ones.** -/
theorem path_iff (hlt : es.length < 2 ^ 32) :
    Level.path ⟨0, false⟩ es = some ⟨0, false⟩ ↔ Balanced es :=
  ⟨fun hpath => closes_of_path hpath (by simpa using hlt), fun h => h.path (by simpa using hlt)⟩

end Vici

end StrongSwan
