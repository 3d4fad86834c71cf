import StrongSwan.Collections.RawArray

/-!
# Arrays and lists

* `Op`, `ArrayState`, `ListState`: operations on an array with enumerators, and the same on a list.
* `Stores`: the elements in the block are those of a list.
* `Refines`: what every operation preserves; `Fits`, `FitsAll`: the insertions of a run whose sizes do
  not overflow.
* **`refinesList_of_fits`**: such runs go as those of a list, for elements of less than 2¹⁶ bytes.
-/

namespace StrongSwan.RawArray

/-- The size of the elements of an array that is created for `esize`. -/
def elementSize (esize : ℕ) : ℕ := if esize = 0 then 8 else esize

/-- The operations on an array; enumerators are numbered. -/
inductive Op (esize : ℕ)
  | insert (idx : ℤ) (ptr : Element 8) (pointee : Element esize)
  | remove (idx : ℤ) (data : Bool)
  | get (idx : ℤ) (data : Bool)
  | compress
  | createEnumerator (enumerator : ℕ)
  | enumerate (enumerator : ℕ)
  | removeAt (enumerator : ℕ)

/-- An array, and the indices of its enumerators. -/
structure ArrayState where
  array : RawArray
  idx : ℕ → ℕ

/-- What an operation returns besides the array. -/
abbrev Output : Type := Option (List (Option U8))

variable {esize : ℕ}

namespace ArrayState

def create (esize : ℕ) (reserve : U8) : ArrayState := ⟨RawArray.create esize reserve, fun _ => 0⟩

def exec (this : ArrayState) : Op esize → Except Fault (ArrayState × Output)
  | .insert idx ptr pointee => do
    let array ← this.array.insert idx ptr.bytes pointee.bytes
    return (⟨array, this.idx⟩, none)
  | .remove idx data => do
    let (out, array) ← this.array.remove idx data
    return (⟨array, this.idx⟩, out)
  | .get idx data => do
    let out ← this.array.get idx data
    return (this, out)
  | .compress => do
    let array ← this.array.compress
    return (⟨array, this.idx⟩, none)
  | .createEnumerator e => return (⟨this.array, Function.update this.idx e 0⟩, none)
  | .enumerate e => do
    let (out, idx) ← this.array.enumerate (this.idx e)
    return (⟨this.array, Function.update this.idx e idx⟩, out)
  | .removeAt e => do
    let (array, idx) ← this.array.removeAt (this.idx e)
    return (⟨array, Function.update this.idx e idx⟩, none)

def run (this : ArrayState) : List (Op esize) → Except Fault (ArrayState × List Output)
  | [] => return (this, [])
  | op :: ops => do
    let (next, out) ← this.exec op
    let (last, outs) ← next.run ops
    return (last, out :: outs)

/-- An insertion that adds no element beyond 2³¹ and does not grow the block of elements beyond 2³². -/
def Fits (this : ArrayState) : Op esize → Prop
  | .insert _ _ _ => this.array.count + 1 < 2 ^ 31 ∧
      (this.array.esize ≠ 0 → this.array.head = 0 → this.array.tail = 0 →
        this.array.esize * (this.array.count + 1) < 2 ^ 32)
  | _ => True

/-- Every insertion of a run fits. -/
def FitsAll (this : ArrayState) : List (Op esize) → Prop
  | [] => True
  | op :: ops => this.Fits op ∧ ∀ next out, this.exec op = .ok (next, out) → next.FitsAll ops

end ArrayState

section list

variable {α : Type}

/-- The position that an index stands for. -/
def position (list : List α) (idx : ℤ) : Option ℕ :=
  if idx < 0 then if list.length = 0 then none else some (list.length - 1)
  else if idx < list.length then some idx.toNat else none

def insertAt (list : List α) (idx : ℤ) (a : α) : List α :=
  if idx < 0 then list ++ [a] else if idx ≤ list.length then list.insertIdx idx.toNat a else list

theorem eraseIdx_middle (l r : List α) (a : α) : (l ++ a :: r).eraseIdx l.length = l ++ r := by
  rw [List.eraseIdx_append_of_length_le (le_refl _), Nat.sub_self, List.eraseIdx_cons_zero]

theorem getElem_middle (l r : List α) (a : α) : (l ++ a :: r)[l.length]? = some a := by
  rw [List.getElem?_append_right (le_refl _), Nat.sub_self, List.getElem?_cons_zero]

theorem insertIdx_middle (l r : List α) (a : α) : (l ++ r).insertIdx l.length a = l ++ a :: r := by
  induction l with
  | nil => exact List.insertIdx_zero
  | cons b l ih => exact List.insertIdx_succ_cons.trans (congrArg (b :: ·) ih)

theorem exists_middle {list : List α} {i : ℕ} (h : i < list.length) :
    ∃ l a r, list = l ++ a :: r ∧ i = l.length := by
  refine ⟨list.take i, list[i], list.drop (i + 1), ?_, (List.length_take_of_le h.le).symm⟩
  rw [← List.drop_eq_getElem_cons h, List.take_append_drop]

theorem position_cases (list : List α) (idx : ℤ) :
    (position list idx = none ∧ (0 ≤ idx ∧ list.length ≤ idx ∨ idx < 0 ∧ list.length = 0)) ∨
      ∃ l a r, list = l ++ a :: r ∧ position list idx = some l.length ∧
        (idx = l.length ∨ idx < 0 ∧ r = []) := by
  rw [position]
  split_ifs with hneg hnil hlt
  · exact .inl ⟨rfl, .inr ⟨hneg, hnil⟩⟩
  · obtain ⟨l, a, r, rfl, hlen⟩ := exists_middle (show list.length - 1 < list.length by omega)
    rw [List.length_append, List.length_cons] at hlen
    refine .inr ⟨l, a, r, rfl, ?_, .inr ⟨hneg, List.eq_nil_of_length_eq_zero (by omega)⟩⟩
    rw [List.length_append, List.length_cons, hlen]
  · obtain ⟨l, a, r, rfl, hlen⟩ := exists_middle (show idx.toNat < list.length by omega)
    exact .inr ⟨l, a, r, rfl, congrArg some hlen, .inl (by omega)⟩
  · exact .inl ⟨rfl, .inl ⟨by omega, by omega⟩⟩

theorem insertAt_cases (list : List α) (idx : ℤ) (a : α) :
    (∃ l r, list = l ++ r ∧ (idx = l.length ∨ idx < 0 ∧ r = []) ∧
      insertAt list idx a = l ++ a :: r) ∨
      ¬ (idx < 0 ∨ idx ≤ list.length) ∧ insertAt list idx a = list := by
  rw [insertAt]
  split_ifs with hneg hle
  · exact .inl ⟨list, [], (List.append_nil _).symm, .inr ⟨hneg, rfl⟩, rfl⟩
  · have hlen : (list.take idx.toNat).length = idx.toNat := List.length_take_of_le (by omega)
    refine .inl ⟨list.take idx.toNat, list.drop idx.toNat, (List.take_append_drop _ _).symm,
      .inl (by omega), ?_⟩
    have hins := insertIdx_middle (list.take idx.toNat) (list.drop idx.toNat) a
    rw [List.take_append_drop, hlen] at hins
    exact hins
  · exact .inr ⟨by omega, rfl⟩

end list

/-- A list of elements, and the indices of its enumerators. -/
structure ListState (esize : ℕ) where
  list : List (Element (elementSize esize))
  idx : ℕ → ℕ

/-- What is inserted: the pointer, or what it points to. -/
def item (ptr : Element 8) (pointee : Element esize) : Element (elementSize esize) :=
  if h : esize = 0 then ⟨ptr.bytes, ptr.length_eq.trans (if_pos h).symm⟩
  else ⟨pointee.bytes, pointee.length_eq.trans (if_neg h).symm⟩

namespace ListState

def empty (esize : ℕ) : ListState esize := ⟨[], fun _ => 0⟩

def exec (this : ListState esize) : Op esize → ListState esize × Output
  | .insert idx ptr pointee => (⟨insertAt this.list idx (item ptr pointee), this.idx⟩, none)
  | .remove idx data =>
    match position this.list idx with
    | none => (this, none)
    | some i => (⟨this.list.eraseIdx i, this.idx⟩, this.list[i]?.map (copied data))
  | .get idx data => (this, (position this.list idx).bind fun i => this.list[i]?.map (copied data))
  | .compress => (this, none)
  | .createEnumerator e => (⟨this.list, Function.update this.idx e 0⟩, none)
  | .enumerate e =>
    match this.list[this.idx e]? with
    | none => (this, none)
    | some a => (⟨this.list, Function.update this.idx e (this.idx e + 1)⟩, some (copied true a))
  | .removeAt e =>
    if this.idx e ≠ 0 then
      (⟨this.list.eraseIdx (this.idx e - 1), Function.update this.idx e (this.idx e - 1)⟩, none)
    else (this, none)

def run (this : ListState esize) : List (Op esize) → ListState esize × List Output
  | [] => (this, [])
  | op :: ops =>
    let (next, out) := this.exec op
    let (last, outs) := next.run ops
    (last, out :: outs)

end ListState

/-- The block holds the elements of the list between the unused ones. -/
def Stores {n : ℕ} (this : RawArray) (list : List (Element n)) : Prop :=
  ∃ front back, this.data = front ++ ((list.flatMap Element.bytes).map some ++ back) ∧
    front.length = n * this.head ∧ this.count = list.length ∧ back.length = n * this.tail

/-- The bytes are those of slots that hold the list, and sizes do not overflow. -/
def Refines (this : RawArray) (esize : ℕ) (list : List (Element (elementSize esize))) : Prop :=
  this.esize = esize ∧ ∃ slots : ArrayT (Element (elementSize esize)), Renders this slots ∧
    slots.Holds list ∧ Roomy slots ∧ slots.count < 2 ^ 31 ∧
    Exact esize (elementSize esize) (slots.head + slots.count + slots.tail)

theorem stores_of_refines {this : RawArray} {list : List (Element (elementSize esize))}
    (h : this.Refines esize list) : this.Stores list := by
  obtain ⟨-, slots, hr, ⟨front, back, hdata, hfront, hcount, hback⟩, -⟩ := h
  refine ⟨front.flatMap cells, back.flatMap cells, ?_, ?_, hr.count_eq.trans hcount, ?_⟩
  · rw [hr.data_eq, hdata, List.flatMap_append, List.flatMap_append, List.flatMap_map,
      List.map_flatMap]
    rfl
  · rw [Uniform.length_flatMap length_cells, hfront, hr.head_eq]
  · rw [Uniform.length_flatMap length_cells, hback, hr.tail_eq]

theorem exact_elementSize {cap : ℕ} (hcap : cap < 2 ^ 32)
    (hlt : esize ≠ 0 → esize * cap < 2 ^ 32) : Exact esize (elementSize esize) cap := by
  by_cases hzero : esize = 0
  · rw [elementSize, if_pos hzero, hzero]
    exact exact_zero hcap
  · rw [elementSize, if_neg hzero]
    exact exact_of_pos hzero (hlt hzero)

theorem refines_create (hesize : esize < 2 ^ 16) (reserve : U8) :
    (create esize reserve).Refines esize [] := by
  have hmod : esize % 2 ^ 16 = esize := Nat.mod_eq_of_lt hesize
  have hlt : reserve.toNat < 2 ^ 8 := reserve.isLt
  have hexact : Exact esize (elementSize esize) reserve.toNat := by
    refine exact_elementSize (by omega) fun _ => ?_
    calc
      esize * reserve.toNat ≤ 2 ^ 16 * 2 ^ 8 := Nat.mul_le_mul hesize.le hlt.le
      _ < 2 ^ 32 := by decide
  refine ⟨hmod, ArrayT.create reserve.toNat, ⟨rfl, rfl, rfl, ?_⟩, ArrayT.holds_create _,
    .inr ⟨rfl, ?_⟩, Nat.two_pow_pos 31, ?_⟩
  · show (if reserve.toNat ≠ 0 then _ else _) = (List.replicate reserve.toNat none).flatMap cells
    rw [Uniform.replicate_flatMap (f := cells) (a := none) rfl]
    split_ifs with hzero
    · rw [hexact.eq hmod rfl (le_refl _)]
    · rw [not_not.mp hzero]
      rfl
  · show reserve.toNat + 0 < 2 ^ 8
    omega
  · show Exact esize _ (0 + 0 + reserve.toNat)
    rw [Nat.zero_add]
    exact hexact

theorem copied_item {this : RawArray} (hesize : this.esize = esize) (ptr : Element 8)
    (pointee : Element esize) : this.Copied ptr.bytes pointee.bytes (item ptr pointee) := by
  have hlen := pointee.length_eq
  rw [Copied, hesize]
  by_cases hzero : esize = 0
  · rw [if_neg (not_not_intro hzero), item, dif_pos hzero]
  · have hsize : elementSize esize = esize := if_neg hzero
    rw [if_pos hzero, item, dif_neg hzero]
    exact ⟨(hlen.trans hsize.symm).ge, List.take_of_length_le (hlen.trans hsize.symm).le⟩

section steps

variable {this : RawArray} {list : List (Element (elementSize esize))}

theorem refines_insert (h : this.Refines esize list) (hcount : this.count + 1 < 2 ^ 31)
    (hsize : this.esize ≠ 0 → this.head = 0 → this.tail = 0 →
      this.esize * (this.count + 1) < 2 ^ 32) (idx : ℤ) (ptr : Element 8) (pointee : Element esize) :
    ∃ next, this.insert idx ptr.bytes pointee.bytes = .ok next ∧
      next.Refines esize (insertAt list idx (item ptr pointee)) := by
  obtain ⟨hesize, slots, hr, hslots, hroomy, hlt, hexact⟩ := h
  rw [hr.count_eq] at hcount hsize
  rw [hesize, hr.head_eq, hr.tail_eq] at hsize
  obtain ⟨cap, hcap, hroom, hexact⟩ : ∃ cap, slots.head + slots.count + slots.tail ≤ cap ∧
      (slots.head = 0 → slots.tail = 0 → slots.count + 1 ≤ cap) ∧
      Exact esize (elementSize esize) cap := by
    by_cases hunused : slots.head = 0 ∧ slots.tail = 0
    · exact ⟨slots.count + 1, by omega, fun _ _ => le_refl _,
        exact_elementSize (by omega) fun hne => hsize hne hunused.1 hunused.2⟩
    · exact ⟨_, le_refl _, fun hhead htail => absurd ⟨hhead, htail⟩ hunused, hexact⟩
  obtain ⟨next, hnext, hrn, hesizen, hle⟩ := insert_renders hr hslots (hesize.symm ▸ hexact) hcap hroom
    hcount idx (copied_item hesize ptr pointee)
  have hlen : slots.count = list.length := by
    obtain ⟨-, -, -, -, hlen, -⟩ := hslots
    exact hlen
  have hheld : (slots.insert idx (item ptr pointee)).Holds (insertAt list idx (item ptr pointee)) ∧
      (slots.insert idx (item ptr pointee)).count < 2 ^ 31 := by
    rcases insertAt_cases list idx (item ptr pointee) with ⟨l, r, rfl, hidx, hins⟩ | ⟨hout, hins⟩
    · have hheld := ArrayT.holds_insert hslots hidx (item ptr pointee)
      rw [hins]
      refine ⟨hheld, ?_⟩
      obtain ⟨-, -, -, -, hlen', -⟩ := hheld
      rw [List.length_append] at hlen
      rw [hlen', List.length_append, List.length_cons]
      omega
    · rw [hins, ArrayT.insert, if_neg (by omega)]
      exact ⟨hslots, hlt⟩
  exact ⟨next, hnext, hesizen.trans hesize, _, hrn, hheld.1, roomy_insert hroomy _ _, hheld.2,
    hexact.mono hle⟩

theorem refines_get (h : this.Refines esize list) (idx : ℤ) (data : Bool) :
    this.get idx data =
      .ok ((position list idx).bind fun i => list[i]?.map (copied data)) := by
  obtain ⟨hesize, slots, hr, hslots, hroomy, hlt, hexact⟩ := h
  have hlen : slots.count = list.length := by
    obtain ⟨-, -, -, -, hlen, -⟩ := hslots
    exact hlen
  rcases position_cases list idx with ⟨hnone, hidx⟩ | ⟨l, a, r, rfl, hsome, hidx⟩
  · rw [hnone, get_of_count_le (by rw [hr.count_eq]; exact hlt) data
      (by rw [hr.count_eq, hlen]; exact hidx)]
    rfl
  · rw [hsome, get_renders hr hslots (hesize.symm ▸ hexact) (le_refl _) hlt hidx, Option.bind_some,
      getElem_middle]
    rfl

theorem refines_remove (h : this.Refines esize list) (idx : ℤ) (data : Bool) :
    ∃ next, this.remove idx data =
        .ok ((position list idx).bind fun i => list[i]?.map (copied data), next) ∧
      next.Refines esize (((position list idx).map list.eraseIdx).getD list) := by
  have hget := refines_get h idx data
  obtain ⟨hesize, slots, hr, hslots, hroomy, hlt, hexact⟩ := id h
  rcases position_cases list idx with ⟨hnone, hidx⟩ | ⟨l, a, r, rfl, hsome, hidx⟩
  · rw [hnone] at hget ⊢
    exact ⟨this, by rw [remove, hget]; rfl, h⟩
  · obtain ⟨next, rest, hnext, hrest, hrn, hesizen, hle⟩ :=
      remove_renders hr hslots (hesize.symm ▸ hexact) (le_refl _) hlt hroomy hidx data
    obtain ⟨rest', hrest', hheld⟩ := ArrayT.remove_of_holds hslots hidx
    obtain rfl : rest = rest' := by
      rw [hrest] at hrest'
      injection hrest' with hrest'
      exact congrArg Prod.snd hrest'
    rw [hsome, Option.bind_some, getElem_middle, Option.map_some, Option.map_some, Option.getD_some,
      eraseIdx_middle]
    refine ⟨next, hnext, hesizen.trans hesize, rest, hrn, hheld, .inl (ArrayT.unused_remove hrest), ?_,
      hexact.mono hle⟩
    obtain ⟨-, -, -, -, hlen, -⟩ := hslots
    obtain ⟨-, -, -, -, hlen', -⟩ := hheld
    rw [List.length_append, List.length_cons] at hlen
    rw [List.length_append] at hlen'
    omega

theorem refines_compress (h : this.Refines esize list) :
    ∃ next, this.compress = .ok next ∧ next.Refines esize list := by
  obtain ⟨hesize, slots, hr, hslots, hroomy, hlt, hexact⟩ := h
  obtain ⟨next, hnext, hrn, hesizen⟩ :=
    compress_renders hr hslots (hesize.symm ▸ hexact) (le_refl _)
  have hunused := ArrayT.unused_compress slots
  have hcount : slots.compress.count = slots.count := by
    rw [ArrayT.compress]
    split_ifs <;> rfl
  refine ⟨next, hnext, hesizen.trans hesize, _, hrn, ArrayT.holds_compress hslots, .inl ?_, ?_,
    hexact.mono ?_⟩
  · rw [hunused]
    exact Nat.zero_le _
  · rw [hcount]
    exact hlt
  · omega

theorem refines_enumerate (h : this.Refines esize list) (idx : ℕ) :
    this.enumerate idx = .ok (list[idx]?.map (copied true),
      if idx < list.length then idx + 1 else idx) := by
  obtain ⟨hesize, slots, hr, hslots, hroomy, hlt, hexact⟩ := h
  have hlen : slots.count = list.length := by
    obtain ⟨-, -, -, -, hlen, -⟩ := hslots
    exact hlen
  rw [enumerate, hr.count_eq, hlen]
  by_cases hidx : idx < list.length
  · obtain ⟨l, a, r, rfl, rfl⟩ := exists_middle hidx
    have hload := load_renders hr hslots (hesize.symm ▸ hexact) (le_refl _)
      (m := l.length + this.head) (by rw [hr.head_eq]; push_cast; exact add_comm _ _)
    rw [if_neg (Nat.not_le.mpr hidx), if_pos hidx, getElem_middle]
    show (loadMemory _ _ _ >>= _) = _
    rw [hload]
    rfl
  · rw [if_pos (Nat.not_lt.mp hidx), if_neg hidx,
      List.getElem?_eq_none_iff.mpr (Nat.not_lt.mp hidx)]
    rfl

theorem refines_removeAt (h : this.Refines esize list) {idx : ℕ} (hidx : idx ≠ 0) :
    ∃ next, this.removeAt idx = .ok (next, idx - 1) ∧
      next.Refines esize (list.eraseIdx (idx - 1)) := by
  obtain ⟨next, hnext, hrefines⟩ := refines_remove h (idx - 1) false
  have herase : ((position list (idx - 1)).map list.eraseIdx).getD list =
      list.eraseIdx (idx - 1) := by
    rw [position, if_neg (by omega)]
    split_ifs with hlt
    · rw [Option.map_some, Option.getD_some]
      congr 1
      omega
    · rw [List.eraseIdx_of_length_le (by omega)]
      rfl
  rw [herase] at hrefines
  refine ⟨next, ?_, hrefines⟩
  rw [removeAt, if_pos hidx, hnext]
  rfl

end steps

def Agrees (this : ArrayState) (model : ListState esize) : Prop :=
  this.array.Refines esize model.list ∧ this.idx = model.idx

theorem agrees_exec {this : ArrayState} {model : ListState esize} (h : Agrees this model)
    (op : Op esize) (hfits : this.Fits op) :
    ∃ next, this.exec op = .ok (next, (model.exec op).2) ∧ Agrees next (model.exec op).1 := by
  obtain ⟨hrefines, hidx⟩ := h
  cases op with
  | insert idx ptr pointee =>
    obtain ⟨next, hnext, hrn⟩ := refines_insert hrefines hfits.1 hfits.2 idx ptr pointee
    exact ⟨⟨next, this.idx⟩, by rw [ArrayState.exec, hnext]; rfl, hrn, hidx⟩
  | remove idx data =>
    obtain ⟨next, hnext, hrn⟩ := refines_remove hrefines idx data
    refine ⟨⟨next, this.idx⟩, ?_, ?_⟩
    · rw [ArrayState.exec, hnext, ListState.exec]
      cases position model.list idx <;> rfl
    · rw [ListState.exec]
      cases hat : position model.list idx with
      | none =>
        rw [hat] at hrn
        exact ⟨hrn, hidx⟩
      | some i =>
        rw [hat] at hrn
        exact ⟨hrn, hidx⟩
  | get idx data => exact ⟨this, by rw [ArrayState.exec, refines_get hrefines]; rfl, hrefines, hidx⟩
  | compress =>
    obtain ⟨next, hnext, hrn⟩ := refines_compress hrefines
    exact ⟨⟨next, this.idx⟩, by rw [ArrayState.exec, hnext]; rfl, hrn, hidx⟩
  | createEnumerator e =>
    exact ⟨⟨this.array, Function.update this.idx e 0⟩, rfl, hrefines, by rw [hidx]; rfl⟩
  | enumerate e =>
    refine ⟨⟨this.array, Function.update this.idx e
      (if this.idx e < model.list.length then this.idx e + 1 else this.idx e)⟩, ?_, ?_⟩
    · rw [ArrayState.exec, refines_enumerate hrefines, ListState.exec, ← hidx]
      cases model.list[this.idx e]? <;> rfl
    · rw [ListState.exec, ← hidx]
      by_cases hlt : this.idx e < model.list.length
      · rw [if_pos hlt, List.getElem?_eq_getElem hlt]
        exact ⟨hrefines, rfl⟩
      · rw [if_neg hlt, List.getElem?_eq_none_iff.mpr (Nat.not_lt.mp hlt),
          Function.update_eq_self]
        exact ⟨hrefines, hidx⟩
  | removeAt e =>
    rw [ListState.exec, ← hidx]
    by_cases hzero : this.idx e ≠ 0
    · obtain ⟨next, hnext, hrn⟩ := refines_removeAt hrefines hzero
      rw [if_pos hzero]
      exact ⟨⟨next, Function.update this.idx e (this.idx e - 1)⟩,
        by rw [ArrayState.exec, hnext]; rfl, hrn, rfl⟩
    · rw [if_neg hzero]
      refine ⟨⟨this.array, this.idx⟩, ?_, hrefines, hidx⟩
      rw [ArrayState.exec, removeAt, if_neg hzero]
      show Except.ok (_, _) = _
      rw [Function.update_eq_self]

theorem agrees_run {this : ArrayState} {model : ListState esize} (h : Agrees this model)
    (ops : List (Op esize)) (hfits : this.FitsAll ops) :
    ∃ last, this.run ops = .ok (last, (model.run ops).2) ∧ Agrees last (model.run ops).1 := by
  induction ops generalizing this model with
  | nil => exact ⟨this, rfl, h⟩
  | cons op ops ih =>
    obtain ⟨hop, hops⟩ := hfits
    obtain ⟨next, hnext, hagrees⟩ := agrees_exec h op hop
    obtain ⟨last, hlast, hlasts⟩ := ih hagrees (hops next _ hnext)
    refine ⟨last, ?_, hlasts⟩
    rw [ArrayState.run, hnext]
    show (next.run ops >>= _) = _
    rw [hlast]
    rfl

/-- A run stays in the block, wraps no counter of 8 bits, and returns and stores what that of a list
does. -/
def RefinesList (esize : ℕ) (reserve : U8) (ops : List (Op esize)) : Prop :=
  ∃ last, (ArrayState.create esize reserve).run ops =
      .ok (last, ((ListState.empty esize).run ops).2) ∧
    last.array.Stores ((ListState.empty esize).run ops).1.list ∧
    last.idx = ((ListState.empty esize).run ops).1.idx

/-- **Arrays refine lists**, when the size of elements has 16 bits and insertions fit. -/
theorem refinesList_of_fits (hesize : esize < 2 ^ 16) (reserve : U8) (ops : List (Op esize))
    (hfits : (ArrayState.create esize reserve).FitsAll ops) : RefinesList esize reserve ops := by
  have hinit : Agrees (ArrayState.create esize reserve) (ListState.empty esize) :=
    ⟨refines_create hesize reserve, rfl⟩
  obtain ⟨last, hlast, hrefines, hidx⟩ := agrees_run hinit ops hfits
  exact ⟨last, hlast, stores_of_refines hrefines, hidx⟩

theorem refinesList_of_fits_two :
    RefinesList 2 1
      [.insert (-1) ⟨List.replicate 8 0, rfl⟩ ⟨[1, 2], rfl⟩, .createEnumerator 0, .enumerate 0,
        .removeAt 0] := by
  refine refinesList_of_fits (by decide) 1 _ ⟨?_, ?_⟩
  · exact ⟨by decide, fun _ _ => by decide⟩
  · intro _ _ _
    refine ⟨trivial, fun _ _ _ => ⟨trivial, fun _ _ _ => ⟨trivial, fun _ _ _ => trivial⟩⟩⟩

theorem run_cut (pointee : Element (2 ^ 16)) :
    (ArrayState.create (2 ^ 16) 0).run
      [.insert 0 ⟨List.replicate 8 0, rfl⟩ pointee, .get 0 true] =
        .ok (⟨⟨1, 0, 0, 0, List.replicate 8 (some 0)⟩, fun _ => 0⟩,
          [none, some (List.replicate 8 (some 0))]) := by
  have hcreate : RawArray.create (2 ^ 16) 0 = ⟨0, 0, 0, 0, []⟩ := by
    rw [create, Nat.mod_self]
    rfl
  rw [ArrayState.create, hcreate]
  rfl

theorem not_refinesList :
    ¬ ∀ (esize : ℕ) (reserve : U8) (ops : List (Op esize)), RefinesList esize reserve ops := by
  intro h
  let pointee : Element (2 ^ 16) := ⟨List.replicate (2 ^ 16) 1, List.length_replicate⟩
  obtain ⟨last, hrun, -⟩ := h (2 ^ 16) 0
    [.insert 0 ⟨List.replicate 8 0, rfl⟩ pointee, .get 0 true]
  rw [run_cut] at hrun
  injection hrun with hrun
  injection hrun with _ houts
  injection houts with _ houts
  injection houts with hout
  injection hout with hbytes
  have hlen := congrArg List.length hbytes
  rw [copied, if_pos rfl, List.length_map, Element.length_eq, elementSize, if_neg (by decide)] at hlen
  exact absurd hlen (by decide)

end StrongSwan.RawArray
