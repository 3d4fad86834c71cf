import StrongSwan.Collections.Hashtable.Private

/-!
# Enumerating a hash table

* `behind`, `ahead`: the pairs an enumerator has passed, and those it has still to pass.
* **`enumerate_none`**, **`enumerate_some`**: the next pair is the first one ahead.
* **`entries_removeAt`**, **`Sound.removeAt`**: the current pair is removed, and the enumerator goes on with
  the pair behind it.
-/

namespace StrongSwan

namespace PrivateHashtable

variable {K V : Type}

/-- The pairs up to the current one -/
def behind (this : PrivateHashtable K V) (e : Enumerator) : List (Pair K V) :=
  (this.table.take e.row).flatten ++ (this.table.getD e.row []).take e.following

/-- The pairs after the current one -/
def ahead (this : PrivateHashtable K V) (e : Enumerator) : List (Pair K V) :=
  (this.table.getD e.row []).drop e.following ++ (this.table.drop (e.row + 1)).flatten

/-- The enumerator stands at a pair, and remembers the one before it in the row. -/
structure At (this : PrivateHashtable K V) (e : Enumerator) (p : Pair K V) : Prop where
  row_lt : e.row < this.table.length
  exists_current : ∃ i, e.current = some i ∧ (this.table.getD e.row [])[i]? = some p ∧
    { e with current := e.prev }.following = i

theorem getD_flatten {α : Type} (rows : List (List α)) (i : ℕ) :
    rows.getD i [] ++ (rows.drop (i + 1)).flatten = (rows.drop i).flatten := by
  by_cases hi : i < rows.length
  · rw [List.getD_eq_getElem?_getD, List.getElem?_eq_getElem hi, Option.getD_some,
      List.drop_eq_getElem_cons hi, List.flatten_cons]
  · rw [List.getD_eq_getElem?_getD, List.getElem?_eq_none (by omega),
      List.drop_eq_nil_of_le (by omega), List.drop_eq_nil_of_le (by omega)]
    rfl

theorem entries_eq (this : PrivateHashtable K V) (e : Enumerator) :
    this.entries = this.behind e ++ this.ahead e := by
  rw [entries, behind, ahead, List.append_assoc, ← List.append_assoc (List.take e.following _),
    List.take_append_drop, getD_flatten, ← List.flatten_append, List.take_append_drop]

theorem ahead_createEnumerator (this : PrivateHashtable K V) :
    this.ahead this.createEnumerator = this.entries := by
  rw [ahead, createEnumerator, Enumerator.following, List.drop_zero]
  exact getD_flatten this.table 0

/-! ## The next pair -/

section Enumerate

variable {this : PrivateHashtable K V} {e e' : Enumerator} {p : Pair K V}

theorem ahead_of_getElem? (h : (this.table.getD e.row [])[e.following]? = some p) :
    this.ahead e = p :: this.ahead { e with current := some e.following } := by
  obtain ⟨hlt, hp⟩ := List.getElem?_eq_some_iff.mp h
  rw [ahead, ahead, List.drop_eq_getElem_cons hlt, hp]
  rfl

theorem ahead_next_row (h : (this.table.getD e.row [])[e.following]? = none) (prev : Option ℕ) :
    this.ahead e = this.ahead ⟨e.row + 1, e.count, none, prev⟩ := by
  have hend := List.drop_eq_nil_of_le (List.getElem?_eq_none_iff.mp h)
  rw [ahead, ahead, hend, List.nil_append, Enumerator.following, List.drop_zero, getD_flatten]

theorem enumerate_none (hlength : this.table.length = this.capacity.toNat)
    (h : this.enumerate e = none) : e.count = 0 ∨ this.ahead e = [] := by
  fun_induction enumerate this e with
  | case1 => cases h
  | case2 e _ hend ih =>
    obtain hzero | hnil := ih h
    · exact .inl hzero
    · exact .inr ((ahead_next_row hend _).trans hnil)
  | case3 e hstop =>
    by_cases hzero : e.count = 0
    · exact .inl hzero
    · have hge : this.table.length ≤ e.row := by
        rw [hlength]
        exact not_lt.mp fun hlt => hstop ⟨hzero, hlt⟩
      refine .inr ?_
      rw [ahead, List.getD_eq_getElem?_getD, List.getElem?_eq_none hge,
        List.drop_eq_nil_of_le (show this.table.length ≤ e.row + 1 by omega), Option.getD_none,
        List.drop_nil, List.flatten_nil, List.append_nil]

/-- **The next pair is the first one ahead**, and is counted. -/
theorem enumerate_some (hlength : this.table.length = this.capacity.toNat)
    (h : this.enumerate e = some (p, e')) :
    e.count ≠ 0 ∧ e'.count = e.count - 1 ∧ this.ahead e = p :: this.ahead e' ∧ this.At e' p := by
  fun_induction enumerate this e with
  | case1 e hgo pair hpair =>
    obtain ⟨rfl, rfl⟩ := Prod.mk.inj (Option.some.inj h)
    exact ⟨hgo.1, rfl, ahead_of_getElem? hpair, hlength ▸ hgo.2, _, rfl, hpair, rfl⟩
  | case2 e hgo hend ih =>
    obtain ⟨hzero, hcount, hahead, hat⟩ := ih h
    exact ⟨hzero, hcount, (ahead_next_row hend _).trans hahead, hat⟩
  | case3 => cases h

end Enumerate

/-! ## Removing the current pair -/

section RemoveAt

variable {this : PrivateHashtable K V} {e : Enumerator} {p : Pair K V}

theorem At.removeAt_eq (h : this.At e p) : ∃ i, (this.table.getD e.row [])[i]? = some p ∧
    e.following = i + 1 ∧ { e with current := e.prev }.following = i ∧
    this.removeAt e = ({ this with
      count := this.count - 1
      table := this.table.modify e.row fun r => r.take i ++ r.drop (i + 1) },
      { e with current := e.prev }) := by
  obtain ⟨i, hcurrent, hp, hprev⟩ := h.exists_current
  refine ⟨i, hp, by rw [Enumerator.following, hcurrent], hprev, ?_⟩
  rw [removeAt, hcurrent]
  subst hprev
  obtain ⟨row, count, current, _ | prev⟩ := e
  · rfl
  · rfl

/-- **The pair is removed, and those behind and ahead of it stay.** -/
theorem entries_removeAt (h : this.At e p) :
    this.behind e = (this.removeAt e).1.behind (this.removeAt e).2 ++ [p] ∧
      (this.removeAt e).1.ahead (this.removeAt e).2 = this.ahead e := by
  obtain ⟨i, hp, hnext, hprev, hremove⟩ := h.removeAt_eq
  have hrow := h.row_lt
  rw [List.getD_eq_getElem?_getD, List.getElem?_eq_getElem hrow, Option.getD_some] at hp
  obtain ⟨hi, hp⟩ := List.getElem?_eq_some_iff.mp hp
  have hrow' : e.row < (this.table.modify e.row fun r => r.take i ++ r.drop (i + 1)).length := by
    rw [List.length_modify]
    exact hrow
  have htake : (List.take i this.table[e.row]).length = i := List.length_take_of_le hi.le
  rw [hremove, behind, behind, ahead, ahead, hprev, hnext]
  dsimp only
  rw [List.getD_eq_getElem?_getD, List.getD_eq_getElem?_getD, List.getElem?_eq_getElem hrow,
    List.getElem?_eq_getElem hrow', Option.getD_some, Option.getD_some, List.getElem_modify,
    if_pos rfl, List.take_left' htake, List.drop_left' htake]
  constructor
  · rw [List.take_modify, List.modify_eq_self (by rw [List.length_take]; omega),
      List.take_succ_eq_append_getElem hi, hp, List.append_assoc]
  · rw [List.drop_modify_of_lt _ _ _ _ (Nat.lt_succ_self _)]

/-- **A table stays sound when the current pair is removed.** -/
theorem Sound.removeAt (hs : this.Sound) (h : this.At e p) :
    (this.removeAt e).1.Sound ∧ (this.removeAt e).1.hash = this.hash ∧
      (this.removeAt e).1.equals = this.equals := by
  obtain ⟨hbehind, hahead⟩ := entries_removeAt h
  have hlength : this.entries.length = (this.removeAt e).1.entries.length + 1 := by
    rw [entries_eq this e, entries_eq _ (this.removeAt e).2, hahead, hbehind]
    simp only [List.length_append, List.length_singleton]
    omega
  obtain ⟨i, -, -, -, hremove⟩ := h.removeAt_eq
  rw [hremove] at hlength ⊢
  refine ⟨⟨⟨hs.power, hs.mask⟩, ?_, ?_⟩, rfl, rfl⟩
  · have hsub : ∀ r : List (Pair K V),
        ((r.take i ++ r.drop (i + 1)).map Hashtable.sig).Sublist (r.map Hashtable.sig) := by
      intro r
      rw [← List.eraseIdx_eq_take_drop_succ]
      exact (List.eraseIdx_sublist r i).map _
    exact hs.wf.of_rows rfl rfl rfl rfl (Hashtable.forall₂_modify (fun _ => .refl _) hsub _ _)
  · dsimp only at hlength ⊢
    rw [hs.count, hlength, BitVec.ofNat_add]
    exact BitVec.add_sub_cancel ..

end RemoveAt

end PrivateHashtable

end StrongSwan
