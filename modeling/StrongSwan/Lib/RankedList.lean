import Mathlib

/-!
# Lists ordered by rank and age

A list in which lower ranks come first and, among equal ranks, newer elements.

* `pairwise_orderedInsert`: inserting a new element before the first one of at least its rank keeps
  the order.
* **`find?_first`**: the first element with a property comes before all others that have it.
-/

namespace RankedList

universe u v

variable {α : Type u} {β : Type v} [LinearOrder β] {rank : α → β} {stamp : α → ℕ}

/-- `a` has a lower rank than `b`, or is newer. -/
def Before (rank : α → β) (stamp : α → ℕ) (a b : α) : Prop :=
  rank a < rank b ∨ rank a = rank b ∧ stamp b < stamp a

theorem Before.le {a b : α} (h : Before rank stamp a b) : rank a ≤ rank b := by
  obtain h | ⟨h, -⟩ := h
  · exact h.le
  · exact h.le

/-- **Insertion of a new element.** -/
theorem pairwise_orderedInsert {l : List α} (h : l.Pairwise (Before rank stamp)) {x : α}
    (hnew : ∀ a ∈ l, stamp a < stamp x) :
    (l.orderedInsert (fun a b => rank a ≤ rank b) x).Pairwise (Before rank stamp) := by
  induction l with
  | nil => simp
  | cons a l ih =>
    obtain ⟨ha, hl⟩ := List.pairwise_cons.mp h
    rw [List.orderedInsert_cons]
    split_ifs with hle
    · -- everything from here on has at least the rank of `a`
      refine List.pairwise_cons.mpr ⟨fun b hb => ?_, h⟩
      have hab : rank a ≤ rank b := by
        obtain rfl | hb := List.mem_cons.mp hb
        · exact le_rfl
        · exact (ha b hb).le
      obtain hlt | heq := (hle.trans hab).lt_or_eq
      · exact .inl hlt
      · exact .inr ⟨heq, hnew b hb⟩
    · refine List.pairwise_cons.mpr ⟨fun b hb => ?_, ih hl fun b hb =>
        hnew b (List.mem_cons_of_mem _ hb)⟩
      obtain rfl | hb := List.mem_cons.mp (List.perm_orderedInsert _ _ _ |>.subset hb)
      · exact .inl (not_le.mp hle)
      · exact ha b hb

/-- **The first element with a property.** -/
theorem find?_first {R : α → α → Prop} {l : List α} (h : l.Pairwise R) {p : α → Bool} {a : α}
    (hfind : l.find? p = some a) {b : α} (hb : b ∈ l) (hp : p b = true) : b = a ∨ R a b := by
  obtain ⟨-, l₁, l₂, rfl, hnot⟩ := List.find?_eq_some_iff_append.mp hfind
  rw [List.mem_append, List.mem_cons] at hb
  obtain hb | rfl | hb := hb
  · have := hnot b hb
    rw [hp] at this
    cases this
  · exact .inl rfl
  · have := (List.pairwise_append.mp h).2.1
    exact .inr ((List.pairwise_cons.mp this).1 b hb)

end RankedList
