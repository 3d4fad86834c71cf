import Mathlib.Data.List.Sort

/-!
# Insertion by a partial order

Elements are inserted one by one, each before the first one it dominates. Domination is a strict
partial order, so this does not sort, but no element ends up behind one it dominates.

* `Undominated`: no element is behind one it dominates. `Undominated.insertAll`: insertions keep it.
* `Undominated.filter_insertAll`: elements that dominate the same ones keep the order they are inserted in.
-/

namespace Dominance

variable {α : Type*} {dom : α → α → Prop} {l : List α}

/-- No element is behind one it dominates. -/
def Undominated (dom : α → α → Prop) (l : List α) : Prop := l.Pairwise fun a b => ¬dom b a

theorem exists_split (dom : α → α → Prop) [DecidableRel dom] (l : List α) (a : α) :
    ∃ before after, l = before ++ after ∧ l.orderedInsert dom a = before ++ a :: after ∧
      (∀ b ∈ before, ¬dom a b) ∧ ∀ b ∈ after.head?, dom a b := by
  induction l with
  | nil => exact ⟨[], [], rfl, rfl, by simp, by simp⟩
  | cons b l ih =>
    by_cases h : dom a b
    · exact ⟨[], b :: l, rfl, by simp [h], by simp, by simpa using h⟩
    · obtain ⟨before, after, hl, hinsert, hbefore, hafter⟩ := ih
      refine ⟨b :: before, after, by simp [hl], ?_, ?_, hafter⟩
      · rw [List.orderedInsert_cons, if_neg h, hinsert]
        rfl
      · intro c hc
        rcases List.mem_cons.mp hc with rfl | hc
        · exact h
        · exact hbefore c hc

theorem Undominated.not_dom [IsStrictOrder α dom] {before after : List α}
    (hl : Undominated dom (before ++ after)) {first : α} (hfirst : first ∈ after.head?) {b : α}
    (hb : b ∈ after) : ¬dom b first := by
  cases after with
  | nil => simp at hb
  | cons c after =>
    obtain rfl : c = first := by simpa using hfirst
    rcases List.mem_cons.mp hb with rfl | hb
    · exact irrefl_of dom b
    · exact (List.pairwise_cons.mp (List.pairwise_append.mp hl).2.1).1 b hb

theorem exists_head {after : List α} {b : α} (hb : b ∈ after) : ∃ first, first ∈ after.head? := by
  cases after with
  | nil => simp at hb
  | cons first after => exact ⟨first, rfl⟩

variable [IsStrictOrder α dom] [DecidableRel dom]

theorem Undominated.orderedInsert (hl : Undominated dom l) (a : α) : Undominated dom (l.orderedInsert dom a) := by
  obtain ⟨before, after, rfl, hinsert, hbefore, hafter⟩ := exists_split dom l a
  obtain ⟨h₁, h₂, h₁₂⟩ := List.pairwise_append.mp hl
  rw [hinsert, Undominated, List.pairwise_append, List.pairwise_cons]
  refine ⟨h₁, ⟨fun b hb hdom => ?_, h₂⟩, ?_⟩
  · obtain ⟨first, hfirst⟩ := exists_head hb
    exact hl.not_dom hfirst hb (trans_of dom hdom (hafter first hfirst))
  intro b hb c hc
  rcases List.mem_cons.mp hc with rfl | hc
  · exact hbefore b hb
  · exact h₁₂ b hb c hc

/-- Insert elements one by one. -/
def insertAll (dom : α → α → Prop) [DecidableRel dom] (items l : List α) : List α :=
  items.foldl (fun l a => l.orderedInsert dom a) l

omit [IsStrictOrder α dom] in
theorem perm_insertAll (items l : List α) : (insertAll dom items l).Perm (l ++ items) := by
  induction items generalizing l with
  | nil => simp [insertAll]
  | cons a items ih =>
    exact (ih _).trans (((List.perm_orderedInsert dom a l).append_right items).trans
      List.perm_middle.symm)

theorem Undominated.insertAll (hl : Undominated dom l) (items : List α) :
    Undominated dom (insertAll dom items l) := by
  induction items generalizing l with
  | nil => exact hl
  | cons a items ih => exact ih (hl.orderedInsert a)

theorem Undominated.filter_orderedInsert (hl : Undominated dom l) {p : α → Bool}
    (hp : ∀ x y z, p x = true → p y = true → dom x z → dom y z) (a : α) :
    (l.orderedInsert dom a).filter p = l.filter p ++ [a].filter p := by
  obtain ⟨before, after, rfl, hinsert, -, hafter⟩ := exists_split dom l a
  by_cases ha : p a = true
  · have hnone : after.filter p = [] := by
      refine List.filter_eq_nil_iff.mpr fun b hb hpb => ?_
      obtain ⟨first, hfirst⟩ := exists_head hb
      exact hl.not_dom hfirst hb (hp a b first ha hpb (hafter first hfirst))
    rw [hinsert, List.filter_append, List.filter_cons_of_pos ha, List.filter_append, hnone]
    simp [ha]
  · rw [hinsert, List.filter_append, List.filter_cons_of_neg ha]
    simp [ha]

/-- **Elements that dominate the same ones keep their order.** -/
theorem Undominated.filter_insertAll (hl : Undominated dom l) {p : α → Bool}
    (hp : ∀ x y z, p x = true → p y = true → dom x z → dom y z) (items : List α) :
    (Dominance.insertAll dom items l).filter p = l.filter p ++ items.filter p := by
  induction items generalizing l with
  | nil => simp [Dominance.insertAll]
  | cons a items ih =>
    rw [Dominance.insertAll, List.foldl_cons, ← Dominance.insertAll, ih (hl.orderedInsert a),
      hl.filter_orderedInsert hp, List.append_assoc,
      ← List.filter_append, List.singleton_append]

end Dominance
