import Mathlib

/-!
# Exact narrowing

A partial meet on descriptions of nonempty sets is *exact* if it describes the intersection, and
fails when that is empty.

* `Exact.eq_none_iff`, `Exact.denote_eq`: the two halves of exactness.
* **`Exact.comm`, `Exact.assoc`, `Exact.idem`**: an exact meet is commutative, associative and
  idempotent up to the sets described.
-/

namespace Narrowing

universe u v

variable {α : Type u} {β : Type v}

/-- The set described by a partial description: nothing if there is none. -/
def denoteOption (denote : α → Set β) (x : Option α) : Set β := x.elim ∅ denote

/-- Both fail, or both succeed with valid descriptions of one set. -/
def Same (V : α → Prop) (denote : α → Set β) : Option α → Option α → Prop :=
  Option.Rel fun a b => V a ∧ V b ∧ denote a = denote b

/-- `meet` narrows descriptions that satisfy `V` exactly. -/
structure Exact (V : α → Prop) (denote : α → Set β) (meet : α → α → Option α) : Prop where
  nonempty : ∀ {a}, V a → (denote a).Nonempty
  closed : ∀ {a b c}, V a → V b → meet a b = some c → V c
  inter : ∀ {a b}, V a → V b → denoteOption denote (meet a b) = denote a ∩ denote b

namespace Exact

variable {V : α → Prop} {denote : α → Set β} {meet : α → α → Option α} (h : Exact V denote meet)
  {a b c : α} (ha : V a) (hb : V b) (hc : V c)

include h ha hb

/-- An exact meet fails exactly on disjoint sets. -/
theorem eq_none_iff : meet a b = none ↔ Disjoint (denote a) (denote b) := by
  have hinter := h.inter ha hb
  rw [Set.disjoint_iff_inter_eq_empty, ← hinter]
  cases hm : meet a b with
  | none => simp [denoteOption]
  | some c => simpa [denoteOption] using (h.nonempty (h.closed ha hb hm)).ne_empty

theorem denote_eq (hm : meet a b = some c) : denote c = denote a ∩ denote b := by
  have hinter := h.inter ha hb
  rwa [hm] at hinter

omit ha hb in
theorem same_of_eq {x y : Option α} (hx : ∀ a ∈ x, V a) (hy : ∀ b ∈ y, V b)
    (heq : denoteOption denote x = denoteOption denote y) : Same V denote x y := by
  cases x with
  | none =>
    cases y with
    | none => exact .none
    | some b => exact absurd heq.symm (h.nonempty (hy b rfl)).ne_empty
  | some a =>
    cases y with
    | none => exact absurd heq (h.nonempty (hx a rfl)).ne_empty
    | some b => exact .some ⟨hx a rfl, hy b rfl, heq⟩

/-- **Commutativity.** -/
theorem comm : Same V denote (meet a b) (meet b a) := by
  refine h.same_of_eq (fun c => h.closed ha hb) (fun c => h.closed hb ha) ?_
  rw [h.inter ha hb, h.inter hb ha, Set.inter_comm]

/-- **Associativity**, with failure absorbing. -/
theorem assoc (hc : V c) :
    Same V denote ((meet a b).bind fun d => meet d c) ((meet b c).bind fun d => meet a d) := by
  have hleft : denoteOption denote ((meet a b).bind fun d => meet d c) =
      denote a ∩ denote b ∩ denote c := by
    rw [← h.inter ha hb]
    cases hm : meet a b with
    | none => simp [denoteOption]
    | some d => exact h.inter (h.closed ha hb hm) hc
  have hright : denoteOption denote ((meet b c).bind fun d => meet a d) =
      denote a ∩ (denote b ∩ denote c) := by
    rw [← h.inter hb hc]
    cases hm : meet b c with
    | none => simp [denoteOption]
    | some d => exact h.inter ha (h.closed hb hc hm)
  refine h.same_of_eq ?_ ?_ (by rw [hleft, hright, Set.inter_assoc])
  · intro e he
    obtain ⟨d, hd, he⟩ := Option.bind_eq_some_iff.mp he
    exact h.closed (h.closed ha hb hd) hc he
  · intro e he
    obtain ⟨d, hd, he⟩ := Option.bind_eq_some_iff.mp he
    exact h.closed ha (h.closed hb hc hd) he

omit hb in
/-- **Idempotence.** -/
theorem idem : Same V denote (meet a a) (some a) := by
  refine h.same_of_eq (fun c => h.closed ha ha) (fun c hc => Option.mem_some.mp hc ▸ ha) ?_
  rw [h.inter ha ha, Set.inter_self]
  rfl

end Exact

end Narrowing
