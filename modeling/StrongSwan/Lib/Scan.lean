import Mathlib.Data.List.Basic

/-!
# Scans of a list

A scan goes over a list with a state, and stops at the first element that satisfies a predicate in the
state that was reached.

* `First`: what is before, at and behind the place where a scan stops.
* `Absent`: a scan does not stop.
* `First.cons`, `Absent.cons`: an element the scan goes on behind.
-/

namespace Scan

variable {σ α : Type*} {step : σ → α → σ} {p : σ → α → Prop} {s : σ} {xs before behind : List α} {x y : α}

/-- The scan stops at `x`. -/
structure First (step : σ → α → σ) (p : σ → α → Prop) (s : σ) (xs before : List α) (x : α)
    (behind : List α) : Prop where
  eq : xs = before ++ x :: behind
  holds : p (before.foldl step s) x
  le : ∀ before' y behind', xs = before' ++ y :: behind' → p (before'.foldl step s) y →
    before.length ≤ before'.length

/-- The scan stops nowhere. -/
def Absent (step : σ → α → σ) (p : σ → α → Prop) (s : σ) (xs : List α) : Prop :=
  ∀ before y behind, xs = before ++ y :: behind → ¬p (before.foldl step s) y

theorem First.head (h : p s x) : First step p s (x :: xs) [] x xs :=
  ⟨rfl, h, fun _ _ _ _ _ => Nat.zero_le _⟩

theorem First.cons (hnot : ¬p s y) (h : First step p (step s y) xs before x behind) :
    First step p s (y :: xs) (y :: before) x behind where
  eq := congrArg (y :: ·) h.eq
  holds := h.holds
  le := by
    intro before' z behind' heq hz
    cases before' with
    | nil =>
      obtain ⟨rfl, -⟩ := List.cons.inj heq
      exact absurd hz hnot
    | cons y' before' =>
      obtain ⟨rfl, htail⟩ := List.cons.inj heq
      exact Nat.succ_le_succ (h.le before' z behind' htail hz)

theorem absent_nil : Absent step p s [] := fun _ _ _ heq => by simp at heq

theorem Absent.cons (hnot : ¬p s y) (h : Absent step p (step s y) xs) : Absent step p s (y :: xs) := by
  intro before z behind heq hz
  cases before with
  | nil =>
    obtain ⟨rfl, -⟩ := List.cons.inj heq
    exact hnot hz
  | cons y' before =>
    obtain ⟨rfl, htail⟩ := List.cons.inj heq
    exact h before z behind htail hz

end Scan
