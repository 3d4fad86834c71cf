import Mathlib

/-!
# Anti-replay windows, abstractly

A receiver that has accepted the numbers `A` and remembers a window of `w` numbers takes a number
exactly if it is positive, new, and not older than the window (`Fresh`). No bitmap and no machine
arithmetic occur here.

* `top`, `top_insert`, `le_top`: the highest accepted number.
* `fresh_of_top_lt`: everything above `top` is fresh.
* **`Fresh.not_mem`**: an accepted number is never taken again.
-/

namespace ReplayWindow

variable {w : ℕ} {A : Finset ℕ} {s t : ℕ}

/-- The highest accepted number, `0` if there is none. -/
def top (A : Finset ℕ) : ℕ := A.sup id

theorem top_insert : top (insert s A) = max s (top A) := by
  simp [top, Finset.sup_insert]

theorem le_top (h : s ∈ A) : s ≤ top A := Finset.le_sup (f := id) h

theorem not_mem_of_top_lt (h : top A < s) : s ∉ A := fun hs => absurd (le_top hs) (by omega)

/-- The receiver takes `s`: it is positive, new, and inside or above the window. -/
def Fresh (w : ℕ) (A : Finset ℕ) (s : ℕ) : Prop := s ≠ 0 ∧ s ∉ A ∧ (top A < s ∨ top A - s < w)

instance : Decidable (Fresh w A s) := by unfold Fresh; infer_instance

theorem Fresh.not_mem (h : Fresh w A s) : s ∉ A := h.2.1

theorem fresh_of_top_lt (h : top A < s) : Fresh w A s :=
  ⟨by omega, not_mem_of_top_lt h, .inl h⟩

end ReplayWindow
