import Mathlib.Algebra.Ring.Nat
import Mathlib.Tactic.SplitIfs

/-!
# Alignment

* `padLen`: how many bytes are missing to a multiple.
-/

namespace StrongSwan

/-- Number of bytes to pad `size` to a multiple of `alignment`. -/
def padLen (size alignment : ℕ) : ℕ :=
  let remainder := size % alignment
  if remainder ≠ 0 then alignment - remainder else 0

theorem padLen_spec (size : ℕ) {alignment : ℕ} (h : 1 ≤ alignment) :
    alignment ∣ size + padLen size alignment ∧ padLen size alignment < alignment := by
  have hlt := Nat.mod_lt size h
  unfold padLen
  dsimp only
  split_ifs with hr
  · refine ⟨?_, by omega⟩
    have hsplit := Nat.div_add_mod size alignment
    exact ⟨size / alignment + 1, by rw [mul_add]; omega⟩
  · rw [not_not] at hr
    exact ⟨Nat.dvd_of_mod_eq_zero (by omega), by omega⟩

end StrongSwan
