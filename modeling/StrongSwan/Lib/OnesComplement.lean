import Mathlib

/-!
# One's complement sums

Numbers below a base `B` are added with the carry brought around to the end, so that they are added
modulo `B - 1`, with `B - 1` in the place of zero.

* `fold B n`: bring the carry of a sum around, until there is none.
* `fold_unique`: the only number below `B` that is `n` modulo `B - 1` and is zero only if `n` is.
* **`fold_fold_add`**: partial sums can be folded.
* **`fold_add_complement`**: with the complement of its fold, a sum is folded to `B - 1`.
* `wordSum`: the sum of the 16-bit words of a byte string, the last one filled with a zero byte.
-/

namespace OnesComplement

variable {B m n : ℕ}

/-- Bring the carry around to the end, until there is none. -/
def fold (B n : ℕ) : ℕ :=
  if _h : 2 ≤ B ∧ B ≤ n then fold B (n % B + n / B) else n
termination_by n
decreasing_by
  have hdiv : n / B ≥ 1 := (Nat.one_le_div_iff (by omega)).mpr _h.2
  have hsplit := Nat.mod_add_div n B
  have hmul : 2 * (n / B) ≤ B * (n / B) := Nat.mul_le_mul_right _ _h.1
  omega

theorem fold_of_lt (h : n < B) : fold B n = n := by
  rw [fold, dif_neg (by omega)]

theorem fold_of_le (hB : 2 ≤ B) (h : B ≤ n) : fold B n = fold B (n % B + n / B) := by
  rw [fold, dif_pos ⟨hB, h⟩]

theorem carry_modEq (hB : 2 ≤ B) (n : ℕ) : n % B + n / B ≡ n [MOD B - 1] := by
  have hsplit : n = (n % B + n / B) + (B - 1) * (n / B) := by
    obtain ⟨M, rfl⟩ : ∃ M, B = M + 1 := ⟨B - 1, by omega⟩
    have hn := Nat.mod_add_div n (M + 1)
    rw [Nat.add_mul, Nat.one_mul] at hn
    rw [Nat.add_sub_cancel]
    linarith
  rw [Nat.ModEq]
  conv_rhs => rw [hsplit]
  exact (Nat.add_mul_mod_self_left _ _ _).symm

theorem fold_lt (hB : 2 ≤ B) (n : ℕ) : fold B n < B := by
  induction n using fold.induct B with
  | case1 n h ih => rwa [fold_of_le hB h.2]
  | case2 n h =>
    rw [fold_of_lt (by omega)]
    omega

theorem fold_modEq (hB : 2 ≤ B) (n : ℕ) : fold B n ≡ n [MOD B - 1] := by
  induction n using fold.induct B with
  | case1 n h ih =>
    rw [fold_of_le hB h.2]
    exact ih.trans (carry_modEq hB n)
  | case2 n h => rw [fold_of_lt (by omega)]

theorem fold_pos_iff (hB : 2 ≤ B) (n : ℕ) : 0 < fold B n ↔ 0 < n := by
  induction n using fold.induct B with
  | case1 n h ih =>
    have hdiv : 0 < n / B := Nat.div_pos h.2 (by omega)
    rw [fold_of_le hB h.2, ih]
    omega
  | case2 n h => rw [fold_of_lt (by omega)]

/-- Numbers up to `B - 1` that are equal modulo `B - 1` are equal, unless one of them is zero. -/
theorem eq_of_modEq (hm : m < B) (hn : n < B) (h : m ≡ n [MOD B - 1]) (hpos : 0 < m ↔ 0 < n) :
    m = n := by
  by_cases hzero : m = 0
  · omega
  have h1 : 1 + (m - 1) ≡ 1 + (n - 1) [MOD B - 1] := by
    rwa [Nat.add_sub_cancel' (by omega), Nat.add_sub_cancel' (by omega)]
  have heq := Nat.ModEq.eq_of_lt_of_lt (Nat.ModEq.add_left_cancel' 1 h1) (by omega) (by omega)
  omega

theorem fold_unique (hB : 2 ≤ B) (hm : m < B) (h : m ≡ n [MOD B - 1]) (hpos : 0 < m ↔ 0 < n) :
    fold B n = m :=
  eq_of_modEq (fold_lt hB n) hm ((fold_modEq hB n).trans h.symm)
    ((fold_pos_iff hB n).trans hpos.symm)

/-- **A part of a sum may be folded before.** -/
theorem fold_fold_add (hB : 2 ≤ B) (m n : ℕ) : fold B (fold B m + n) = fold B (m + n) := by
  refine fold_unique hB (fold_lt hB _) ?_ ?_
  · exact (fold_modEq hB (m + n)).trans ((fold_modEq hB m).symm.add_right n)
  · have hm := fold_pos_iff hB m
    rw [fold_pos_iff hB]
    omega

theorem fold_eq_iff (hB : 2 ≤ B) (n : ℕ) : fold B n = B - 1 ↔ 0 < n ∧ B - 1 ∣ n := by
  rw [← Nat.modEq_zero_iff_dvd]
  constructor
  · intro h
    have hpos := fold_pos_iff hB n
    have hmod := fold_modEq hB n
    rw [h] at hmod hpos
    exact ⟨hpos.mp (by omega), hmod.symm.trans (Nat.modEq_zero_iff_dvd.mpr (dvd_refl _))⟩
  · rintro ⟨hpos, hmod⟩
    refine fold_unique hB (by omega) ?_ (by omega)
    exact (Nat.modEq_zero_iff_dvd.mpr (dvd_refl _)).trans hmod.symm

/-- **The complement of a folded sum makes the sum `B - 1`.** -/
theorem fold_add_complement (hB : 2 ≤ B) (n : ℕ) : fold B (n + (B - 1 - fold B n)) = B - 1 := by
  have hlt := fold_lt hB n
  rw [← fold_fold_add hB, Nat.add_sub_cancel' (by omega), fold_of_lt (by omega)]

/-! ## The words of a byte string -/

/-- The sum of the 16-bit words; a zero byte follows an odd one at the end. -/
def wordSum : List (BitVec 8) → ℕ
  | [] => 0
  | [a] => a.toNat * 256
  | a :: b :: rest => a.toNat * 256 + b.toNat + wordSum rest

theorem wordSum_append {xs : List (BitVec 8)} (ys : List (BitVec 8)) (h : Even xs.length) :
    wordSum (xs ++ ys) = wordSum xs + wordSum ys := by
  induction xs using wordSum.induct with
  | case1 => rw [List.nil_append, wordSum, Nat.zero_add]
  | case2 a => exact absurd h Nat.not_even_one
  | case3 a b rest ih =>
    have heven : Even rest.length := by
      rw [List.length_cons, List.length_cons, Nat.even_add_one, Nat.even_add_one, not_not] at h
      exact h
    rw [List.cons_append, List.cons_append, wordSum, wordSum, ih heven, Nat.add_assoc, Nat.add_assoc,
      Nat.add_assoc]

end OnesComplement
