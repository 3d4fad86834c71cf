import Mathlib.Data.Nat.Digits.Lemmas

/-!
# Numerals without leading zeros

Numbers as digits in a base, most significant digit first and one digit for zero.

* `digits`, `value`: numerals and their values; `value_digits`: a numeral has its number as value.
* `lt_length_digits_iff`: how many digits there are; `front_eq_map`: which digit is at a place.
-/

namespace Numeral

variable {b n k : ℕ}

/-- The digits of a number -/
def digits (b n : ℕ) : List ℕ := (Nat.digits b (n / b)).reverse ++ [n % b]

/-- The number of some digits, behind a number before them -/
def value (b : ℕ) (before : ℕ) (ds : List ℕ) : ℕ := ds.foldl (fun v d => b * v + d) before

theorem value_append (before : ℕ) (ds ds' : List ℕ) :
    value b before (ds ++ ds') = value b (value b before ds) ds' := List.foldl_append

theorem value_digits (b n : ℕ) : value b 0 (digits b n) = n := by
  have hfold : value b 0 (Nat.digits b (n / b)).reverse = n / b := by
    have hof := Nat.ofDigits_digits b (n / b)
    rw [Nat.ofDigits_eq_foldr] at hof
    rw [value, List.foldl_reverse]
    simpa only [Nat.cast_id, Nat.add_comm] using hof
  rw [digits, value_append, hfold]
  exact Nat.div_add_mod n b

theorem lt_of_mem_digits (hb : 1 < b) {d : ℕ} (h : d ∈ digits b n) : d < b := by
  rcases List.mem_append.1 h with h | h
  · exact Nat.digits_lt_base hb (List.mem_reverse.1 h)
  · rw [List.mem_singleton.1 h]
    exact Nat.mod_lt _ (Nat.zero_lt_of_lt hb)

theorem digits_ne_nil (b n : ℕ) : digits b n ≠ [] := by simp [digits]

theorem lt_length_digits_iff (hb : 1 < b) : k < (digits b n).length ↔ k = 0 ∨ b ^ k ≤ n := by
  rw [digits, List.length_append, List.length_reverse, List.length_singleton]
  cases k with
  | zero => simp
  | succ k =>
    rw [Nat.add_lt_add_iff_right, Nat.lt_digits_length_iff hb, Nat.le_div_iff_mul_le (by omega),
      ← pow_succ]
    simp

theorem length_digits_le (hb : 1 < b) (hk : 0 < k) (h : n < b ^ k) : (digits b n).length ≤ k := by
  by_contra hlt
  rcases (lt_length_digits_iff hb).1 (not_le.1 hlt) with hzero | hle <;> omega

theorem front_eq_map (hb : 1 < b) (n : ℕ) : (Nat.digits b (n / b)).reverse =
    (List.range ((digits b n).length - 1)).reverse.map fun i => n / b ^ (i + 1) % b := by
  have hlength : (digits b n).length - 1 = (Nat.digits b (n / b)).length := by simp [digits]
  rw [List.map_reverse, List.reverse_inj, hlength]
  refine List.ext_getElem (by simp) fun i hi hi' => ?_
  rw [List.getElem_map, List.getElem_range, pow_succ', ← Nat.div_div_eq_div_mul,
    ← Nat.getD_digits _ _ hb, List.getD_eq_getElem?_getD, List.getElem?_eq_getElem hi,
    Option.getD_some]

end Numeral
