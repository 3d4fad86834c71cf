import StrongSwan.Lib.Bytes
import Mathlib

/-!
# Prefixes of byte strings

The bits of a byte string are counted from its front. Numbers of `size` bits with a common prefix of
`n` bits are a block.

* `bit`, **`testBit_value`**: bits of a byte string and of its number.
* `block`, **`value_mem_block`**: a prefix of numbers is one of bits.
* `block_eq_Icc_iff`: the ranges that are blocks.
-/

namespace Bytes

variable {xs ys : List (BitVec 8)}

/-- A bit of a byte string, counted from the front. -/
def bit (xs : List (BitVec 8)) (i : ℕ) : Bool := (xs.getD (i / 8) 0).getLsbD (7 - i % 8)

theorem bit_cons_of_lt (b : BitVec 8) {i : ℕ} (h : i < 8) : bit (b :: xs) i = b.getLsbD (7 - i) := by
  rw [bit, Nat.div_eq_of_lt h, Nat.mod_eq_of_lt h]
  rfl

theorem bit_cons_add (b : BitVec 8) (i : ℕ) : bit (b :: xs) (i + 8) = bit xs i := by
  rw [bit, bit, Nat.add_div_right i (by norm_num), Nat.add_mod_right]
  rfl

/-- **The bits of a byte string are those of its number.** -/
theorem testBit_value {i : ℕ} (hi : i < 8 * xs.length) :
    (value xs).testBit (8 * xs.length - 1 - i) = bit xs i := by
  induction xs generalizing i with
  | nil => simp at hi
  | cons b xs ih =>
    have hpow : 256 ^ xs.length = 2 ^ (8 * xs.length) := by
      rw [pow_mul]
      norm_num
    have hlt := value_lt xs
    rw [hpow] at hlt
    rw [List.length_cons] at hi ⊢
    rw [value_cons, hpow, mul_comm, Nat.testBit_two_pow_mul_add _ hlt]
    by_cases hfirst : i < 8
    · rw [if_neg (by omega), bit_cons_of_lt b hfirst]
      change b.toNat.testBit _ = b.toNat.testBit _
      congr 1
      omega
    · obtain ⟨i, rfl⟩ : ∃ i', i = i' + 8 := ⟨i - 8, by omega⟩
      rw [if_pos (by omega), bit_cons_add, ← ih (by omega)]
      congr 1
      omega

theorem value_lt_two_pow (xs : List (BitVec 8)) : value xs < 2 ^ (8 * xs.length) := by
  have hlt := value_lt xs
  rwa [show (256 : ℕ) = 2 ^ 8 by norm_num, ← pow_mul] at hlt

/-! ## Blocks -/

/-- The numbers of `size` bits that share the first `n` ones with `x`. -/
def block (size n x : ℕ) : Set ℕ := {y | y / 2 ^ (size - n) = x / 2 ^ (size - n)}

variable {size n x y : ℕ}

theorem mem_block_self (size n x : ℕ) : x ∈ block size n x := rfl

theorem block_congr (h : x ∈ block size n y) : block size n x = block size n y := by
  have h : x / 2 ^ (size - n) = y / 2 ^ (size - n) := h
  rw [block, block, h]

theorem value_mem_block (hlen : xs.length = ys.length) (hn : n ≤ 8 * xs.length) :
    value xs ∈ block (8 * xs.length) n (value ys) ↔ ∀ i < n, bit xs i = bit ys i := by
  change value xs / _ = value ys / _ ↔ _
  constructor
  · intro heq i hi
    have hbit := congrArg (Nat.testBit · (n - 1 - i)) heq
    simp only [Nat.testBit_div_two_pow] at hbit
    rw [← testBit_value (by omega), ← testBit_value (by omega), ← hlen]
    convert hbit using 2 <;> omega
  · intro hbits
    refine Nat.eq_of_testBit_eq fun j => ?_
    rw [Nat.testBit_div_two_pow, Nat.testBit_div_two_pow]
    by_cases hj : j < n
    · have hbit := hbits (n - 1 - j) (by omega)
      rw [← testBit_value (by omega), ← testBit_value (by omega), ← hlen] at hbit
      convert hbit using 2 <;> omega
    · have hpow : 2 ^ (8 * xs.length) ≤ 2 ^ (j + (8 * xs.length - n)) :=
        Nat.pow_le_pow_right (by norm_num) (by omega)
      rw [Nat.testBit_lt_two_pow ((value_lt_two_pow xs).trans_le hpow),
        Nat.testBit_lt_two_pow ((hlen ▸ value_lt_two_pow ys).trans_le hpow)]

theorem eq_of_bits (hlen : xs.length = ys.length)
    (hbits : ∀ i < 8 * xs.length, bit xs i = bit ys i) : xs = ys := by
  have hmem := (value_mem_block hlen le_rfl).mpr hbits
  change value xs / 2 ^ (_ - _) = value ys / _ at hmem
  rw [Nat.sub_self, pow_zero, Nat.div_one, Nat.div_one] at hmem
  exact (value_inj hlen).mp hmem

theorem mem_block_of_mem (hx : x ∈ block size n y) {a b : ℕ} (ha : a ∈ block size n y) (hxb : x ≤ b)
    (hba : b ≤ a) : b ∈ block size n y := by
  have h₁ : x / 2 ^ (size - n) ≤ b / 2 ^ (size - n) := Nat.div_le_div_right hxb
  have h₂ : b / 2 ^ (size - n) ≤ a / 2 ^ (size - n) := Nat.div_le_div_right hba
  change b / _ = _
  change x / _ = _ at hx
  change a / _ = _ at ha
  omega

theorem block_eq_Icc (size n x : ℕ) : block size n x =
    Set.Icc (x / 2 ^ (size - n) * 2 ^ (size - n))
      (x / 2 ^ (size - n) * 2 ^ (size - n) + (2 ^ (size - n) - 1)) := by
  have hpos : 0 < 2 ^ (size - n) := by positivity
  ext y
  change y / _ = _ ↔ _
  rw [Set.mem_Icc, Nat.div_eq_iff hpos, Nat.add_sub_assoc hpos]

/-- **A range is a block** if its first number has no bits behind the prefix, and the last one all. -/
theorem block_eq_Icc_iff (hy : y ∈ block size n x) :
    block size n x = Set.Icc x y ↔
      x % 2 ^ (size - n) = 0 ∧ y % 2 ^ (size - n) = 2 ^ (size - n) - 1 := by
  have hpos : 0 < 2 ^ (size - n) := by positivity
  have hsplit := Nat.div_add_mod' x (2 ^ (size - n))
  have hsplit' := Nat.div_add_mod' y (2 ^ (size - n))
  have hlt := Nat.mod_lt x hpos
  have hlt' := Nat.mod_lt y hpos
  change y / _ = x / _ at hy
  rw [hy] at hsplit'
  rw [block_eq_Icc]
  constructor
  · intro heq
    obtain ⟨hfirst, hlast⟩ := (Set.Icc_eq_Icc_iff (by omega)).mp heq
    omega
  · rintro ⟨hfirst, hlast⟩
    congr 1 <;> omega

/-! ## Bits behind a prefix -/

theorem value_mod_eq_zero_iff (hn : n ≤ 8 * xs.length) :
    value xs % 2 ^ (8 * xs.length - n) = 0 ↔
      ∀ i, n ≤ i → i < 8 * xs.length → bit xs i = false := by
  constructor
  · intro hzero i hi hlt
    have hbit := congrArg (Nat.testBit · (8 * xs.length - 1 - i)) hzero
    simp only [Nat.testBit_mod_two_pow, Nat.zero_testBit] at hbit
    rw [← testBit_value hlt]
    simpa [show 8 * xs.length - 1 - i < 8 * xs.length - n by omega] using hbit
  · intro hbits
    refine Nat.eq_of_testBit_eq fun j => ?_
    rw [Nat.testBit_mod_two_pow, Nat.zero_testBit]
    by_cases hj : j < 8 * xs.length - n
    · have hbit := hbits (8 * xs.length - 1 - j) (by omega) (by omega)
      rw [← testBit_value (by omega),
        show 8 * xs.length - 1 - (8 * xs.length - 1 - j) = j by omega] at hbit
      rw [hbit, Bool.and_false]
    · rw [decide_eq_false hj, Bool.false_and]

theorem value_mod_eq_max_iff (hn : n ≤ 8 * xs.length) :
    value xs % 2 ^ (8 * xs.length - n) = 2 ^ (8 * xs.length - n) - 1 ↔
      ∀ i, n ≤ i → i < 8 * xs.length → bit xs i = true := by
  constructor
  · intro hmax i hi hlt
    have hbit := congrArg (Nat.testBit · (8 * xs.length - 1 - i)) hmax
    simp only [Nat.testBit_mod_two_pow, Nat.testBit_two_pow_sub_one] at hbit
    rw [← testBit_value hlt]
    simpa [show 8 * xs.length - 1 - i < 8 * xs.length - n by omega] using hbit
  · intro hbits
    refine Nat.eq_of_testBit_eq fun j => ?_
    rw [Nat.testBit_mod_two_pow, Nat.testBit_two_pow_sub_one]
    by_cases hj : j < 8 * xs.length - n
    · have hbit := hbits (8 * xs.length - 1 - j) (by omega) (by omega)
      rw [← testBit_value (by omega),
        show 8 * xs.length - 1 - (8 * xs.length - 1 - j) = j by omega] at hbit
      rw [hbit, Bool.and_true]
    · rw [decide_eq_false hj, Bool.false_and]

theorem bit_of_value_le (hlen : xs.length = ys.length) (hle : value xs ≤ value ys)
    (hn : n < 8 * xs.length) (hbits : ∀ i < n, bit xs i = bit ys i) (hne : bit xs n ≠ bit ys n) :
    bit xs n = false ∧ bit ys n = true := by
  cases hx : bit xs n with
  | false => exact ⟨rfl, by rw [hx] at hne; simpa using hne.symm⟩
  | true =>
    have hy : bit ys n = false := by
      rw [hx] at hne
      simpa using hne.symm
    refine absurd hle (not_le.mpr (Nat.lt_of_testBit (8 * xs.length - 1 - n) ?_ ?_ fun j hj => ?_))
    · rw [hlen, testBit_value (by omega), hy]
    · rw [testBit_value hn, hx]
    · by_cases hlt : j < 8 * xs.length
      · have hbit := hbits (8 * xs.length - 1 - j) (by omega)
        rw [← testBit_value (by omega), ← testBit_value (by omega), ← hlen,
          show 8 * xs.length - 1 - (8 * xs.length - 1 - j) = j by omega] at hbit
        exact hbit.symm
      · have hpow : 2 ^ (8 * xs.length) ≤ 2 ^ j := Nat.pow_le_pow_right (by norm_num) (by omega)
        rw [Nat.testBit_lt_two_pow ((value_lt_two_pow xs).trans_le hpow),
          Nat.testBit_lt_two_pow ((hlen ▸ value_lt_two_pow ys).trans_le hpow)]

/-! ## Bits of parts -/

theorem bit_append (xs ys : List (BitVec 8)) (i : ℕ) :
    bit (xs ++ ys) i = if i < 8 * xs.length then bit xs i else bit ys (i - 8 * xs.length) := by
  unfold bit
  split_ifs with hlt
  · rw [List.getD_append _ _ _ _ (by omega)]
  · rw [List.getD_append_right _ _ _ _ (by omega)]
    congr 2 <;> omega

theorem bit_take {k i : ℕ} (hi : i < 8 * k) : bit (xs.take k) i = bit xs i := by
  unfold bit
  rw [List.getD_eq_getElem?_getD, List.getElem?_take_of_lt (by omega), ← List.getD_eq_getElem?_getD]

theorem bit_replicate (b : BitVec 8) {k i : ℕ} (hi : i < 8 * k) :
    bit (List.replicate k b) i = b.getLsbD (7 - i % 8) := by
  unfold bit
  rw [List.getD_eq_getElem?_getD, List.getElem?_replicate_of_lt (by omega)]
  rfl

theorem bit_modify (g : BitVec 8 → BitVec 8) {k i : ℕ} (hi : i < 8 * xs.length) :
    bit (xs.modify k g) i =
      if i / 8 = k then (g (xs.getD k 0)).getLsbD (7 - i % 8) else bit xs i := by
  unfold bit
  rw [List.getD_eq_getElem?_getD, List.getElem?_modify, List.getElem?_eq_getElem (by omega)]
  rw [Option.map_eq_map, Option.map_some, Option.getD_some]
  have helem : xs.getD (i / 8) 0 = xs[i / 8] := by
    rw [List.getD_eq_getElem?_getD, List.getElem?_eq_getElem (by omega)]
    rfl
  by_cases hk : k = i / 8
  · subst hk
    rw [if_pos rfl, if_pos rfl, helem]
  · rw [if_neg hk, if_neg (Ne.symm hk), helem]

theorem modify_append_left (g : BitVec 8 → BitVec 8) {k : ℕ} (hk : k < xs.length) :
    (xs ++ ys).modify k g = xs.modify k g ++ ys := by
  induction xs generalizing k with
  | nil => simp at hk
  | cons b xs ih =>
    cases k with
    | zero => rfl
    | succ k =>
      rw [List.cons_append, List.modify_succ_cons, List.modify_succ_cons, List.cons_append,
        ih (Nat.lt_of_succ_lt_succ hk)]

end Bytes
