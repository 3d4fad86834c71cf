import Mathlib.Data.List.Induction
import Mathlib.Tactic.Ring
import Mathlib.Tactic.Linarith
import Mathlib.Tactic.Positivity

/-!
# Byte strings as big-endian numbers

* `value xs`: the number a byte string denotes, most significant byte first.
* `ofNat k n`: the last `k` bytes of `n`; `value_ofNat`, `ofNat_value`: the two are inverse.
* `value_take_drop`: front and end of a byte string.
* `value_inj`: byte strings of one length are determined by their value.
* `lexCmp`, **`lexCmp_eq_compare`**: comparing byte by byte is comparing values.
-/

namespace Bytes

variable {xs ys : List (BitVec 8)}

/-- The big-endian value. -/
def value (xs : List (BitVec 8)) : ℕ := xs.foldl (fun n b => n * 256 + b.toNat) 0

/-- The last `k` bytes of `n`, most significant first. -/
def ofNat : ℕ → ℕ → List (BitVec 8)
  | 0, _ => []
  | k + 1, n => ofNat k (n / 256) ++ [BitVec.ofNat 8 n]

@[simp] theorem value_nil : value [] = 0 := rfl

@[simp] theorem value_snoc (xs : List (BitVec 8)) (b : BitVec 8) :
    value (xs ++ [b]) = value xs * 256 + b.toNat := by
  simp [value]

theorem value_append (xs ys : List (BitVec 8)) :
    value (xs ++ ys) = value xs * 256 ^ ys.length + value ys := by
  induction ys using List.reverseRecOn with
  | nil => simp
  | append_singleton ys b ih =>
    rw [← List.append_assoc, value_snoc, ih, value_snoc, List.length_append, List.length_singleton,
      pow_succ]
    ring

theorem value_cons (b : BitVec 8) (xs : List (BitVec 8)) :
    value (b :: xs) = b.toNat * 256 ^ xs.length + value xs := by
  have := value_append [b] xs
  simpa [value] using this

theorem value_lt (xs : List (BitVec 8)) : value xs < 256 ^ xs.length := by
  induction xs using List.reverseRecOn with
  | nil => simp
  | append_singleton xs b ih =>
    have hb : b.toNat < 256 := b.isLt
    rw [value_snoc, List.length_append, List.length_singleton, pow_succ]
    omega

theorem value_take_drop (xs : List (BitVec 8)) (k : ℕ) :
    value (xs.take k) = value xs / 256 ^ (xs.length - k) ∧
      value (xs.drop k) = value xs % 256 ^ (xs.length - k) := by
  have hval := value_append (xs.take k) (xs.drop k)
  have hlt := value_lt (xs.drop k)
  rw [List.take_append_drop] at hval
  rw [List.length_drop] at hval hlt
  rw [hval]
  constructor
  · rw [Nat.mul_comm, Nat.mul_add_div (by positivity), Nat.div_eq_of_lt hlt, Nat.add_zero]
  · rw [Nat.mul_comm, Nat.mul_add_mod, Nat.mod_eq_of_lt hlt]

@[simp] theorem length_ofNat (k n : ℕ) : (ofNat k n).length = k := by
  induction k generalizing n with
  | zero => rfl
  | succ k ih => simp [ofNat, ih]

theorem value_ofNat (k n : ℕ) : value (ofNat k n) = n % 256 ^ k := by
  induction k generalizing n with
  | zero => simp [ofNat, Nat.mod_one]
  | succ k ih =>
    rw [ofNat, value_snoc, ih, BitVec.toNat_ofNat, show 256 ^ (k + 1) = 256 * 256 ^ k by ring,
      Nat.mod_mul]
    ring

theorem value_ofNat_of_lt {k n : ℕ} (h : n < 256 ^ k) : value (ofNat k n) = n := by
  rw [value_ofNat, Nat.mod_eq_of_lt h]

theorem ofNat_value (xs : List (BitVec 8)) : ofNat xs.length (value xs) = xs := by
  induction xs using List.reverseRecOn with
  | nil => rfl
  | append_singleton xs b ih =>
    have hb : b.toNat < 256 := b.isLt
    rw [List.length_append, List.length_singleton, ofNat, value_snoc,
      show (value xs * 256 + b.toNat) / 256 = value xs by omega, ih]
    congr 2
    apply BitVec.eq_of_toNat_eq
    rw [BitVec.toNat_ofNat]
    omega

theorem value_replicate_zero (k : ℕ) (xs : List (BitVec 8)) :
    value (List.replicate k 0 ++ xs) = value xs := by
  induction k with
  | zero => rfl
  | succ k ih => simpa [List.replicate_succ, value_cons] using ih

theorem value_dropWhile_zero (xs : List (BitVec 8)) :
    value (xs.dropWhile (· = 0)) = value xs := by
  induction xs with
  | nil => rfl
  | cons b xs ih =>
    by_cases hb : b = 0
    · subst hb
      rw [List.dropWhile_cons_of_pos (by simp), ih, value_cons]
      simp
    · rw [List.dropWhile_cons_of_neg (by simpa using hb)]

theorem ofNat_value_of_le {k : ℕ} {xs : List (BitVec 8)} (h : xs.length ≤ k) :
    ofNat k (value xs) = List.replicate (k - xs.length) 0 ++ xs := by
  rw [← value_replicate_zero (k - xs.length), ← ofNat_value (List.replicate (k - xs.length) 0 ++ xs)]
  congr 1
  · simp only [List.length_append, List.length_replicate]
    omega
  · rw [ofNat_value]

theorem value_eq_zero_iff : value xs = 0 ↔ ∀ b ∈ xs, b = 0 := by
  induction xs with
  | nil => simp
  | cons b xs ih =>
    have hb : b.toNat = 0 ↔ b = 0 := by rw [← BitVec.toNat_inj]; rfl
    rw [value_cons, Nat.add_eq_zero_iff, ih, Nat.mul_eq_zero, hb]
    simp

/-- **A byte string of known length is its value.** -/
theorem value_inj (hlen : xs.length = ys.length) : value xs = value ys ↔ xs = ys := by
  constructor
  · intro h
    rw [← ofNat_value xs, ← ofNat_value ys, hlen, h]
  · rintro rfl
    rfl

/-- Compare two byte strings byte by byte. -/
def lexCmp : List (BitVec 8) → List (BitVec 8) → Ordering
  | [], [] => .eq
  | [], _ :: _ => .lt
  | _ :: _, [] => .gt
  | x :: xs, y :: ys => (compare x.toNat y.toNat).then (lexCmp xs ys)

/-- **Byte-wise comparison compares values.** -/
theorem lexCmp_eq_compare (hlen : xs.length = ys.length) :
    lexCmp xs ys = compare (value xs) (value ys) := by
  induction xs generalizing ys with
  | nil =>
    obtain rfl := List.length_eq_zero_iff.mp hlen.symm
    simp [lexCmp]
  | cons x xs ih =>
    obtain _ | ⟨y, ys⟩ := ys
    · simp at hlen
    have hlen' : xs.length = ys.length := by simpa using hlen
    have hx := value_lt xs
    have hy := value_lt ys
    rw [lexCmp, ih hlen', value_cons, value_cons, hlen']
    rw [hlen'] at hx
    -- the first different byte decides
    rcases lt_trichotomy x.toNat y.toNat with h | h | h
    · have hlt : x.toNat * 256 ^ ys.length + value xs < y.toNat * 256 ^ ys.length + value ys := by
        nlinarith
      rw [compare_lt_iff_lt.mpr h, compare_lt_iff_lt.mpr hlt]
      rfl
    · rw [h, compare_eq_iff_eq.mpr rfl, Ordering.eq_then]
      rcases lt_trichotomy (value xs) (value ys) with h' | h' | h'
      · rw [compare_lt_iff_lt.mpr h', compare_lt_iff_lt.mpr (by omega)]
      · rw [h', compare_eq_iff_eq.mpr rfl, compare_eq_iff_eq.mpr rfl]
      · rw [compare_gt_iff_gt.mpr h', compare_gt_iff_gt.mpr (by omega)]
    · have hlt : y.toNat * 256 ^ ys.length + value ys < x.toNat * 256 ^ ys.length + value xs := by
        nlinarith
      rw [compare_gt_iff_gt.mpr h, compare_gt_iff_gt.mpr hlt]
      rfl

end Bytes
