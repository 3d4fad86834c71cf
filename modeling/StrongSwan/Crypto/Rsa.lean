import StrongSwan.Basic
import Mathlib.Data.Nat.Size
import Mathlib.Logic.Equiv.Defs

/-!
# RSA

The RSA operations of the source below a modulus `n`. What the two exponents do is a permutation of
the numbers below `n`; the functions here read a chunk as a number and write the result in as many
bytes as the modulus has.

* **`RsaKey.rsavp1_rsasp1`**: the public operation recovers every encoding that was signed.
-/

namespace StrongSwan

/-- A key pair of modulus `n`: `private_gmp_rsa_public_key_t` and `private_gmp_rsa_private_key_t`.
The public exponent takes each number below `n` to `power` of it, the private one back. -/
structure RsaKey (n : ℕ) where
  one_lt : 1 < n
  /-- The bit length of the modulus is a `size_t`, also when rounded up to bytes. -/
  size_lt : n.size < 2 ^ 63
  power : Equiv.Perm (Fin n)
  power_zero : power ⟨0, by omega⟩ = ⟨0, by omega⟩

namespace RsaKey

variable {n : ℕ}

/-- Keysize in bytes -/
def k (_ : RsaKey n) : ℕ := (n.size + 7) / 8

/-- `mpz_export` of a number into `k` bytes; it returns no buffer for zero. -/
def mpzExport (k c : ℕ) : Chunk := if c = 0 then [] else Bytes.ofNat k c

/-- RSAEP algorithm specified in PKCS#1. -/
def rsaep (this : RsaKey n) (data : Chunk) : Chunk :=
  if h : Bytes.value data ≤ 0 ∨ n ≤ Bytes.value data then []
  else mpzExport this.k (this.power ⟨Bytes.value data, by omega⟩)

/-- RSAVP1 algorithm specified in PKCS#1. -/
def rsavp1 (this : RsaKey n) (data : Chunk) : Chunk := this.rsaep data

/-- PKCS#1 RSADP function -/
def rsadp (this : RsaKey n) (data : Chunk) : Chunk :=
  mpzExport this.k (this.power.symm
    ⟨Bytes.value data % n, Nat.mod_lt _ (Nat.lt_trans Nat.zero_lt_one this.one_lt)⟩)

/-- PKCS#1 RSASP1 function -/
def rsasp1 (this : RsaKey n) (data : Chunk) : Chunk := this.rsadp data

variable (this : RsaKey n)

/-! ## The size of the modulus -/

include this in
theorem size_pos : 1 < n.size := Nat.lt_size.mpr this.one_lt

theorem lt_pow_k : n < 256 ^ this.k := by
  have h : n < 2 ^ n.size := Nat.lt_size_self n
  refine h.trans_le ?_
  rw [show 256 = 2 ^ 8 by rfl, ← pow_mul]
  exact Nat.pow_le_pow_right (by omega) (by unfold k; omega)

include this in
theorem pow_le : 2 ^ (n.size - 1) ≤ n := by
  have h := this.size_pos
  exact Nat.lt_size.mp (by omega)

/-! ## Recovering encodings -/

theorem length_rsavp1 (signature : Chunk) (h : this.rsavp1 signature ≠ []) :
    (this.rsavp1 signature).length = this.k := by
  unfold rsavp1 rsaep mpzExport at *
  split_ifs at h ⊢ with h1 h2
  · exact absurd rfl h
  · exact absurd rfl h
  · exact Bytes.length_ofNat _ _

theorem length_rsasp1_le (em : Chunk) : (this.rsasp1 em).length ≤ this.k := by
  unfold rsasp1 rsadp mpzExport
  split_ifs
  · exact Nat.zero_le _
  · exact (Bytes.length_ofNat _ _).le

theorem power_symm_ne_zero {m : Fin n} (hm : m.val ≠ 0) : (this.power.symm m).val ≠ 0 := by
  intro h
  apply hm
  have hzero : this.power.symm m = ⟨0, Nat.lt_trans Nat.zero_lt_one this.one_lt⟩ := Fin.ext h
  rw [Equiv.symm_apply_eq, this.power_zero] at hzero
  rw [hzero]

theorem rsasp1_ne_nil {em : Chunk} (hpos : Bytes.value em ≠ 0) (hlt : Bytes.value em < n) :
    this.rsasp1 em ≠ [] := by
  have hmod : Bytes.value em % n = Bytes.value em := Nat.mod_eq_of_lt hlt
  have hne := this.power_symm_ne_zero (m := ⟨Bytes.value em % n, by omega⟩) (by simpa [hmod])
  have hk : this.k ≠ 0 := by
    have := this.size_pos
    unfold k
    omega
  unfold rsasp1 rsadp mpzExport
  rw [if_neg hne, ne_eq, ← List.length_eq_zero_iff, Bytes.length_ofNat]
  exact hk

/-- **The public operation recovers the encoding that was signed**, in the bytes of the modulus. -/
theorem rsavp1_rsasp1 {em : Chunk} (hpos : Bytes.value em ≠ 0) (hlt : Bytes.value em < n) :
    this.rsavp1 (this.rsasp1 em) = Bytes.ofNat this.k (Bytes.value em) := by
  have hn : 0 < n := Nat.lt_trans Nat.zero_lt_one this.one_lt
  have hmod : Bytes.value em % n = Bytes.value em := Nat.mod_eq_of_lt hlt
  set s := this.power.symm ⟨Bytes.value em % n, Nat.mod_lt _ hn⟩ with hs
  have hne : s.val ≠ 0 := this.power_symm_ne_zero (by simpa [hmod])
  have hsign : this.rsasp1 em = Bytes.ofNat this.k s := by
    rw [rsasp1, rsadp, mpzExport, ← hs, if_neg hne]
  have hvalue : Bytes.value (this.rsasp1 em) = s := by
    rw [hsign]
    exact Bytes.value_ofNat_of_lt (s.isLt.trans this.lt_pow_k)
  have hpower : this.power ⟨s, s.isLt⟩ = ⟨Bytes.value em % n, Nat.mod_lt _ hn⟩ := by
    rw [hs]
    exact this.power.apply_symm_apply _
  have hbound : ¬ (Bytes.value (this.rsasp1 em) ≤ 0 ∨ n ≤ Bytes.value (this.rsasp1 em)) := by
    have := s.isLt
    omega
  unfold rsavp1 rsaep
  rw [dif_neg hbound]
  simp only [hvalue, hpower, hmod]
  rw [mpzExport, if_neg hpos]

end RsaKey

/-- The key whose exponents are one. -/
def identityKey (n : ℕ) (hn : 1 < n) (hsize : n.size < 2 ^ 63) : RsaKey n where
  one_lt := hn
  size_lt := hsize
  power := Equiv.refl _
  power_zero := rfl

theorem size_pow_add_one {m : ℕ} (hm : 0 < m) : (2 ^ m + 1).size = m + 1 := by
  have hpow : 1 < 2 ^ m := Nat.one_lt_two_pow hm.ne'
  apply le_antisymm
  · rw [Nat.size_le, pow_succ]
    omega
  · rw [Nat.succ_le_iff, Nat.lt_size]
    omega

end StrongSwan
