import StrongSwan.Lib.Bytes

/-!
# Machine integers, chunks and status codes

The fixed-width types of the source, its byte strings (`chunk_t`), the reads and writes of integers
in network order, and the codes its functions return (`status_t`).
-/

namespace StrongSwan

/-- `uint8_t` -/
abbrev U8 := BitVec 8

/-- `uint16_t` -/
abbrev U16 := BitVec 16

/-- `uint32_t` and `u_int` -/
abbrev U32 := BitVec 32

/-- `uint64_t` -/
abbrev U64 := BitVec 64

instance : LawfulBEq U8 := inferInstance

instance : LawfulBEq U16 := inferInstance

abbrev Chunk := List U8

/-- Read the first four bytes of a chunk, in network order. -/
def untoh32 (p : Chunk) : U32 := BitVec.ofNat 32 (Bytes.value (p.take 4))

/-- The two bytes of an integer, in network order. -/
def htoun16 (n : U16) : Chunk := Bytes.ofNat 2 n.toNat

/-- The four bytes of an integer, in network order. -/
def htoun32 (n : U32) : Chunk := Bytes.ofNat 4 n.toNat

/-- The eight bytes of an integer, in network order. -/
def htoun64 (n : U64) : Chunk := Bytes.ofNat 8 n.toNat

/-- Xor the bytes of `src` into those of `dst`. -/
def memxor (dst src : Chunk) : Chunk := List.zipWith (· ^^^ ·) dst src

/-- Read the first two bytes of a chunk, in network order. -/
def untoh16 (p : Chunk) : U16 := BitVec.ofNat 16 (Bytes.value (p.take 2))

/-- The integer whose bytes in memory are those of `n` in network order (on a little-endian host). -/
def htonl (n : U32) : U32 := untoh32 (htoun32 n).reverse

/-- The integer whose bytes in network order are those of `n` in memory. -/
def ntohl (n : U32) : U32 := htonl n

/-- `htonl` for two bytes -/
def htons (n : U16) : U16 := untoh16 (htoun16 n).reverse

/-- `ntohl` for two bytes -/
def ntohs (n : U16) : U16 := htons n

/-- The bytes of an integer in memory (on a little-endian host). -/
def memory16 (n : U16) : Chunk := (htoun16 n).reverse

/-- The bytes of an integer in memory (on a little-endian host). -/
def memory32 (n : U32) : Chunk := (htoun32 n).reverse

@[simp] theorem length_htoun16 (n : U16) : (htoun16 n).length = 2 := Bytes.length_ofNat _ _

theorem untoh16_htoun16_append (n : U16) (buf : Chunk) : untoh16 (htoun16 n ++ buf) = n := by
  have hlt := n.isLt
  rw [untoh16, List.take_left' (length_htoun16 n), htoun16, Bytes.value_ofNat_of_lt (by omega),
    BitVec.ofNat_toNat, BitVec.setWidth_eq]

@[simp] theorem length_htoun32 (n : U32) : (htoun32 n).length = 4 := Bytes.length_ofNat _ _

theorem toNat_untoh32 {p : Chunk} (h : p.length = 4) : (untoh32 p).toNat = Bytes.value p := by
  have hlt := Bytes.value_lt p
  rw [h] at hlt
  rw [untoh32, List.take_of_length_le h.le, BitVec.toNat_ofNat, Nat.mod_eq_of_lt (by omega)]

theorem value_htoun32 (n : U32) : Bytes.value (htoun32 n) = n.toNat :=
  Bytes.value_ofNat_of_lt (by have := n.isLt; omega)

theorem untoh32_htoun32 (n : U32) : untoh32 (htoun32 n) = n := by
  rw [← BitVec.toNat_inj, toNat_untoh32 (length_htoun32 n), value_htoun32]

theorem htoun32_untoh32 {p : Chunk} (h : p.length = 4) : htoun32 (untoh32 p) = p := by
  rw [htoun32, toNat_untoh32 h, ← h, Bytes.ofNat_value]

@[simp] theorem length_htoun64 (n : U64) : (htoun64 n).length = 8 := Bytes.length_ofNat _ _

theorem htoun64_inj {m n : U64} (h : htoun64 m = htoun64 n) : m = n := by
  have hm := m.isLt
  have hn := n.isLt
  have hvalue := congrArg Bytes.value h
  rw [htoun64, htoun64, Bytes.value_ofNat_of_lt (by omega), Bytes.value_ofNat_of_lt (by omega)]
    at hvalue
  exact BitVec.eq_of_toNat_eq hvalue

theorem memxor_memxor {p mask : Chunk} (h : mask.length = p.length) :
    memxor (memxor p mask) mask = p := by
  induction p generalizing mask with
  | nil => rfl
  | cons b p ih =>
    obtain _ | ⟨c, mask⟩ := mask
    · simp at h
    have htail := ih (by simpa using h)
    rw [memxor, memxor] at htail ⊢
    rw [List.zipWith_cons_cons, List.zipWith_cons_cons, htail, BitVec.xor_assoc, BitVec.xor_self,
      BitVec.xor_zero]

theorem memxor_inj {p q salt : Chunk} (hp : p.length = salt.length) (hq : q.length = salt.length)
    (h : memxor p salt = memxor q salt) : p = q := by
  induction salt generalizing p q with
  | nil => rw [List.length_eq_zero_iff.mp hp, List.length_eq_zero_iff.mp hq]
  | cons b salt ih =>
    obtain _ | ⟨x, p⟩ := p
    · cases hp
    obtain _ | ⟨y, q⟩ := q
    · cases hq
    obtain ⟨hxy, htail⟩ := List.cons.inj h
    rw [ih (Nat.succ.inj hp) (Nat.succ.inj hq) htail, (BitVec.xor_left_inj b).mp hxy]

theorem htonl_ntohl (n : U32) : htonl (ntohl n) = n := by
  rw [ntohl, htonl, htonl, htoun32_untoh32 (by simp), List.reverse_reverse, untoh32_htoun32]

theorem toNat_untoh16 {p : Chunk} (h : p.length = 2) : (untoh16 p).toNat = Bytes.value p := by
  have hlt := Bytes.value_lt p
  rw [h] at hlt
  rw [untoh16, List.take_of_length_le h.le, BitVec.toNat_ofNat, Nat.mod_eq_of_lt (by omega)]

theorem htoun16_untoh16 {p : Chunk} (h : p.length = 2) : htoun16 (untoh16 p) = p := by
  rw [htoun16, toNat_untoh16 h, ← h, Bytes.ofNat_value]

theorem htoun16_eq (n : U16) :
    htoun16 n = [BitVec.ofNat 8 (n.toNat / 256), BitVec.ofNat 8 n.toNat] := rfl

theorem toNat_untoh16_cons (a b : U8) (p : Chunk) :
    (untoh16 (a :: b :: p)).toNat = a.toNat * 256 + b.toNat := by
  have ha := a.isLt
  have hb := b.isLt
  rw [untoh16, List.take_succ_cons, List.take_succ_cons, List.take_zero, Bytes.value_cons,
    Bytes.value_cons, Bytes.value_nil, BitVec.toNat_ofNat, List.length_singleton, List.length_nil]
  omega

theorem toNat_htons (n : U16) : (htons n).toNat = n.toNat % 256 * 256 + n.toNat / 256 := by
  have hn := n.isLt
  rw [htons, htoun16_eq, List.reverse_cons, List.reverse_singleton, List.singleton_append,
    toNat_untoh16_cons, BitVec.toNat_ofNat, BitVec.toNat_ofNat]
  omega

theorem htons_ntohs (n : U16) : htons (ntohs n) = n := by
  have hn := n.isLt
  rw [ntohs, ← BitVec.toNat_inj, toNat_htons, toNat_htons]
  omega

theorem memory16_htons (n : U16) : memory16 (htons n) = htoun16 n := by
  rw [memory16, htons, htoun16_untoh16 (by simp), List.reverse_reverse]

theorem memory32_htonl (n : U32) : memory32 (htonl n) = htoun32 n := by
  rw [memory32, htonl, htoun32_untoh32 (by simp), List.reverse_reverse]

/-- The difference of two `size_t` -/
def sizeSub (a b : ℕ) : ℕ := (a + (2 ^ 64 - b % 2 ^ 64)) % 2 ^ 64

theorem sizeSub_eq {a b : ℕ} (hle : b ≤ a) (hlt : a < 2 ^ 64) : sizeSub a b = a - b := by
  unfold sizeSub
  rw [Nat.mod_eq_of_lt (by omega : b < 2 ^ 64), show a + (2 ^ 64 - b) = (a - b) + 2 ^ 64 by omega,
    Nat.add_mod_right, Nat.mod_eq_of_lt (by omega)]

/-- `max` on unsigned integers. -/
def umax {w : ℕ} (x y : BitVec w) : BitVec w := if x > y then x else y

/-- `min` on unsigned integers. -/
def umin {w : ℕ} (x y : BitVec w) : BitVec w := if x < y then x else y

@[simp] theorem toNat_umax {w : ℕ} (x y : BitVec w) : (umax x y).toNat = max x.toNat y.toNat := by
  unfold umax
  split_ifs with h <;> rw [gt_iff_lt, BitVec.lt_def] at h <;> omega

@[simp] theorem toNat_umin {w : ℕ} (x y : BitVec w) : (umin x y).toNat = min x.toNat y.toNat := by
  unfold umin
  split_ifs with h <;> rw [BitVec.lt_def] at h <;> omega

inductive Status
  | success
  | failed
  | outOfRes
  | alreadyDone
  | notSupported
  | invalidArg
  | notFound
  | parseError
  | verifyError
  | invalidState
  | destroyMe
  | needMore
  deriving DecidableEq, Repr

end StrongSwan
