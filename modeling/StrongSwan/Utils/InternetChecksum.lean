import StrongSwan.Basic
import StrongSwan.Lib.OnesComplement

/-!
# Internet checksums

The checksum of IP, UDP and TCP headers is the complement of the one's complement sum of the 16-bit
words of a chunk.

* `chunkInternetChecksumInc_eq`: what is returned, by the folded sum of the words.
* **`chunkInternetChecksumInc_append`**: a checksum can be computed in parts, all but the last of
  even length.
-/

namespace StrongSwan

open OnesComplement

def addWords : Chunk → U32 → U32
  | a :: b :: data, sum => addWords data (sum + (untoh16 [a, b]).setWidth 32)
  | [a], sum => sum + a.setWidth 32 <<< 8
  | [], sum => sum

theorem toNat_halves (sum : U32) :
    ((sum &&& (0xffff : U32)) + sum >>> 16).toNat = sum.toNat % 65536 + sum.toNat / 65536 := by
  have hsum := sum.isLt
  have hlow : (sum &&& (0xffff : U32)).toNat = sum.toNat % 65536 :=
    Nat.and_two_pow_sub_one_eq_mod sum.toNat 16
  have hhigh : (sum >>> 16).toNat = sum.toNat / 65536 := by
    rw [BitVec.toNat_ushiftRight, Nat.shiftRight_eq_div_pow]
  rw [BitVec.toNat_add, hlow, hhigh]
  omega

theorem ushiftRight_ne_zero_iff (sum : U32) : sum >>> 16 ≠ 0 ↔ 65536 ≤ sum.toNat := by
  rw [Ne, ← BitVec.toNat_inj, BitVec.toNat_ushiftRight, Nat.shiftRight_eq_div_pow]
  change ¬sum.toNat / 65536 = 0 ↔ _
  omega

/-- Add the upper half of a sum to the lower one, until it is zero. -/
def foldCarry (sum : U32) : U32 :=
  if _h : sum >>> 16 ≠ 0 then foldCarry ((sum &&& (0xffff : U32)) + sum >>> 16) else sum
termination_by sum.toNat
decreasing_by
  have hle := (ushiftRight_ne_zero_iff sum).mp _h
  rw [toNat_halves]
  omega

def chunkInternetChecksumInc (data : Chunk) (checksum : U16) : U16 :=
  let sum := addWords data ((ntohs (~~~checksum)).setWidth 32)
  htons ((~~~foldCarry sum).setWidth 16)

def chunkInternetChecksum (data : Chunk) : U16 := chunkInternetChecksumInc data 0xffff

theorem toNat_addWords {data : Chunk} {sum : U32}
    (h : sum.toNat + 65535 * ((data.length + 1) / 2) < 2 ^ 32) :
    (addWords data sum).toNat = sum.toNat + wordSum data := by
  induction data using wordSum.induct generalizing sum with
  | case1 => rw [addWords, wordSum, Nat.add_zero]
  | case2 a =>
    have ha := a.isLt
    have hshift : (a.setWidth 32 <<< 8 : U32).toNat = a.toNat * 256 := by
      rw [BitVec.toNat_shiftLeft, BitVec.toNat_setWidth, Nat.shiftLeft_eq]
      omega
    rw [List.length_singleton] at h
    rw [addWords, wordSum, BitVec.toNat_add, hshift]
    omega
  | case3 a b rest ih =>
    have ha := a.isLt
    have hb := b.isLt
    have hword : ((untoh16 [a, b]).setWidth 32 : U32).toNat = a.toNat * 256 + b.toNat := by
      rw [BitVec.toNat_setWidth, toNat_untoh16_cons]
      omega
    rw [List.length_cons, List.length_cons] at h
    have hadd : (sum + (untoh16 [a, b]).setWidth 32).toNat =
        sum.toNat + (a.toNat * 256 + b.toNat) := by
      rw [BitVec.toNat_add, hword]
      omega
    rw [addWords, wordSum, ih (by rw [hadd]; omega), hadd]
    omega

theorem toNat_foldCarry (sum : U32) : (foldCarry sum).toNat = fold 65536 sum.toNat := by
  induction sum using foldCarry.induct with
  | case1 sum h ih =>
    rw [foldCarry, dif_pos h, ih, toNat_halves,
      ← fold_of_le (by omega) ((ushiftRight_ne_zero_iff sum).mp h)]
  | case2 sum h =>
    rw [ushiftRight_ne_zero_iff] at h
    rw [foldCarry, dif_neg (by rwa [ushiftRight_ne_zero_iff]), fold_of_lt (by omega)]

theorem htons_not (n : U16) : htons (~~~n) = ~~~htons n := by
  have hn := n.isLt
  rw [← BitVec.toNat_inj, toNat_htons, BitVec.toNat_not, BitVec.toNat_not, toNat_htons]
  omega

theorem chunkInternetChecksumInc_eq {data : Chunk} (h : data.length ≤ 131072) (sum : U16) :
    chunkInternetChecksumInc data (htons (~~~sum)) =
      htons (BitVec.ofNat 16 (65535 - fold 65536 (sum.toNat + wordSum data))) := by
  have hsum := sum.isLt
  have hstart : ((ntohs (~~~htons (~~~sum))).setWidth 32 : U32).toNat = sum.toNat := by
    rw [BitVec.toNat_setWidth, htons_not, BitVec.not_not,
      show ntohs (htons sum) = sum from htons_ntohs sum]
    omega
  have hlt := fold_lt (by omega : 2 ≤ 65536) (sum.toNat + wordSum data)
  rw [chunkInternetChecksumInc]
  congr 1
  rw [← BitVec.toNat_inj, BitVec.toNat_setWidth, BitVec.toNat_not, toNat_foldCarry,
    toNat_addWords (by rw [hstart]; omega), hstart, BitVec.toNat_ofNat]
  omega

theorem chunkInternetChecksum_eq {data : Chunk} (h : data.length ≤ 131072) :
    chunkInternetChecksum data = htons (BitVec.ofNat 16 (65535 - fold 65536 (wordSum data))) := by
  have hsum := chunkInternetChecksumInc_eq h 0
  rw [show htons (~~~(0 : U16)) = 0xffff by decide] at hsum
  rw [chunkInternetChecksum, hsum]
  simp

/-- **The checksum of two chunks, one after the other.** -/
theorem chunkInternetChecksumInc_append {a b : Chunk} (heven : Even a.length)
    (h : a.length + b.length ≤ 131072) :
    chunkInternetChecksumInc b (chunkInternetChecksum a) = chunkInternetChecksum (a ++ b) := by
  have hlt := fold_lt (by omega : 2 ≤ 65536) (wordSum a)
  have hnot : BitVec.ofNat 16 (65535 - fold 65536 (wordSum a)) =
      ~~~BitVec.ofNat 16 (fold 65536 (wordSum a)) := by
    rw [← BitVec.toNat_inj, BitVec.toNat_not, BitVec.toNat_ofNat, BitVec.toNat_ofNat]
    omega
  rw [chunkInternetChecksum_eq (by omega), hnot, chunkInternetChecksumInc_eq (by omega),
    chunkInternetChecksum_eq (by rw [List.length_append]; omega), wordSum_append b heven,
    BitVec.toNat_ofNat, Nat.mod_eq_of_lt hlt, fold_fold_add (by omega)]

end StrongSwan
