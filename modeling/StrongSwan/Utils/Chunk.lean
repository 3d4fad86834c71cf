import StrongSwan.Basic
import Mathlib.Tactic

/-!
# Chunks as text

`chunk_to_hex`, `chunk_from_hex`, `chunk_to_base64` and `chunk_from_base64`. All of them keep lengths
and indices in an `int`; a function that overflows one, fails to get its buffer or touches a byte outside
of it has no result.

* `sizeToInt`, `malloc`, `store`: lengths in an `int` and the buffers they are for.
* `chunkToHex`, `chunkFromHex`, `chunkToBase64`, `chunkFromBase64`: the functions.
* **`stores_append`**: characters written one after the other.
-/

namespace StrongSwan

/-! ## Buffers -/

/-- A `size_t` assigned to an `int` -/
def sizeToInt (n : ℕ) : ℤ := (BitVec.ofNat 32 n).toInt

/-- The result of an operation on `int`s, if it does not overflow -/
def intResult (n : ℤ) : Option ℤ := if -2 ^ 31 ≤ n ∧ n < 2 ^ 31 then some n else none

/-- A buffer of `n` bytes. A negative `n` is a `size_t` that is more than can be allocated. -/
def malloc (n : ℤ) : Option Chunk := if 0 ≤ n then some (List.replicate n.toNat 0) else none

/-- `buf[i] = b` -/
def store (buf : Chunk) (i : ℤ) (b : U8) : Option Chunk :=
  if 0 ≤ i ∧ i < buf.length then some (buf.set i.toNat b) else none

/-- `*pos++ = c` for some characters -/
def stores (buf : Chunk) (pos : ℕ) : Chunk → Option Chunk
  | [] => some buf
  | c :: cs =>
    match store buf pos c with
    | none => none
    | some buf => stores buf (pos + 1) cs

/-! ## Hexadecimal digits -/

/-- hex conversion digits -/
def hexdigUpper : Chunk := "0123456789ABCDEF".toList.map fun c => BitVec.ofNat 8 c.toNat

/-- hex conversion digits -/
def hexdigLower : Chunk := "0123456789abcdef".toList.map fun c => BitVec.ofNat 8 c.toNat

/-- The two digits of a byte -/
def hexPair (hexdig : Chunk) (b : U8) : Chunk :=
  [hexdig.getD (b >>> 4 &&& 0xF).toNat 0, hexdig.getD (b &&& 0xF).toNat 0]

/-- The loop over the bytes of a chunk, from index `i` on -/
def hexLoop (hexdig : Chunk) : Chunk → ℕ → Chunk → Option Chunk
  | [], _, buf => some buf
  | b :: chunk, i, buf =>
    match stores buf (i * 2) (hexPair hexdig b) with
    | none => none
    | some buf => hexLoop hexdig chunk (i + 1) buf

/-- `chunk_to_hex` into a buffer of its own -/
def chunkToHex (chunk : Chunk) (uppercase : Bool) : Option Chunk := do
  let hexdig := if uppercase then hexdigUpper else hexdigLower
  let len := sizeToInt (chunk.length * 2)
  let buf ← malloc (len + 1)
  let buf ← store buf len 0
  let buf ← hexLoop hexdig chunk 0 buf
  some (buf.take len.toNat)

/-- convert a single hex character to its binary value -/
def hex2bin (hex : U8) : U8 :=
  if 0x30 ≤ hex ∧ hex ≤ 0x39 then hex - 0x30
  else if 0x41 ≤ hex ∧ hex ≤ 0x46 then hex - 0x41 + 10
  else if 0x61 ≤ hex ∧ hex ≤ 0x66 then hex - 0x61 + 10
  else 0

/-- The separation character `:` -/
def colon : U8 := 0x3a

/-- The optional prefix `0x` -/
def hexPrefix : Chunk := [0x30, 0x78]

def skipPrefix (hex : Chunk) : Chunk :=
  if hex.length > 1 ∧ hex[1]? = some 0x78 ∧ hex[0]? = some 0x30 then hex.drop 2 else hex

/-- Subtract the number of separation characters, with the index at `i`. -/
def subtractColons : Chunk → ℕ → ℤ → Option ℤ
  | [], _, len => some len
  | c :: hex, i, len =>
    let len := if c = colon then len - 1 else len
    if i + 1 < 2 ^ 31 then subtractColons hex (i + 1) len else none

/-- Read a digit and go on to the left, where `before` are the characters there from right to left; skip
a separation character. -/
def lowDigit : Chunk → Option (U8 × Chunk)
  | [] => none
  | c :: before =>
    if c = colon then
      match before with
      | [] => none
      | c :: before => some (hex2bin c, before)
    else some (hex2bin c, before)

/-- The loop that fills the buffer from the right, with `n` bytes left -/
def fromHexLoop (odd : Bool) : ℕ → Chunk → Chunk → Option Chunk
  | 0, _, buf => some buf
  | i + 1, before, buf =>
    match lowDigit before with
    | none => none
    | some (low, before) =>
      if i > 0 ∨ odd = false then
        match before with
        | [] => none
        | c :: before =>
          match store buf i (low ||| hex2bin c <<< 4) with
          | none => none
          | some buf => fromHexLoop odd i before buf
      else
        match store buf i low with
        | none => none
        | some buf => fromHexLoop odd i before buf

/-- `chunk_from_hex` into a buffer of its own -/
def chunkFromHex (hex : Chunk) : Option Chunk := do
  let hex := skipPrefix hex
  let len ← subtractColons hex 0 (sizeToInt hex.length)
  let odd := decide (len.tmod 2 ≠ 0)
  let len ← if odd then intResult (len + 1) else some len
  let len := len.tdiv 2
  let buf ← malloc len
  fromHexLoop odd len.toNat hex.reverse buf

/-! ## Base 64 -/

/-- base 64 conversion digits -/
def b64digits : Chunk :=
  "ABCDEFGHIJKLMNOPQRSTUVWXYZabcdefghijklmnopqrstuvwxyz0123456789+/".toList.map
    fun c => BitVec.ofNat 8 c.toNat

/-- The padding character `=` -/
def equalsSign : U8 := 0x3d

/-- The digit with this index, the padding character for none -/
def b64digit (i : U8) : U8 := b64digits.getD i.toNat 0

/-- The loop over the bytes of a chunk from index `i` on, with `rest` the bytes there -/
def base64Loop (len : ℤ) (i pos : ℕ) (rest buf : Chunk) : Option (Chunk × ℕ) :=
  if ¬ (i : ℤ) < len then some (buf, pos)
  else
    match rest with
    | [] => none
    | [a] =>
      (stores buf pos [b64digit (a >>> 2), b64digit ((a &&& 0x03) <<< 4), equalsSign, equalsSign]).map
        (·, pos + 4)
    | [a, b] =>
      (stores buf pos [b64digit (a >>> 2), b64digit ((a &&& 0x03) <<< 4 ||| b >>> 4),
        b64digit ((b &&& 0x0F) <<< 2), equalsSign]).map (·, pos + 4)
    | a :: b :: c :: rest =>
      match stores buf pos [b64digit (a >>> 2), b64digit ((a &&& 0x03) <<< 4 ||| b >>> 4),
        b64digit ((b &&& 0x0F) <<< 2 ||| c >>> 6), b64digit (c &&& 0x3F)] with
      | none => none
      | some buf => base64Loop len (i + 3) (pos + 4) rest buf

/-- `chunk_to_base64` into a buffer of its own -/
def chunkToBase64 (chunk : Chunk) : Option Chunk := do
  let len := sizeToInt (chunk.length + (3 - chunk.length % 3) % 3)
  let quads ← intResult (len * 4)
  let size := quads.tdiv 3
  let buf ← malloc (size + 1)
  let (buf, pos) ← base64Loop len 0 0 chunk buf
  let buf ← store buf pos 0
  some (buf.take size.toNat)

/-- convert a base 64 digit to its binary form (inversion of b64digits array) -/
def b642bin (b64 : U8) : U8 :=
  if 0x41 ≤ b64 ∧ b64 ≤ 0x5a then b64 - 0x41
  else if 0x61 ≤ b64 ∧ b64 ≤ 0x7a then 26 + b64 - 0x61
  else if 0x30 ≤ b64 ∧ b64 ≤ 0x39 then 26 + 26 + b64 - 0x30
  else if b64 = 0x2b ∨ b64 = 0x2d then 62
  else if b64 = 0x2f ∨ b64 = 0x5f then 63
  else if b64 = equalsSign then 0
  else -1

/-- What a character makes of the output length -/
def shorten (outlen : ℕ) (c : U8) : ℕ := if c = equalsSign ∧ outlen > 0 then outlen - 1 else outlen

/-- The loop over the characters from index `i` of the output on, with `rest` the characters there -/
def fromBase64Loop (len : ℤ) (i outlen : ℕ) (rest buf : Chunk) : Option (Chunk × ℕ) :=
  if ¬ (i : ℤ) < len then some (buf, outlen)
  else
    match rest with
    | c₀ :: c₁ :: c₂ :: c₃ :: rest =>
      let outlen := [c₀, c₁, c₂, c₃].foldl shorten (outlen + 3)
      match stores buf i [b642bin c₀ <<< 2 ||| b642bin c₁ >>> 4, b642bin c₁ <<< 4 ||| b642bin c₂ >>> 2,
        b642bin c₂ <<< 6 ||| b642bin c₃] with
      | none => none
      | some buf => fromBase64Loop len (i + 3) outlen rest buf
    | _ => none

/-- `chunk_from_base64` into a buffer of its own -/
def chunkFromBase64 (base64 : Chunk) : Option Chunk := do
  let len := sizeToInt (base64.length / 4 * 3)
  let buf ← malloc len
  let (buf, outlen) ← fromBase64Loop len 0 0 base64 buf
  some (buf.take outlen)

/-! ## Writing to a buffer -/

theorem sizeToInt_of_lt {n : ℕ} (h : n < 2 ^ 31) : sizeToInt n = n := by
  rw [sizeToInt, BitVec.toInt_eq_toNat_of_lt] <;> rw [BitVec.toNat_ofNat] <;> omega

theorem intResult_eq_some {n m : ℤ} : intResult n = some m ↔ (-2 ^ 31 ≤ n ∧ n < 2 ^ 31) ∧ n = m := by
  rw [intResult]
  split_ifs with h
  · rw [Option.some.injEq]
    exact ⟨fun heq => ⟨h, heq⟩, And.right⟩
  · exact ⟨fun hnone => (by cases hnone), fun hin => absurd hin.1 h⟩

theorem malloc_natCast (n : ℕ) : malloc n = some (List.replicate n 0) := by simp [malloc]

theorem length_store {buf buf' : Chunk} {i : ℤ} {b : U8} (h : store buf i b = some buf') :
    buf'.length = buf.length := by
  unfold store at h
  split_ifs at h
  rw [← Option.some.inj h, List.length_set]

theorem length_stores {cs buf buf' : Chunk} {pos : ℕ} (h : stores buf pos cs = some buf') :
    buf'.length = buf.length := by
  induction cs generalizing buf pos with
  | nil => rw [← Option.some.inj h]
  | cons c cs ih =>
    rw [stores] at h
    split at h
    · cases h
    · next hstore => rw [ih h, length_store hstore]

theorem store_append (done : Chunk) (x : U8) (rest : Chunk) (b : U8) :
    store (done ++ x :: rest) done.length b = some (done ++ b :: rest) := by
  rw [store, if_pos (by simp), Int.toNat_natCast, List.set_append_right _ _ le_rfl, Nat.sub_self,
    List.set_cons_zero]

/-- **What is written one after the other is behind what is there.** -/
theorem stores_append (done cs old rest : Chunk) (h : old.length = cs.length) :
    stores (done ++ old ++ rest) done.length cs = some (done ++ cs ++ rest) := by
  induction cs generalizing done old with
  | nil => rw [List.length_eq_zero_iff.mp h, stores]
  | cons c cs ih =>
    obtain _ | ⟨x, old⟩ := old
    · cases h
    have hstep := ih (done ++ [c]) old (by simpa using h)
    rw [List.length_append, List.length_singleton] at hstep
    rw [stores, List.append_assoc, List.cons_append, store_append]
    simpa using hstep

end StrongSwan
