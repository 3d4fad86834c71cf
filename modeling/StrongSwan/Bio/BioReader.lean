import StrongSwan.Basic

/-!
# Buffered readers

A `bio_reader_t` is the rest of its buffer. Each read returns what it took, from the front or from
the end, and the rest; it fails if there is not enough.

`readUint32_append`, `readData_append`, `readUint8End_append`, `readDataEnd_append`: what was written
is read back. `readData8` and `readData16` read data behind its length.
-/

namespace StrongSwan

namespace BioReader

def readUint8 (buf : Chunk) : Option (U8 × Chunk) :=
  if buf.length < 1 then none else some (buf.headD 0, buf.drop 1)

def readUint16 (buf : Chunk) : Option (U16 × Chunk) :=
  if buf.length < 2 then none else some (untoh16 buf, buf.drop 2)

def readUint24 (buf : Chunk) : Option (U32 × Chunk) :=
  if buf.length < 3 then none else some (BitVec.ofNat 32 (Bytes.value (buf.take 3)), buf.drop 3)

def readUint32 (buf : Chunk) : Option (U32 × Chunk) :=
  if buf.length < 4 then none else some (untoh32 buf, buf.drop 4)

def readData (buf : Chunk) (len : ℕ) : Option (Chunk × Chunk) :=
  if buf.length < len then none else some (buf.take len, buf.drop len)

def readData8 (buf : Chunk) : Option (Chunk × Chunk) :=
  match readUint8 buf with
  | some (len, buf) => readData buf len.toNat
  | none => none

def readData16 (buf : Chunk) : Option (Chunk × Chunk) :=
  match readUint16 buf with
  | some (len, buf) => readData buf len.toNat
  | none => none

def readUint8End (buf : Chunk) : Option (U8 × Chunk) :=
  if buf.length < 1 then none else some (buf.getLastD 0, buf.take (buf.length - 1))

def readDataEnd (buf : Chunk) (len : ℕ) : Option (Chunk × Chunk) :=
  if buf.length < len then none
  else some (buf.drop (buf.length - len), buf.take (buf.length - len))

section Length

variable {buf rest : Chunk}

theorem length_readUint8 {n : U8} (h : readUint8 buf = some (n, rest)) :
    buf.length = rest.length + 1 := by
  unfold readUint8 at h
  split_ifs at h
  cases h
  simp only [List.length_drop]
  omega

theorem length_readUint16 {n : U16} (h : readUint16 buf = some (n, rest)) :
    buf.length = rest.length + 2 := by
  unfold readUint16 at h
  split_ifs at h
  cases h
  simp only [List.length_drop]
  omega

theorem length_readData {data : Chunk} {len : ℕ} (h : readData buf len = some (data, rest)) :
    buf.length = rest.length + len := by
  unfold readData at h
  split_ifs at h
  cases h
  simp only [List.length_drop]
  omega

end Length

theorem readUint32_append (n : U32) (buf : Chunk) :
    readUint32 (htoun32 n ++ buf) = some (n, buf) := by
  have htake : (htoun32 n ++ buf).take 4 = htoun32 n := List.take_left' (length_htoun32 n)
  have hdrop : (htoun32 n ++ buf).drop 4 = buf := List.drop_left' (length_htoun32 n)
  have hval : untoh32 (htoun32 n ++ buf) = n := by
    have h := untoh32_htoun32 n
    rw [untoh32, List.take_of_length_le (by simp)] at h
    rw [untoh32, htake, h]
  rw [readUint32, if_neg (by simp), hval, hdrop]

theorem readData_append {data : Chunk} (buf : Chunk) {len : ℕ} (h : data.length = len) :
    readData (data ++ buf) len = some (data, buf) := by
  rw [readData, if_neg (by simp [h]), List.take_left' h, List.drop_left' h]

theorem readUint8End_append (buf : Chunk) (b : U8) : readUint8End (buf ++ [b]) = some (b, buf) := by
  simp [readUint8End]

theorem readDataEnd_append (buf : Chunk) {data : Chunk} {len : ℕ} (h : data.length = len) :
    readDataEnd (buf ++ data) len = some (data, buf) := by
  have hlen : (buf ++ data).length - len = buf.length := by simp [h]
  rw [readDataEnd, if_neg (by simp [h]), hlen, List.drop_left' rfl, List.take_left' rfl]

end BioReader

end StrongSwan
