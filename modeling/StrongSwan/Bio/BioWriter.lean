import StrongSwan.Bio.BioReader

/-!
# Buffered writers

A `bio_writer_t` is what was written to its buffer.

`readData8_writeData8`, `readData16_writeData16`, `readUint24_append`: data that fits its length
field is read back, whatever follows it. `eq_writeData8`, `eq_writeData16`: what is read was written
so.
-/

namespace StrongSwan

namespace BioWriter

def writeUint8 (buf : Chunk) (value : U8) : Chunk := buf ++ [value]

def writeUint16 (buf : Chunk) (value : U16) : Chunk := buf ++ htoun16 value

def writeUint24 (buf : Chunk) (value : U32) : Chunk := buf ++ Bytes.ofNat 3 value.toNat

def writeData (buf value : Chunk) : Chunk := buf ++ value

/-- `write_data8`: the length is cut off to its last byte. -/
def writeData8 (buf value : Chunk) : Chunk :=
  writeData (writeUint8 buf (BitVec.ofNat 8 value.length)) value

def writeData16 (buf value : Chunk) : Chunk :=
  writeData (writeUint16 buf (BitVec.ofNat 16 value.length)) value

def writeData24 (buf value : Chunk) : Chunk :=
  writeData (writeUint24 buf (BitVec.ofNat 32 value.length)) value

theorem writeData8_eq (buf value : Chunk) : writeData8 buf value = buf ++ writeData8 [] value := by
  simp [writeData8, writeData, writeUint8]

theorem writeData16_eq (buf value : Chunk) : writeData16 buf value = buf ++ writeData16 [] value := by
  simp [writeData16, writeData, writeUint16]

theorem readData8_writeData8 {value : Chunk} (h : value.length ≤ 255) (rest : Chunk) :
    BioReader.readData8 (writeData8 [] value ++ rest) = some (value, rest) := by
  have hlen : (BitVec.ofNat 8 value.length).toNat = value.length := by
    rw [BitVec.toNat_ofNat]
    omega
  have hread : BioReader.readUint8 (writeData8 [] value ++ rest) =
      some (BitVec.ofNat 8 value.length, value ++ rest) := by
    simp [BioReader.readUint8, writeData8, writeData, writeUint8]
  rw [BioReader.readData8, hread]
  exact BioReader.readData_append rest hlen.symm

theorem readData16_writeData16 {value : Chunk} (h : value.length ≤ 0xffff) (rest : Chunk) :
    BioReader.readData16 (writeData16 [] value ++ rest) = some (value, rest) := by
  have hlen : (BitVec.ofNat 16 value.length).toNat = value.length := by
    rw [BitVec.toNat_ofNat]
    omega
  have hread : BioReader.readUint16 (writeData16 [] value ++ rest) =
      some (BitVec.ofNat 16 value.length, value ++ rest) := by
    have hsplit : writeData16 [] value ++ rest =
        htoun16 (BitVec.ofNat 16 value.length) ++ (value ++ rest) := by
      simp [writeData16, writeData, writeUint16]
    have hroom : ¬(htoun16 (BitVec.ofNat 16 value.length) ++ (value ++ rest)).length < 2 := by
      rw [List.length_append, length_htoun16]
      omega
    rw [hsplit, BioReader.readUint16, if_neg hroom, untoh16_htoun16_append,
      List.drop_left' (length_htoun16 _)]
  rw [BioReader.readData16, hread]
  exact BioReader.readData_append rest hlen.symm

theorem eq_writeData8 {buf data rest : Chunk} (h : BioReader.readData8 buf = some (data, rest)) :
    buf = writeData8 [] data ++ rest ∧ data.length ≤ 255 := by
  cases buf with
  | nil => cases h
  | cons b buf =>
    have hread : BioReader.readData8 (b :: buf) = BioReader.readData buf b.toNat := by
      simp [BioReader.readData8, BioReader.readUint8]
    rw [hread, BioReader.readData] at h
    split_ifs at h with hlt
    cases h
    have hle : b.toNat ≤ buf.length := Nat.le_of_not_lt hlt
    have hlen : (buf.take b.toNat).length = b.toNat := List.length_take_of_le hle
    refine ⟨?_, hlen.le.trans (Nat.le_of_lt_succ b.isLt)⟩
    simp [writeData8, writeData, writeUint8, Nat.min_eq_left hle]

theorem eq_writeData16 {buf data rest : Chunk} (h : BioReader.readData16 buf = some (data, rest)) :
    buf = writeData16 [] data ++ rest ∧ data.length ≤ 0xffff := by
  match buf, h with
  | [], h | [_], h => cases h
  | b :: b' :: buf, h =>
    have hread : BioReader.readData16 (b :: b' :: buf) =
        BioReader.readData buf (untoh16 (b :: b' :: buf)).toNat := by
      rw [BioReader.readData16, BioReader.readUint16, if_neg (by simp)]
      rfl
    rw [hread, BioReader.readData] at h
    split_ifs at h with hlt
    cases h
    have hle := Nat.le_of_not_lt hlt
    have hlen := List.length_take_of_le hle
    refine ⟨?_, hlen.le.trans (Nat.le_of_lt_succ (untoh16 (b :: b' :: buf)).isLt)⟩
    have hbytes : htoun16 (untoh16 (b :: b' :: buf)) = [b, b'] := by
      have htake : untoh16 (b :: b' :: buf) = untoh16 [b, b'] := rfl
      rw [htake, htoun16_untoh16 rfl]
    simp only [writeData16, writeData, writeUint16, hlen, BitVec.ofNat_toNat, BitVec.setWidth_eq,
      hbytes, List.nil_append, List.take_append_drop, List.cons_append]

theorem readUint24_append {n : ℕ} (h : n < 2 ^ 24) (rest : Chunk) :
    BioReader.readUint24 (Bytes.ofNat 3 n ++ rest) = some (BitVec.ofNat 32 n, rest) := by
  have htake : (Bytes.ofNat 3 n ++ rest).take 3 = Bytes.ofNat 3 n :=
    List.take_left' (Bytes.length_ofNat 3 n)
  rw [BioReader.readUint24, if_neg (by simp), htake, Bytes.value_ofNat_of_lt (by omega),
    List.drop_left' (Bytes.length_ofNat 3 n)]

end BioWriter

end StrongSwan
