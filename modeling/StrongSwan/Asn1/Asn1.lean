import StrongSwan.Basic

/-!
# DER elements

`asn1Length` reads the length of an element, `asn1CodeLength` writes it. `asn1Element` takes the
first element of a blob apart.

* `asn1Element_some`: where the parts of an element are in the blob.
* **`asn1Element_simpleObject`**: an element that was built is taken apart again, whatever follows it.
-/

namespace StrongSwan

/-! ## Tags -/

/-- `ASN1_EOC` -/
def asn1Eoc : U8 := 0x00

/-- `ASN1_BOOLEAN` -/
def asn1Boolean : U8 := 0x01

/-- `ASN1_INTEGER` -/
def asn1Integer : U8 := 0x02

/-- `ASN1_BIT_STRING` -/
def asn1BitString : U8 := 0x03

/-- `ASN1_OCTET_STRING` -/
def asn1OctetString : U8 := 0x04

/-- `ASN1_NULL` -/
def asn1Null : U8 := 0x05

/-- `ASN1_OID` -/
def asn1Oid : U8 := 0x06

/-- `ASN1_ENUMERATED` -/
def asn1Enumerated : U8 := 0x0A

/-- `ASN1_UTF8STRING` -/
def asn1Utf8String : U8 := 0x0C

def asn1PrintableString : U8 := 0x13
def asn1Ia5String : U8 := 0x16

/-- `ASN1_UTCTIME` -/
def asn1UtcTime : U8 := 0x17

/-- `ASN1_GENERALIZEDTIME` -/
def asn1GeneralizedTime : U8 := 0x18

/-- `ASN1_CONSTRUCTED` -/
def asn1Constructed : U8 := 0x20

/-- `ASN1_SEQUENCE` -/
def asn1Sequence : U8 := 0x30

def asn1Set : U8 := 0x31

/-- `ASN1_CONTEXT_S_0` and those behind it -/
def asn1ContextS (n : U8) : U8 := 0x80 + n

/-- `ASN1_CONTEXT_C_0` and those behind it -/
def asn1ContextC (n : U8) : U8 := 0xA0 + n

/-! ## Lengths -/

/-- `ASN1_INVALID_LENGTH` -/
def asn1InvalidLength : ℕ := 0xffffffff

/-- The length of the element at the start of a blob, and the blob behind the length. -/
def asn1Length : Chunk → ℕ × Chunk
  | _ :: n :: blob =>
    if n &&& 0x80 = 0 then
      -- single length octet
      if n.toNat > blob.length then (asn1InvalidLength, blob) else (n.toNat, blob)
    else
      -- composite length, determine number of length octets
      let n := (n &&& 0x7f).toNat
      if n = 0 ∨ n > blob.length then (asn1InvalidLength, blob)
      else if n > 8 then (asn1InvalidLength, blob)
      else
        let len := Bytes.value (blob.take n)
        let blob := blob.drop n
        if len > blob.length then (asn1InvalidLength, blob) else (len, blob)
  | blob => (asn1InvalidLength, blob)

/-- codes ASN.1 lengths up to a size of 16'777'215 bytes -/
def asn1CodeLength (length : ℕ) : Chunk :=
  if length < 128 then [BitVec.ofNat 8 length]
  else if length < 256 then [0x81, BitVec.ofNat 8 length]
  else if length < 65536 then
    [0x82, BitVec.ofNat 8 (length >>> 8), BitVec.ofNat 8 (length &&& 0x00ff)]
  else
    [0x83, BitVec.ofNat 8 (length >>> 16), BitVec.ofNat 8 ((length >>> 8) &&& 0x00ff),
      BitVec.ofNat 8 (length &&& 0x0000ff)]

/-- Build a simple ASN.1 object -/
def asn1SimpleObject (tag : U8) (content : Chunk) : Chunk :=
  tag :: asn1CodeLength content.length ++ content

/-- Build an ASN.1 object from a variable number of individual chunks. -/
def asn1Wrap (type : U8) (chunks : List Chunk) : Chunk := asn1SimpleObject type chunks.flatten

/-! ## Elements -/

/-- The first element of a blob: its bytes, its content and what follows it. -/
def asn1Element (blob : Chunk) : Option (Chunk × Chunk × Chunk) :=
  -- an ASN.1 object must possess at least a tag and length field
  if blob.length < 2 then none
  else if (asn1Length blob).1 = asn1InvalidLength then none
  else
    let content := (asn1Length blob).2.take (asn1Length blob).1
    let rest := (asn1Length blob).2.drop (asn1Length blob).1
    some (blob.take (blob.length - rest.length), content, rest)

theorem asn1Length_le {blob : Chunk} (h : (asn1Length blob).1 ≠ asn1InvalidLength) :
    (asn1Length blob).1 ≤ (asn1Length blob).2.length ∧
      (asn1Length blob).2.length + 2 ≤ blob.length ∧ (asn1Length blob).2 <:+ blob := by
  unfold asn1Length at h ⊢
  split at h
  · rename_i tag n rest
    dsimp only at h ⊢
    split_ifs at h ⊢ with h1 h2 h3 h4 h5
    · exact absurd rfl h
    · exact ⟨not_lt.mp h2, le_rfl, ⟨[tag, n], rfl⟩⟩
    · exact absurd rfl h
    · exact absurd rfl h
    · exact absurd rfl h
    · refine ⟨not_lt.mp h5, ?_, ?_⟩
      · rw [List.length_drop, List.length_cons, List.length_cons]
        omega
      · exact (List.drop_suffix _ _).trans ⟨[tag, n], rfl⟩
  · exact absurd rfl h

/-- **The parts of an element**: content and what follows it fill the blob behind tag and length. -/
theorem asn1Element_some {blob tlv content rest : Chunk}
    (h : asn1Element blob = some (tlv, content, rest)) :
    blob = tlv ++ rest ∧ content <:+ tlv ∧ content.length + 2 ≤ tlv.length := by
  unfold asn1Element at h
  split_ifs at h with hlen hvalid
  obtain ⟨hle, hlen', hsuffix⟩ := asn1Length_le hvalid
  simp only [Option.some.injEq, Prod.mk.injEq] at h
  obtain ⟨rfl, rfl, rfl⟩ := h
  obtain ⟨header, hblob⟩ := hsuffix
  set behind := (asn1Length blob).2 with hbehind
  set len := (asn1Length blob).1 with hleneq
  have hlength := congrArg List.length hblob
  rw [List.length_append] at hlength
  have htlv : blob.take (blob.length - (behind.drop len).length) = header ++ behind.take len := by
    rw [← hblob, List.take_append, List.length_append, List.length_drop, List.take_of_length_le
      (by omega), show header.length + behind.length - (behind.length - len) - header.length = len by
      omega]
  rw [htlv]
  refine ⟨?_, ⟨header, rfl⟩, ?_⟩
  · rw [List.append_assoc, List.take_append_drop, hblob]
  · rw [List.length_append]
    omega

theorem asn1Length_codeLength {tag : U8} {length : ℕ} {blob : Chunk} (hlen : length < 2 ^ 24)
    (hle : length ≤ blob.length) :
    asn1Length (tag :: asn1CodeLength length ++ blob) = (length, blob) := by
  have hshort : ∀ n : U8, n.toNat < 128 → n &&& 0x80 = 0 := by decide +kernel
  have hcount : (0x81 &&& 0x7f : U8).toNat = 1 ∧ (0x82 &&& 0x7f : U8).toNat = 2 ∧
      (0x83 &&& 0x7f : U8).toNat = 3 := by decide
  have hbit : (0x81 : U8) &&& 0x80 ≠ 0 ∧ (0x82 : U8) &&& 0x80 ≠ 0 ∧ (0x83 : U8) &&& 0x80 ≠ 0 := by
    decide
  have hbyte : ∀ m, (BitVec.ofNat 8 m).toNat = m % 256 := fun m => BitVec.toNat_ofNat m 8
  unfold asn1CodeLength
  split_ifs with h1 h2 h3
  · rw [List.cons_append, List.singleton_append, asn1Length, if_pos (hshort _ (by rw [hbyte]; omega)),
      hbyte, Nat.mod_eq_of_lt (by omega), if_neg (by omega)]
  · have hvalue : Bytes.value [BitVec.ofNat 8 length] = length := by
      rw [Bytes.value_cons, Bytes.value_nil, hbyte]
      simp
      omega
    simp only [List.cons_append, List.nil_append, asn1Length, hbit.1, if_false, hcount.1]
    rw [if_neg (by simp), if_neg (by omega), List.take_succ_cons, List.take_zero, hvalue,
      List.drop_succ_cons, List.drop_zero, if_neg (by omega)]
  · have hvalue : Bytes.value [BitVec.ofNat 8 (length >>> 8), BitVec.ofNat 8 (length &&& 0x00ff)] =
        length := by
      rw [Bytes.value_cons, Bytes.value_cons, Bytes.value_nil, hbyte, hbyte, Nat.shiftRight_eq_div_pow,
        show 0x00ff = 2 ^ 8 - 1 by rfl, Nat.and_two_pow_sub_one_eq_mod]
      simp
      omega
    simp only [List.cons_append, List.nil_append, asn1Length, hbit.2.1, if_false, hcount.2.1]
    rw [if_neg (by simp), if_neg (by omega), List.take_succ_cons, List.take_succ_cons, List.take_zero,
      hvalue, List.drop_succ_cons, List.drop_succ_cons, List.drop_zero, if_neg (by omega)]
  · have hvalue : Bytes.value [BitVec.ofNat 8 (length >>> 16), BitVec.ofNat 8 ((length >>> 8) &&& 0x00ff),
        BitVec.ofNat 8 (length &&& 0x0000ff)] = length := by
      rw [Bytes.value_cons, Bytes.value_cons, Bytes.value_cons, Bytes.value_nil, hbyte, hbyte, hbyte,
        Nat.shiftRight_eq_div_pow, Nat.shiftRight_eq_div_pow, show 0x00ff = 2 ^ 8 - 1 by rfl,
        Nat.and_two_pow_sub_one_eq_mod, Nat.and_two_pow_sub_one_eq_mod]
      simp
      omega
    simp only [List.cons_append, List.nil_append, asn1Length, hbit.2.2, if_false, hcount.2.2]
    rw [if_neg (by simp), if_neg (by omega), List.take_succ_cons, List.take_succ_cons,
      List.take_succ_cons, List.take_zero, hvalue, List.drop_succ_cons, List.drop_succ_cons,
      List.drop_succ_cons, List.drop_zero, if_neg (by omega)]

theorem length_codeLength_pos (length : ℕ) : 0 < (asn1CodeLength length).length := by
  unfold asn1CodeLength
  split_ifs <;> simp

theorem length_simpleObject (tag : U8) (content : Chunk) :
    (asn1SimpleObject tag content).length =
      1 + (asn1CodeLength content.length).length + content.length := by
  simp only [asn1SimpleObject, List.length_append, List.length_cons]
  omega

/-- **What was built is taken apart.** -/
theorem asn1Element_simpleObject {tag : U8} {content rest : Chunk} (hlen : content.length < 2 ^ 24) :
    asn1Element (asn1SimpleObject tag content ++ rest) =
      some (asn1SimpleObject tag content, content, rest) := by
  have hpos := length_codeLength_pos content.length
  have hlength := length_simpleObject tag content
  have hread : asn1Length (asn1SimpleObject tag content ++ rest) = (content.length, content ++ rest) := by
    rw [asn1SimpleObject, List.append_assoc]
    exact asn1Length_codeLength hlen (by rw [List.length_append]; omega)
  have hvalid : content.length ≠ asn1InvalidLength := by
    unfold asn1InvalidLength
    omega
  rw [asn1Element, if_neg (by rw [List.length_append]; omega), hread, if_neg hvalid]
  simp only [List.take_left, List.drop_left, List.length_append, Nat.add_sub_cancel]

theorem asn1SimpleObject_inj {tag tag' : U8} {content content' rest rest' : Chunk}
    (hlen : content.length < 2 ^ 24) (hlen' : content'.length < 2 ^ 24)
    (h : asn1SimpleObject tag content ++ rest = asn1SimpleObject tag' content' ++ rest') :
    content = content' ∧ rest = rest' := by
  have hread : asn1Element (asn1SimpleObject tag content ++ rest) = some (_, content, rest) :=
    asn1Element_simpleObject hlen
  rw [h, asn1Element_simpleObject hlen'] at hread
  simp only [Option.some.injEq, Prod.mk.injEq] at hread
  exact ⟨hread.2.1.symm, hread.2.2.symm⟩

end StrongSwan
