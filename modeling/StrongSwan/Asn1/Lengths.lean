import StrongSwan.Utils.Identification

/-!
# The decoders of DER lengths

`asn1Unwrap` and `asn1Length` parse the same lengths. The latter tells that a length is not valid by a
value that is one, though.

* `asn1Length_of_unwrap`, `asn1Length_of_unwrap_none`: what one decoder says about the other.
* `asn1Unwrap_simpleObject`: objects that were built are unwrapped.
* **`decodersAgree_iff`**: they agree unless a content has `asn1InvalidLength` bytes.
-/

namespace StrongSwan

/-- The length octets that are read, if the length is composite. -/
def lengthOctets : Chunk → Chunk
  | _ :: n :: blob =>
    if n &&& 0x80 = 0 then []
    else
      let octets := (n &&& 0x7f).toNat
      if octets = 0 ∨ octets > blob.length ∨ octets > 8 then [] else blob.take octets
  | _ => []

theorem value_lengthOctets_lt (blob : Chunk) (k : ℕ) :
    Bytes.value ((lengthOctets blob).take k) < 2 ^ 64 := by
  have hlen : ((lengthOctets blob).take k).length ≤ 8 := by
    refine (List.length_take_le' k _).trans ?_
    unfold lengthOctets
    split
    · dsimp only
      split_ifs with hshort hvalid
      · simp
      · simp
      · rw [not_or, not_or, not_lt, not_lt] at hvalid
        rw [List.length_take]
        omega
    · simp
  calc Bytes.value ((lengthOctets blob).take k)
      < 256 ^ ((lengthOctets blob).take k).length := Bytes.value_lt _
    _ ≤ 256 ^ 8 := Nat.pow_le_pow_right (by decide) hlen
    _ = 2 ^ 64 := by norm_num

section Decoders

variable {blob content rest : Chunk} {type : U8}

/-- **What is unwrapped** has its length. -/
theorem asn1Length_of_unwrap (h : asn1Unwrap blob = some (type, content, rest)) :
    asn1Length blob = (content.length, content ++ rest) := by
  unfold asn1Unwrap at h
  split at h
  · rename_i tag n behind
    dsimp only at h
    rw [asn1Length]
    by_cases hshort : n &&& 0x80 = 0
    · rw [if_pos hshort] at h ⊢
      split_ifs at h with hlen
      cases h
      rw [if_neg hlen, List.take_append_drop, List.length_take, min_eq_left (not_lt.mp hlen)]
    · rw [if_neg hshort] at h ⊢
      split_ifs at h with hvalid hlen
      cases h
      rw [not_or, not_or] at hvalid
      dsimp only
      rw [if_neg (not_or.mpr ⟨hvalid.1, hvalid.2.1⟩), if_neg hvalid.2.2, if_neg hlen,
        List.take_append_drop, List.length_take, min_eq_left (not_lt.mp hlen)]
  · cases h

theorem asn1Length_of_unwrap_none (h : asn1Unwrap blob = none) :
    (asn1Length blob).1 = asn1InvalidLength := by
  unfold asn1Unwrap at h
  split at h
  · rename_i tag n behind
    dsimp only at h
    rw [asn1Length]
    by_cases hshort : n &&& 0x80 = 0
    · rw [if_pos hshort] at h ⊢
      split_ifs at h with hlen
      rw [if_pos hlen]
    · rw [if_neg hshort] at h ⊢
      dsimp only
      by_cases hvalid : (n &&& 0x7f).toNat = 0 ∨ (n &&& 0x7f).toNat > behind.length
      · rw [if_pos hvalid]
      · rw [if_neg hvalid]
        by_cases height : (n &&& 0x7f).toNat > 8
        · rw [if_pos height]
        · rw [not_or] at hvalid
          rw [if_neg (not_or.mpr ⟨hvalid.1, not_or.mpr ⟨hvalid.2, height⟩⟩)] at h
          split_ifs at h with hlen
          rw [if_neg height, if_pos hlen]
  · rename_i hshort
    unfold asn1Length
    split
    · exact absurd rfl (hshort _ _ _)
    · rfl

theorem octets_of_unwrap (h : asn1Unwrap blob = some (type, content, rest)) (hlen : 128 ≤ content.length) :
    ∃ octets : Chunk, octets.length ≤ 8 ∧ Bytes.value octets = content.length ∧
      blob = type :: BitVec.ofNat 8 (0x80 + octets.length) :: octets ++ (content ++ rest) := by
  have hbyte : ∀ n : U8, n &&& 0x80 ≠ 0 → BitVec.ofNat 8 (0x80 + (n &&& 0x7f).toNat) = n := by
    decide +kernel
  have hsmall : ∀ n : U8, n &&& 0x80 = 0 → n.toNat < 128 := by decide +kernel
  unfold asn1Unwrap at h
  split at h
  · rename_i tag n behind
    dsimp only at h
    by_cases hshort : n &&& 0x80 = 0
    · rw [if_pos hshort] at h
      split_ifs at h
      cases h
      have hn := hsmall n hshort
      rw [List.length_take] at hlen
      omega
    · rw [if_neg hshort] at h
      split_ifs at h with hvalid hle
      cases h
      rw [not_or, not_or, not_lt, not_lt] at hvalid
      have hoctets : (behind.take (n &&& 0x7f).toNat).length = (n &&& 0x7f).toNat := by
        rw [List.length_take, min_eq_left hvalid.2.1]
      refine ⟨behind.take (n &&& 0x7f).toNat, hoctets.trans_le hvalid.2.2, ?_, ?_⟩
      · rw [List.length_take, min_eq_left (not_lt.mp hle)]
      · rw [hoctets, hbyte n hshort, List.take_append_drop, List.cons_append, List.cons_append,
          List.take_append_drop]
  · cases h

theorem asn1Unwrap_octets {octets : Chunk} (hne : octets ≠ []) (hoctets : octets.length ≤ 8)
    (hvalue : Bytes.value octets = content.length) :
    asn1Unwrap (type :: BitVec.ofNat 8 (0x80 + octets.length) :: octets ++ (content ++ rest)) =
      some (type, content, rest) := by
  have hbyte : ∀ n ≤ 8, BitVec.ofNat 8 (0x80 + n) &&& 0x80 ≠ 0 ∧
      (BitVec.ofNat 8 (0x80 + n) &&& 0x7f).toNat = n := by decide +kernel
  obtain ⟨hbit, hcount⟩ := hbyte octets.length hoctets
  have hpos : octets.length ≠ 0 := fun h => hne (List.length_eq_zero_iff.mp h)
  rw [List.cons_append, List.cons_append, asn1Unwrap]
  dsimp only
  rw [if_neg hbit, hcount, if_neg (by rw [List.length_append]; omega), List.take_left, List.drop_left,
    hvalue, if_neg (by rw [List.length_append]; omega), List.take_left, List.drop_left]

/-- **Objects that were built are unwrapped.** -/
theorem asn1Unwrap_simpleObject (hlen : content.length < 2 ^ 24) :
    asn1Unwrap (asn1SimpleObject type content ++ rest) = some (type, content, rest) := by
  have hread : asn1Length (asn1SimpleObject type content ++ rest) = (content.length, content ++ rest) := by
    rw [asn1SimpleObject, List.append_assoc]
    exact asn1Length_codeLength hlen (by rw [List.length_append]; omega)
  have htype : ∀ {type' content' rest'},
      asn1Unwrap (asn1SimpleObject type content ++ rest) = some (type', content', rest') → type' = type := by
    intro type' content' rest' h
    rw [asn1SimpleObject, List.cons_append, List.cons_append] at h
    cases hcode : asn1CodeLength content.length ++ content ++ rest with
    | nil =>
      rw [hcode] at h
      cases h
    | cons n behind =>
      rw [hcode, asn1Unwrap] at h
      dsimp only at h
      split_ifs at h
      all_goals
        cases h
        rfl
  cases hunwrap : asn1Unwrap (asn1SimpleObject type content ++ rest) with
  | none =>
    have hinvalid := asn1Length_of_unwrap_none hunwrap
    rw [hread, asn1InvalidLength] at hinvalid
    dsimp only at hinvalid
    omega
  | some parts =>
    obtain ⟨type', content', rest'⟩ := parts
    have hlength := asn1Length_of_unwrap hunwrap
    rw [hread, Prod.mk.injEq] at hlength
    obtain ⟨rfl, rfl⟩ := List.append_inj hlength.2 hlength.1
    rw [htype hunwrap]

/-- `asn1_unwrap` and `asn1_length` agree about a blob, and do not overflow. -/
structure DecodersAgree (blob : Chunk) : Prop where
  succeeds : (∃ parts, asn1Unwrap blob = some parts) ↔ (asn1Length blob).1 ≠ asn1InvalidLength
  parts : ∀ type content rest, asn1Unwrap blob = some (type, content, rest) →
    content = (asn1Length blob).2.take (asn1Length blob).1 ∧
      rest = (asn1Length blob).2.drop (asn1Length blob).1
  overflow : ∀ k, Bytes.value ((lengthOctets blob).take k) < 2 ^ 64

/-- The length of the content is encoded in octets, as the one that `asn1_length` returns for lengths
that are not valid; and there is such a content. -/
def HasInvalidLength (blob : Chunk) : Prop :=
  ∃ tag octets behind, octets.length ≤ 8 ∧ Bytes.value octets = asn1InvalidLength ∧
    asn1InvalidLength ≤ behind.length ∧
    blob = tag :: BitVec.ofNat 8 (0x80 + octets.length) :: octets ++ behind

theorem decodersAgree_iff_content : DecodersAgree blob ↔
    ∀ type content rest, asn1Unwrap blob = some (type, content, rest) →
      content.length ≠ asn1InvalidLength := by
  constructor
  · intro h type content rest hunwrap hlen
    refine h.succeeds.mp ⟨_, hunwrap⟩ ?_
    rw [asn1Length_of_unwrap hunwrap]
    exact hlen
  · intro h
    refine ⟨⟨?_, fun hvalid => ?_⟩, fun type content rest hunwrap => ?_, value_lengthOctets_lt blob⟩
    · rintro ⟨⟨type, content, rest⟩, hunwrap⟩
      rw [asn1Length_of_unwrap hunwrap]
      exact h type content rest hunwrap
    · cases hunwrap : asn1Unwrap blob with
      | none => exact absurd (asn1Length_of_unwrap_none hunwrap) hvalid
      | some parts => exact ⟨parts, rfl⟩
    · rw [asn1Length_of_unwrap hunwrap]
      exact ⟨List.take_left.symm, List.drop_left.symm⟩

/-- **The decoders agree** unless a content has as many bytes as the value for lengths that are not valid,
and what was built is unwrapped. -/
theorem decodersAgree_iff (blob : Chunk) (tag : U8) (content suffix : Chunk) :
    (DecodersAgree blob ↔ ¬ HasInvalidLength blob) ∧
      (content.length < 2 ^ 24 →
        asn1Unwrap (asn1SimpleObject tag content ++ suffix) = some (tag, content, suffix)) := by
  refine ⟨?_, asn1Unwrap_simpleObject⟩
  rw [decodersAgree_iff_content]
  constructor
  · rintro h ⟨tag, octets, behind, hoctets, hvalue, hbehind, rfl⟩
    have hne : octets ≠ [] := by
      rintro rfl
      cases hvalue
    have hlen : (behind.take asn1InvalidLength).length = asn1InvalidLength := by
      rw [List.length_take, min_eq_left hbehind]
    have hunwrap : asn1Unwrap _ = some (tag, _, behind.drop asn1InvalidLength) :=
      asn1Unwrap_octets hne hoctets (hvalue.trans hlen.symm)
    rw [List.take_append_drop] at hunwrap
    exact h _ _ _ hunwrap hlen
  · intro h type content rest hunwrap hlen
    obtain ⟨octets, hoctets, hvalue, rfl⟩ := octets_of_unwrap hunwrap (by rw [hlen, asn1InvalidLength]; omega)
    refine h ⟨type, octets, content ++ rest, hoctets, hvalue.trans hlen, ?_, rfl⟩
    rw [List.length_append]
    omega

/-- An octet string of 130 bytes, which has two length octets. -/
theorem decodersAgree_iff_octetString :
    (DecodersAgree [asn1OctetString, 0x81, 0x01, 0xff] ↔
      ¬ HasInvalidLength [asn1OctetString, 0x81, 0x01, 0xff]) ∧
      asn1Unwrap (asn1SimpleObject asn1OctetString (List.replicate 130 0) ++ [0x05]) =
        some (asn1OctetString, List.replicate 130 0, [0x05]) := by
  have h := decodersAgree_iff [asn1OctetString, 0x81, 0x01, 0xff] asn1OctetString (List.replicate 130 0) [0x05]
  exact ⟨h.1, h.2 (by rw [List.length_replicate]; norm_num)⟩

/-- An octet string of 4294967295 bytes is unwrapped, but its length is the invalid one. -/
theorem not_decodersAgree : ¬ ∀ blob, DecodersAgree blob := by
  intro h
  have hlen : (List.replicate asn1InvalidLength (0 : U8)).length = asn1InvalidLength := List.length_replicate
  have hinvalid : HasInvalidLength
      (asn1OctetString :: BitVec.ofNat 8 (0x80 + 4) :: [0xff, 0xff, 0xff, 0xff] ++
        List.replicate asn1InvalidLength 0) :=
    ⟨asn1OctetString, [0xff, 0xff, 0xff, 0xff], _, by decide, by decide, hlen.ge, rfl⟩
  exact ((decodersAgree_iff _ 0 [] []).1.mp (h _)) hinvalid

end Decoders

end StrongSwan
