import StrongSwan.Simaka.SimakaMessage.Bounds

/-!
# The parser of EAP-SIM/AKA attributes over what the encoder writes

* `Legal`: attributes that there is a rule for, with the lengths of data of their types.
* `attributeAt_encode`: the parser finds the data that was encoded.
* **`visits_encoded`**: a run over a list of encoded attributes adds them in order.
* `turn_reserved`, `turn_padding`: the special attributes.
-/

namespace StrongSwan

namespace SimakaMessage

/-! ## Attributes -/

def noDataTypes : List U8 := [atCounterTooSmall, atAnyIdReq, atPermanentIdReq, atFullauthIdReq]

def twoBytesTypes : List U8 := [atCounter, atClientErrorCode, atSelectedVersion, atNotification]

def actualLengthTypes : List U8 := [atNextPseudonym, atNextReauthId, atIdentity, atVersionList, atRes]

def sixteenBytesTypes : List U8 := [atNonceS, atNonceMt, atAutn]

def ruleTypes : List U8 :=
  noDataTypes ++ (twoBytesTypes ++ (actualLengthTypes ++ (sixteenBytesTypes ++ [atRand, atAuts])))

def LegalLength (type : U8) (len : ℕ) : Prop :=
  match group type with
  | .noData => len = 0
  | .twoBytes => len = 2
  | .actualLength => type = atRes → len ≤ 16
  | .sixteenBytes => len = 16
  | .variableLength => 4 ∣ len
  | .auts => len = 14
  | .other => False

/-- An attribute that can be sent. -/
structure Legal (attr : U8 × Chunk) : Prop where
  rule : attr.1 ∈ ruleTypes
  length : LegalLength attr.1 attr.2.length

/-- An attribute with two reserved bytes. -/
def reservedAttr (type : U8) (body : Chunk) : Chunk :=
  attrHdr type (body.length / 4 + 1) ++ [0, 0] ++ body

def actualAttr (type : U8) (body : Chunk) : Chunk :=
  attrHdr type (body.length / 4 + 1 + if wordPadding body.length ≠ 0 then 1 else 0) ++
    putActualLength type body.length ++ body ++ List.replicate (wordPadding body.length) 0

/-- **The encoder follows the groups of the parser.** -/
theorem encodeAttribute_eq {attr : U8 × Chunk} (h : Legal attr) :
    encodeAttribute attr =
      match group attr.1 with
      | .noData => attrHdr attr.1 1 ++ [0, 0]
      | .twoBytes => attrHdr attr.1 1 ++ attr.2
      | .actualLength => actualAttr attr.1 attr.2
      | .sixteenBytes => reservedAttr attr.1 attr.2
      | .variableLength => reservedAttr attr.1 attr.2
      | .auts => attrHdr attr.1 4 ++ attr.2
      | .other => [] := by
  obtain ⟨type, data⟩ := attr
  obtain ⟨hrule, hlength⟩ := h
  dsimp only at hrule hlength ⊢
  simp only [ruleTypes, List.mem_append] at hrule
  rcases hrule with hrule | hrule | hrule | hrule | hrule
  · simp only [noDataTypes, List.mem_cons, List.not_mem_nil, or_false] at hrule
    rcases hrule with rfl | rfl | rfl | rfl <;> rfl
  · simp only [twoBytesTypes, List.mem_cons, List.not_mem_nil, or_false] at hrule
    rcases hrule with rfl | rfl | rfl | rfl
    all_goals
      change attrHdr _ 1 ++ data.take 2 = attrHdr _ 1 ++ data
      rw [List.take_of_length_le (Nat.le_of_eq hlength)]
  · simp only [actualLengthTypes, List.mem_cons, List.not_mem_nil, or_false] at hrule
    rcases hrule with rfl | rfl | rfl | rfl | rfl <;> rfl
  · simp only [sixteenBytesTypes, List.mem_cons, List.not_mem_nil, or_false] at hrule
    rcases hrule with rfl | rfl | rfl
    all_goals
      have hsixteen : data.length = 16 := hlength
      change attrHdr _ 5 ++ _ ++ _ = attrHdr _ (data.length / 4 + 1) ++ _ ++ _
      rw [hsixteen]
  · simp only [List.mem_cons, List.not_mem_nil, or_false] at hrule
    rcases hrule with rfl | rfl
    · change attrHdr _ (1 + data.length / 4) ++ _ ++ _ = attrHdr _ (data.length / 4 + 1) ++ _ ++ _
      rw [Nat.add_comm]
    · rfl

theorem Legal.not_special {attr : U8 × Chunk} (h : Legal attr) :
    attr.1 ≠ atMac ∧ attr.1 ≠ atIv ∧ attr.1 ≠ atEncrData ∧ attr.1 ≠ atPadding := by
  have hnone : atMac ∉ ruleTypes ∧ atIv ∉ ruleTypes ∧ atEncrData ∉ ruleTypes ∧ atPadding ∉ ruleTypes := by
    simp [ruleTypes, noDataTypes, twoBytesTypes, actualLengthTypes, sixteenBytesTypes, atMac, atIv,
      atEncrData, atPadding, atCounterTooSmall, atAnyIdReq, atPermanentIdReq, atFullauthIdReq, atCounter,
      atClientErrorCode, atSelectedVersion, atNotification, atNextPseudonym, atNextReauthId, atIdentity,
      atVersionList, atRes, atRand, atAutn, atNonceMt, atNonceS, atAuts]
  exact ⟨ne_of_mem_of_not_mem h.rule hnone.1, ne_of_mem_of_not_mem h.rule hnone.2.1,
    ne_of_mem_of_not_mem h.rule hnone.2.2.1, ne_of_mem_of_not_mem h.rule hnone.2.2.2⟩

/-! ## Where the parser finds them -/

section Found

variable {type : U8} {n : ℕ} {body rest : Chunk} {encrypted : Bool}

theorem attributeAt_append (encrypted : Bool) (front buf : Chunk) :
    attributeAt encrypted (front ++ buf) front.length =
      (attributeAt encrypted buf 0).map fun found =>
        ({ found.1 with start := front.length, data := front.length + found.1.data }, found.2) := by
  have hget : ∀ i, (front ++ buf).getD (front.length + i) 0 = buf.getD i 0 := by
    intro i
    rw [List.getD_eq_getElem?_getD, List.getD_eq_getElem?_getD,
      List.getElem?_append_right (by omega), Nat.add_sub_cancel_left]
  have htype : (front ++ buf).getD front.length 0 = buf.getD 0 0 := hget 0
  have hlen : (front ++ buf).length - front.length = buf.length - 0 := by
    rw [List.length_append, Nat.add_sub_cancel_left, Nat.sub_zero]
  have hactual : getActualLength (front ++ buf) front.length = getActualLength buf 0 := by
    simp only [getActualLength, getU16, htype, Nat.add_assoc, hget, Nat.zero_add]
  simp only [attributeAt, htype, hget, hlen, hactual, Nat.zero_add]
  by_cases hreject : (mustEncrypt (buf.getD 0 0) && !encrypted) = true
  · rw [if_pos hreject, if_pos hreject]
    rfl
  rw [if_neg hreject, if_neg hreject]
  cases group (buf.getD 0 0)
  all_goals
    dsimp only
    split_ifs <;> rfl

theorem not_reject (hmust : mustEncrypt type = true → encrypted = true) :
    ¬ (mustEncrypt type && !encrypted) = true := by
  intro h
  rw [Bool.and_eq_true, Bool.not_eq_true'] at h
  rw [hmust h.1] at h
  exact Bool.noConfusion h.2

theorem toNat_length {n : ℕ} (h : n ≤ 255) : (BitVec.ofNat 8 n : U8).toNat = n := by
  rw [BitVec.toNat_ofNat, Nat.mod_eq_of_lt (by omega)]

theorem length_reservedAttr (type : U8) (body : Chunk) :
    (reservedAttr type body).length = 4 + body.length := by
  simp only [reservedAttr, attrHdr, List.length_append, List.length_cons, List.length_nil]

theorem attributeAt_reserved (hmust : mustEncrypt type = true → encrypted = true)
    (hsize : body.length ≤ 1016)
    (hgroup : group type = .sixteenBytes ∧ body.length = 16 ∨
      group type = .variableLength ∧ 4 ∣ body.length) :
    attributeAt encrypted (reservedAttr type body ++ rest) 0 =
      some (⟨encrypted, 0, 4 + body.length, 4, body.length⟩, 4 + body.length) := by
  have htype : (reservedAttr type body ++ rest).getD 0 0 = type := rfl
  have hbyte : ((reservedAttr type body ++ rest).getD (0 + 1) 0).toNat = body.length / 4 + 1 :=
    toNat_length (by omega)
  have hlen : (reservedAttr type body ++ rest).length = 4 + body.length + rest.length := by
    rw [List.length_append, length_reservedAttr]
  rw [attributeAt, htype, hbyte, hlen]
  dsimp only
  rw [if_neg (not_reject hmust)]
  rcases hgroup with ⟨hgroup, hsixteen⟩ | ⟨hgroup, hdvd⟩
  · rw [hgroup]
    dsimp only
    rw [if_neg (by omega), hsixteen]
  · rw [hgroup]
    dsimp only
    have hwords : 4 * (body.length / 4 + 1) = 4 + body.length := by omega
    have hcast : ((body.length / 4 + 1 : ℕ) : ℤ) * 4 - 4 = ((4 + body.length : ℕ) : ℤ) - (4 : ℕ) := by
      omega
    rw [if_neg (by omega), hwords, Nat.mul_comm, hwords, hcast, sizeT_sub (by omega) (by omega),
      Nat.add_sub_cancel_left]

theorem attributeAt_fixed {data len : ℕ} (hmust : mustEncrypt type = true → encrypted = true)
    (hn : 4 * n = 2 + body.length)
    (hgroup : group type = .noData ∧ n = 1 ∧ data = 0 ∧ len = 0 ∨
      group type = .twoBytes ∧ n = 1 ∧ data = 2 ∧ len = 2 ∨
        group type = .auts ∧ n = 4 ∧ data = 2 ∧ len = 14) :
    attributeAt encrypted (attrHdr type n ++ body ++ rest) 0 =
      some (⟨encrypted, 0, 2 + body.length, data, len⟩, 2 + body.length) := by
  have htype : (attrHdr type n ++ body ++ rest).getD 0 0 = type := rfl
  have hbyte : ((attrHdr type n ++ body ++ rest).getD (0 + 1) 0).toNat = n := toNat_length (by omega)
  have hlen : (attrHdr type n ++ body ++ rest).length = 2 + body.length + rest.length := by
    simp only [attrHdr, List.length_append, List.length_cons, List.length_nil]
  rw [attributeAt, htype, hbyte, hlen]
  dsimp only
  rw [if_neg (not_reject hmust), ← hn]
  rcases hgroup with ⟨hgroup, rfl, rfl, rfl⟩ | ⟨hgroup, rfl, rfl, rfl⟩ | ⟨hgroup, rfl, rfl, rfl⟩
  all_goals
    rw [hgroup]
    exact if_neg (by omega)

theorem swapped_div_mod {n : ℕ} (h : n < 65536) :
    (n % 256 * 256 + n / 256 % 256) % 256 = n / 256 ∧ (n % 256 * 256 + n / 256 % 256) / 256 = n % 256 := by
  constructor <;> omega

theorem getActualLength_put {b : U8} (hsize : body.length ≤ 1016) (hres : type = atRes → body.length ≤ 16) :
    getActualLength ([type, b] ++ putActualLength type body.length ++ rest) 0 = body.length := by
  have htype : ([type, b] ++ putActualLength type body.length ++ rest).getD 0 0 = type := rfl
  rw [getActualLength, htype]
  by_cases h : type = atRes
  · have hle := hres h
    have hscaled : (body.length % 256 * 256 + body.length / 256 % 256) * 8 = body.length * 2048 := by
      rw [Nat.mod_eq_of_lt (by omega), Nat.div_eq_of_lt (by omega)]
      omega
    rw [if_pos h]
    change ((BitVec.ofNat 8 _ : U8).toNat * 256 + (BitVec.ofNat 8 _ : U8).toNat) / 8 = _
    rw [if_pos h, hscaled, BitVec.toNat_ofNat, BitVec.toNat_ofNat]
    omega
  · obtain ⟨hmod, hdiv⟩ := swapped_div_mod (n := body.length) (by omega)
    rw [if_neg h]
    change (BitVec.ofNat 8 _ : U8).toNat * 256 + (BitVec.ofNat 8 _ : U8).toNat = _
    rw [if_neg h, hdiv, BitVec.toNat_ofNat, BitVec.toNat_ofNat, hmod]
    omega

theorem length_actualAttr (type : U8) (body : Chunk) :
    (actualAttr type body).length = 4 + body.length + wordPadding body.length := by
  simp only [actualAttr, attrHdr, putActualLength, List.length_append, List.length_cons, List.length_nil,
    List.length_replicate]

theorem attributeAt_actual (hmust : mustEncrypt type = true → encrypted = true)
    (hsize : body.length ≤ 1016) (hgroup : group type = .actualLength)
    (hres : type = atRes → body.length ≤ 16) :
    attributeAt encrypted (actualAttr type body ++ rest) 0 =
      some (⟨encrypted, 0, (actualAttr type body).length, 4, body.length⟩,
        (actualAttr type body).length) := by
  have htype : (actualAttr type body ++ rest).getD 0 0 = type := rfl
  have hwords : 4 * (body.length / 4 + 1 + if wordPadding body.length ≠ 0 then 1 else 0) =
      4 + body.length + wordPadding body.length := by
    rw [wordPadding]
    split_ifs <;> omega
  have hpadding : wordPadding body.length ≤ 3 := by
    rw [wordPadding]
    omega
  have hbyte : ((actualAttr type body ++ rest).getD (0 + 1) 0).toNat =
      body.length / 4 + 1 + if wordPadding body.length ≠ 0 then 1 else 0 :=
    toNat_length (by rw [wordPadding] at hwords ⊢; split_ifs at hwords ⊢ <;> omega)
  have hactual : getActualLength (actualAttr type body ++ rest) 0 = body.length := by
    rw [actualAttr, List.append_assoc, List.append_assoc]
    exact getActualLength_put hsize hres
  rw [attributeAt, htype, hbyte, hactual, List.length_append, length_actualAttr]
  dsimp only
  rw [if_neg (not_reject hmust), hgroup]
  dsimp only
  rw [if_neg (by omega), if_neg (by omega), Nat.mul_comm _ 4, hwords]

/-- **The parser finds the data that was encoded.** -/
theorem attributeAt_encode {attr : U8 × Chunk} (h : Legal attr) (hsize : attr.2.length ≤ 1016)
    (hmust : mustEncrypt attr.1 = true → encrypted = true) (rest : Chunk) :
    ∃ data, attributeAt encrypted (encodeAttribute attr ++ rest) 0 =
        some (⟨encrypted, 0, (encodeAttribute attr).length, data, attr.2.length⟩,
          (encodeAttribute attr).length) ∧
      ((encodeAttribute attr ++ rest).drop data).take attr.2.length = attr.2 := by
  obtain ⟨type, body⟩ := attr
  have hlength := h.length
  rw [encodeAttribute_eq h]
  rw [LegalLength] at hlength
  dsimp only at hsize hmust hlength ⊢
  have hreserved : (reservedAttr type body).length = 4 + body.length := length_reservedAttr type body
  cases hgroup : group type with
  | noData =>
    rw [hgroup] at hlength
    obtain rfl := List.length_eq_zero_iff.mp hlength
    exact ⟨0, attributeAt_fixed hmust rfl (.inl ⟨hgroup, rfl, rfl, rfl⟩), rfl⟩
  | twoBytes =>
    rw [hgroup] at hlength
    have hlen : (attrHdr type 1 ++ body).length = 2 + body.length := by
      rw [List.length_append]
      rfl
    refine ⟨2, ?_, List.take_left' rfl⟩
    rw [hlen]
    exact attributeAt_fixed hmust (by omega) (.inr (.inl ⟨hgroup, rfl, rfl, hlength⟩))
  | actualLength =>
    rw [hgroup] at hlength
    refine ⟨4, attributeAt_actual hmust hsize hgroup hlength, ?_⟩
    change ((body ++ List.replicate _ 0) ++ rest).take body.length = body
    rw [List.append_assoc, List.take_left' rfl]
  | sixteenBytes =>
    rw [hgroup] at hlength
    refine ⟨4, ?_, List.take_left' rfl⟩
    dsimp only
    rw [hreserved]
    exact attributeAt_reserved hmust hsize (.inl ⟨hgroup, hlength⟩)
  | variableLength =>
    rw [hgroup] at hlength
    refine ⟨4, ?_, List.take_left' rfl⟩
    dsimp only
    rw [hreserved]
    exact attributeAt_reserved hmust hsize (.inr ⟨hgroup, hlength⟩)
  | auts =>
    rw [hgroup] at hlength
    have hlen : (attrHdr type 4 ++ body).length = 2 + body.length := by
      rw [List.length_append]
      rfl
    refine ⟨2, ?_, List.take_left' rfl⟩
    rw [hlen]
    exact attributeAt_fixed hmust (by omega) (.inr (.inr ⟨hgroup, rfl, rfl, hlength⟩))
  | other =>
    rw [hgroup] at hlength
    exact absurd hlength not_false

end Found

/-! ## Turns over them -/

section Turns

variable {front buf rest : Chunk} {t t' t'' next : SimakaMessage} {attr : U8 × Chunk}

theorem turn_append {place : Place} {skip : ℕ} (hattr : attributeAt t.encrypted buf 0 = some (place, skip))
    (htwo : 2 ≤ buf.length) (hskip : skip ≤ buf.length)
    (hhandle : handle t (front ++ buf) (buf.getD 0 0)
      { place with start := front.length, data := front.length + place.data } = some next) :
    turn (front ++ buf) t front.length = .next next (front.length + skip) := by
  have hlen : (front ++ buf).length = front.length + buf.length := List.length_append
  have htype : (front ++ buf).getD front.length 0 = buf.getD 0 0 := by
    rw [List.getD_eq_getElem?_getD, List.getD_eq_getElem?_getD, List.getElem?_append_right le_rfl,
      Nat.sub_self]
  have hpos : (if skip < (front ++ buf).length - front.length then front.length + skip
      else (front ++ buf).length) = front.length + skip := by
    rw [hlen]
    split_ifs <;> omega
  rw [turn, if_neg (by omega), if_neg (by omega), attributeAt_append, hattr, htype]
  dsimp only [Option.map_some]
  rw [hhandle, hpos]

theorem bytesAt_append (front buf : Chunk) (place : Place) :
    bytesAt (front ++ buf) { place with start := front.length, data := front.length + place.data } =
      (buf.drop place.data).take place.len := by
  rw [bytesAt]
  dsimp only
  rw [List.drop_append, List.drop_eq_nil_of_le (by omega), List.nil_append, Nat.add_sub_cancel_left]

/-- An attribute that does not clear the P bit. -/
def keepsPBit (attr : U8 × Chunk) : Bool := attr.1 != atNotification || hasPBit attr.2

/-- Attributes were added, and nothing else changed but the P bit. -/
structure Adds (t : SimakaMessage) (attrs : List (U8 × Chunk)) (t' : SimakaMessage) : Prop where
  attributes : t'.attributes = t.attributes ++ attrs
  pBit : t'.pBit = (t.pBit && attrs.all keepsPBit)
  message : t'.message = t.message
  encrypted : t'.encrypted = t.encrypted
  mac : t'.mac = t.mac
  iv : t'.iv = t.iv
  encr : t'.encr = t.encr

theorem Adds.refl (t : SimakaMessage) : Adds t [] t :=
  ⟨by rw [List.append_nil], by rw [List.all_nil, Bool.and_true], rfl, rfl, rfl, rfl, rfl⟩

theorem Adds.trans {attrs attrs' : List (U8 × Chunk)} (h : Adds t attrs t') (h' : Adds t' attrs' t'') :
    Adds t (attrs ++ attrs') t'' where
  attributes := by rw [h'.attributes, h.attributes, List.append_assoc]
  pBit := by rw [h'.pBit, h.pBit, List.all_append, Bool.and_assoc]
  message := h'.message.trans h.message
  encrypted := h'.encrypted.trans h.encrypted
  mac := h'.mac.trans h.mac
  iv := h'.iv.trans h.iv
  encr := h'.encr.trans h.encr

/-- An attribute that the parser takes in this phase. -/
structure Sendable (inside : Bool) (attr : U8 × Chunk) : Prop where
  legal : Legal attr
  length_le : attr.2.length ≤ 1016
  encrypted : mustEncrypt attr.1 = true → inside = true
  notification : inside = true ∨ keepsPBit attr = true

/-- **A legal attribute is added when it is handled.** -/
theorem handle_legal {place : Place} (h : Sendable t.encrypted attr)
    (hpbit : t.encrypted = true ∨ t.pBit = true) (hlen : place.len = attr.2.length)
    (hbytes : bytesAt buf place = attr.2) :
    ∃ next, handle t buf attr.1 place = some next ∧ Adds t [attr] next := by
  obtain ⟨hmac, hiv, hencr, hpadding⟩ := h.legal.not_special
  rw [handle, if_neg hmac, if_neg hiv, if_neg hencr, if_neg hpadding]
  have hadd : ∀ b : Bool, b = (t.pBit && keepsPBit attr) →
      Adds t [attr] ({ t with pBit := b }.addParsed buf attr.1 place) := by
    intro b hb
    refine ⟨?_, ?_, rfl, rfl, rfl, rfl, rfl⟩
    · change t.attributes ++ [(attr.1, bytesAt buf place)] = t.attributes ++ [attr]
      rw [hbytes]
    · rw [List.all_cons, List.all_nil, Bool.and_true]
      exact hb
  by_cases hnotification : attr.1 = atNotification
  · have hkeeps : keepsPBit attr = hasPBit attr.2 := by
      rw [keepsPBit, hnotification]
      rfl
    have hlegal : attr.2.length = 2 := by
      have := h.legal.length
      rw [hnotification] at this
      exact this
    have hbit : hasPBit (buf.drop place.data) = hasPBit attr.2 := by
      rw [← hbytes, bytesAt, hlen, hlegal]
      cases buf.drop place.data <;> rfl
    rw [if_pos hnotification]
    cases hp : t.pBit with
    | true =>
      rw [if_pos rfl]
      refine ⟨_, rfl, hadd _ ?_⟩
      rw [hp, Bool.true_and, hkeeps, hbit]
    | false =>
      have hencrypted : t.encrypted = true := by
        rcases hpbit with h | h
        · exact h
        · rw [hp] at h
          cases h
      rw [if_neg Bool.false_ne_true, hencrypted, if_neg (by decide)]
      refine ⟨_, rfl, ?_⟩
      have hsame := hadd t.pBit (by rw [hp, Bool.false_and])
      exact hsame
  · rw [if_neg hnotification]
    refine ⟨_, rfl, ?_⟩
    have hkeeps : keepsPBit attr = true := by
      rw [keepsPBit, Bool.or_eq_true]
      exact .inl (by simpa using hnotification)
    exact hadd t.pBit (by rw [hkeeps, Bool.and_true])

theorem length_encodeAttribute (h : Legal attr) :
    2 ≤ (encodeAttribute attr).length ∧ attr.2.length ≤ (encodeAttribute attr).length ∧
      ∀ rest, (encodeAttribute attr ++ rest).getD 0 0 = attr.1 := by
  have hlength := h.length
  rw [LegalLength] at hlength
  rw [encodeAttribute_eq h]
  cases hgroup : group attr.1 with
  | actualLength =>
    refine ⟨?_, ?_, fun _ => rfl⟩
    all_goals
      dsimp only
      rw [length_actualAttr]
      omega
  | other =>
    rw [hgroup] at hlength
    exact absurd hlength not_false
  | _ =>
    rw [hgroup] at hlength
    refine ⟨?_, ?_, fun _ => rfl⟩
    all_goals
      simp only [reservedAttr, attrHdr, List.length_append, List.length_cons, List.length_nil] at hlength ⊢
      omega

/-- **A turn over an encoded attribute adds it.** -/
theorem turn_encoded (front rest : Chunk) (h : Sendable t.encrypted attr)
    (hpbit : t.encrypted = true ∨ t.pBit = true) :
    ∃ next, turn (front ++ (encodeAttribute attr ++ rest)) t front.length =
        .next next (front.length + (encodeAttribute attr).length) ∧ Adds t [attr] next := by
  obtain ⟨data, hattr, hdata⟩ := attributeAt_encode h.legal h.length_le h.encrypted rest
  obtain ⟨htwo, -, htype⟩ := length_encodeAttribute h.legal
  have hbytes := bytesAt_append front (encodeAttribute attr ++ rest)
    ⟨t.encrypted, 0, (encodeAttribute attr).length, data, attr.2.length⟩
  dsimp only at hbytes
  rw [hdata] at hbytes
  obtain ⟨next, hhandle, hadds⟩ := handle_legal h hpbit rfl hbytes
  refine ⟨next, turn_append hattr ?_ ?_ ?_, hadds⟩
  · rw [List.length_append]
    omega
  · rw [List.length_append]
    omega
  · rw [htype rest]
    exact hhandle

/-- **A run over encoded attributes adds them in order.** -/
theorem visits_encoded {attrs : List (U8 × Chunk)} (front rest : Chunk)
    (h : ∀ attr ∈ attrs, Sendable t.encrypted attr)
    (hpbit : t.encrypted = true ∨ t.pBit = true) :
    ∃ next, Visits (front ++ (attrs.flatMap encodeAttribute ++ rest)) t front.length next
      (front.length + (attrs.flatMap encodeAttribute).length) ∧ Adds t attrs next := by
  induction attrs generalizing front t with
  | nil => exact ⟨t, .refl, .refl t⟩
  | cons attr attrs ih =>
    have hattr := h attr List.mem_cons_self
    obtain ⟨mid, hturn, hadds⟩ := turn_encoded front
      (attrs.flatMap encodeAttribute ++ rest) hattr hpbit
    have hmid : mid.encrypted = true ∨ mid.pBit = true := by
      rcases hattr.notification with henc | hkeeps
      · exact .inl (hadds.encrypted.trans henc)
      · rcases hpbit with henc | hp
        · exact .inl (hadds.encrypted.trans henc)
        · exact .inr (by rw [hadds.pBit, hp, List.all_cons, hkeeps]; rfl)
    obtain ⟨next, hvisits, hrest⟩ := ih (front ++ encodeAttribute attr) (t := mid)
      (fun a ha => hadds.encrypted ▸ h a (List.mem_cons_of_mem _ ha)) hmid
    refine ⟨next, ?_, hadds.trans hrest⟩
    rw [List.append_assoc, List.length_append, Nat.add_assoc] at hvisits
    rw [List.flatMap_cons, List.append_assoc, List.length_append]
    exact (Visits.step .refl hturn).trans hvisits

/-- The place of the body of an attribute with reserved bytes in the message. -/
def reservedPlace (pos : ℕ) (body : Chunk) : Place := ⟨false, pos, 4 + body.length, pos + 4, body.length⟩

theorem bytesAt_reserved (front rest : Chunk) (type : U8) (body : Chunk) :
    bytesAt (front ++ (reservedAttr type body ++ rest)) (reservedPlace front.length body) = body := by
  have hbytes := bytesAt_append front (reservedAttr type body ++ rest)
    ⟨false, 0, 4 + body.length, 4, body.length⟩
  exact hbytes.trans (List.take_left' rfl)

theorem turn_reserved {type : U8} {body : Chunk} (henc : t.encrypted = false)
    (hmust : mustEncrypt type = false) (hsize : body.length ≤ 1016)
    (hgroup : group type = .sixteenBytes ∧ body.length = 16 ∨
      group type = .variableLength ∧ 4 ∣ body.length)
    (hhandle : handle t (front ++ (reservedAttr type body ++ rest)) type
      (reservedPlace front.length body) = some next) :
    turn (front ++ (reservedAttr type body ++ rest)) t front.length =
      .next next (front ++ reservedAttr type body).length := by
  have hlen := length_reservedAttr type body
  have hattr : attributeAt t.encrypted (reservedAttr type body ++ rest) 0 =
      some (⟨t.encrypted, 0, 4 + body.length, 4, body.length⟩, 4 + body.length) :=
    attributeAt_reserved (fun h => absurd (hmust.symm.trans h) (by decide)) hsize hgroup
  rw [List.length_append, hlen]
  refine turn_append hattr ?_ ?_ ?_
  · rw [List.length_append, hlen]
    omega
  · rw [List.length_append, hlen]
    omega
  · dsimp only
    rw [henc]
    exact hhandle

/-- The padding of `n` words. -/
def paddingAttr (n : ℕ) : Chunk := attrHdr atPadding n ++ List.replicate (4 * n - 2) 0

theorem turn_padding {n : ℕ} (hpos : 1 ≤ n) (hle : n ≤ 255) (front : Chunk) (t : SimakaMessage) :
    turn (front ++ paddingAttr n) t front.length = .next t (front ++ paddingAttr n).length := by
  have hlen : (paddingAttr n).length = 4 * n := by
    rw [paddingAttr, attrHdr, List.length_append, List.length_replicate]
    simp only [List.length_cons, List.length_nil]
    omega
  have htype : (paddingAttr n).getD 0 0 = atPadding := rfl
  have hbyte : ((paddingAttr n).getD (0 + 1) 0).toNat = n := toNat_length hle
  have hattr : attributeAt t.encrypted (paddingAttr n) 0 =
      some (⟨t.encrypted, 0, 4 * n, 2, sizeT ((n : ℤ) * 4 - 2)⟩, 4 * n) := by
    rw [attributeAt, htype, hbyte, hlen]
    dsimp only
    rw [if_neg (not_reject fun h => absurd h (by decide)), Nat.mul_comm n 4]
    exact if_neg (by omega)
  rw [List.length_append, hlen]
  exact turn_append hattr (by omega) (by omega) rfl

theorem Visits.parse {pos p : ℕ} {r : Bool × SimakaMessage} (h : Visits buf t pos t' p)
    (hends : ∃ fuel, parseAttributes buf fuel t' p = some r) :
    ∃ fuel, parseAttributes buf fuel t pos = some r := by
  induction h with
  | refl => exact hends
  | step _ hturn ih =>
    obtain ⟨fuel, hfuel⟩ := hends
    refine ih ⟨fuel + 1, ?_⟩
    rw [parseAttributes, hturn]
    exact hfuel

theorem Visits.accepted {pos : ℕ} (h : Visits buf t pos t' buf.length) :
    ∃ fuel, parseAttributes buf fuel t pos = some (true, t') :=
  h.parse ⟨1, by rw [parseAttributes, turn, if_pos le_rfl]⟩

end Turns

end SimakaMessage

end StrongSwan
