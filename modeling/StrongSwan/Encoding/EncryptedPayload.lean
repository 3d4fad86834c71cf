import StrongSwan.Encoding.Message.Generate

/-!
# Encrypted payloads on the wire

What is encrypted is parsed, checked and decrypted by the receiver.

* `Aead.Inverts`: what an AEAD promises.
* `length_encryptContent`, **`decryptContent_eq_iff`**: the length of what is encrypted, and when the
  padding is removed again.
* `decryptInPlace`: decryption with the offsets of the source, where no other byte may be read.
* `RoundTrips`; **`encrypted_exact`**: when a payload has the length that was predicted and decrypts.
-/

namespace StrongSwan

/-- What is asked of an AEAD: it decrypts what it encrypted, and only the ICV is added. -/
structure Aead.Inverts (this : Aead) : Prop where
  blockSize_pos : 1 ≤ this.blockSize
  length_encrypt : ∀ {plain assoc iv encrypted}, this.encrypt plain assoc iv = some encrypted →
    encrypted.length = plain.length + this.icvSize
  length_decrypt : ∀ {encrypted assoc iv plain}, this.decrypt encrypted assoc iv = some plain →
    encrypted.length = plain.length + this.icvSize
  decrypt_encrypt : ∀ {plain assoc iv encrypted}, this.encrypt plain assoc iv = some encrypted →
    this.decrypt encrypted assoc iv = some plain

/-! ## Padding -/

/-- The length of the padding with its length byte. -/
def paddingLen (aead : Aead) (len : ℕ) : ℕ := aead.blockSize - len % aead.blockSize

section content

variable {aead : Aead} (haead : aead.Inverts) {draws : Draws} {plain assoc encrypted : Chunk}
include haead

theorem paddingLen_pos (len : ℕ) : 0 < paddingLen aead len :=
  Nat.sub_pos_of_lt (Nat.mod_lt _ haead.blockSize_pos)

theorem add_paddingLen (len : ℕ) :
    len + paddingLen aead len = aead.blockSize * (len / aead.blockSize + 1) := by
  have hsplit := Nat.div_add_mod len aead.blockSize
  have hmod := Nat.mod_lt len haead.blockSize_pos
  rw [paddingLen, mul_add]
  omega

theorem add_paddingLen_mono {len len' : ℕ} (h : len ≤ len') :
    len + paddingLen aead len ≤ len' + paddingLen aead len' := by
  rw [add_paddingLen haead, add_paddingLen haead]
  exact Nat.mul_le_mul_left _ (Nat.succ_le_succ (Nat.div_le_div_right h))

omit haead in
theorem exists_of_encryptContent (h : encryptContent aead draws plain assoc = some encrypted) :
    ∃ iv padding ciphertext, encrypted = iv ++ ciphertext ∧ iv.length = aead.ivSize ∧
      padding.length = paddingLen aead plain.length - 1 ∧
      aead.encrypt (plain ++ (padding ++ [BitVec.ofNat 8 (paddingLen aead plain.length - 1)])) assoc
        iv = some ciphertext := by
  simp only [encryptContent, Option.bind_eq_bind, Option.bind_eq_some_iff] at h
  obtain ⟨⟨iv, hiv⟩, -, ⟨padding, hpadding⟩, -, ciphertext, hcipher, heq⟩ := h
  exact ⟨iv, padding, ciphertext, (Option.some.inj heq).symm, hiv, hpadding, hcipher⟩

theorem length_encryptContent (h : encryptContent aead draws plain assoc = some encrypted) :
    encrypted.length = plain.length + computeOverhead aead plain.length := by
  obtain ⟨iv, padding, ciphertext, rfl, hiv, hpadding, hcipher⟩ := exists_of_encryptContent h
  have hlength := haead.length_encrypt hcipher
  have hpos := paddingLen_pos haead plain.length
  rw [List.length_append, List.length_append, List.length_singleton] at hlength
  rw [List.length_append, hlength, hiv, hpadding, computeOverhead]
  rw [paddingLen] at hpos ⊢
  omega

/-- **The padding is removed** if its length fits the byte for it. -/
theorem decryptContent_eq_iff (h : encryptContent aead draws plain assoc = some encrypted) :
    decryptContent aead encrypted assoc = (.success, plain) ↔ paddingLen aead plain.length ≤ 256 := by
  obtain ⟨iv, padding, ciphertext, rfl, hiv, hpadding, hcipher⟩ := exists_of_encryptContent h
  have hpos := paddingLen_pos haead plain.length
  have hblocks := add_paddingLen haead plain.length
  have hlength := haead.length_encrypt hcipher
  have hdecrypt := haead.decrypt_encrypt hcipher
  generalize hlen : paddingLen aead plain.length = len at hpos hblocks hpadding hcipher hlength hdecrypt ⊢
  have hwhole : (plain ++ (padding ++ [BitVec.ofNat 8 (len - 1)])).length = plain.length + len := by
    rw [List.length_append, List.length_append, List.length_singleton, hpadding]
    omega
  have hlast : (plain ++ (padding ++ [BitVec.ofNat 8 (len - 1)])).getLastD 0 =
      BitVec.ofNat 8 (len - 1) := by
    rw [← List.append_assoc, List.getLastD_concat]
  have hbyte : (BitVec.ofNat 8 (len - 1)).toNat = (len - 1) % 256 := BitVec.toNat_ofNat ..
  have hmod := Nat.mod_le (len - 1) 256
  rw [hwhole] at hlength
  have hcheck : ¬(aead.ivSize + aead.icvSize > (iv ++ ciphertext).length ∨
      ((iv ++ ciphertext).length - aead.ivSize - aead.icvSize) % aead.blockSize ≠ 0) := by
    have hrest : (iv ++ ciphertext).length - aead.ivSize - aead.icvSize = plain.length + len := by
      rw [List.length_append, hiv, hlength]
      omega
    rw [hrest, hblocks, Nat.mul_mod_right, List.length_append, hiv, hlength, not_or, not_not]
    exact ⟨by omega, rfl⟩
  rw [decryptContent, if_neg hcheck, List.drop_left' hiv, List.take_left' hiv, hdecrypt]
  dsimp only
  rw [hlast, hbyte, hwhole, if_neg (by omega), Prod.mk.injEq]
  constructor
  · rintro ⟨-, htake⟩
    have hshort := congrArg List.length htake
    rw [List.length_take, hwhole] at hshort
    have hlt := Nat.mod_lt (len - 1) (show 0 < 256 by decide)
    omega
  · intro hle
    rw [Nat.mod_eq_of_lt (by omega), Nat.sub_add_cancel hpos, Nat.add_sub_cancel, List.take_left]
    exact ⟨rfl, rfl⟩

end content

/-! ## Decryption in place -/

/-- A byte of a buffer, at an offset that may be outside of it. -/
def readAt (buffer : Chunk) (offset : ℤ) : Option U8 :=
  if offset < 0 then none else buffer[offset.toNat]?

/-- `decrypt_content` with its offsets; `none` if a byte outside of the payload is read. -/
def decryptInPlace (aead : Aead) (encrypted assoc : Chunk) : Option (Status × Chunk) :=
  let iv := encrypted.take aead.ivSize
  let crypt := encrypted.drop aead.ivSize
  if aead.ivSize + aead.icvSize > encrypted.length ∨
      (crypt.length - aead.icvSize) % aead.blockSize ≠ 0 then some (.failed, [])
  else
    match aead.decrypt crypt assoc iv with
    | none => some (.failed, [])
    | some plain =>
      -- the plaintext is where the ciphertext was
      let buffer := iv ++ (plain ++ crypt.drop plain.length)
      match readAt buffer (aead.ivSize + plain.length - 1) with
      | none => none
      | some byte =>
        let paddingLen := byte.toNat + 1
        if paddingLen > plain.length then some (.parseError, [])
        else some (.success, plain.take (plain.length - paddingLen))

/-- What passes the integrity check. -/
def Authenticates (aead : Aead) (encrypted assoc plain : Chunk) : Prop :=
  aead.ivSize + aead.icvSize ≤ encrypted.length ∧
    (encrypted.length - aead.ivSize - aead.icvSize) % aead.blockSize = 0 ∧
    aead.decrypt (encrypted.drop aead.ivSize) assoc (encrypted.take aead.ivSize) = some plain

/-- An error, or the plaintext without a padding that is shorter than the ciphertext. -/
def Strips (plain : Chunk) (result : Status × Chunk) : Prop :=
  result = (.parseError, []) ∨
    ∃ padLength < plain.length, plain.getLast? = some (BitVec.ofNat 8 padLength) ∧
      result = (.success, plain.take (plain.length - (padLength + 1)))

theorem exists_readAt {iv plain : Chunk} (rest : Chunk) (h : 0 < iv.length + plain.length) :
    ∃ byte, readAt (iv ++ (plain ++ rest)) (iv.length + plain.length - 1) = some byte ∧
      (plain ≠ [] → plain.getLast? = some byte) := by
  cases plain using List.reverseRecOn with
  | nil =>
    cases iv using List.reverseRecOn with
    | nil => exact absurd h (Nat.lt_irrefl 0)
    | append_singleton iv byte =>
      refine ⟨byte, ?_, fun hne => absurd rfl hne⟩
      have hoffset : ((iv ++ [byte]).length : ℤ) + ([] : Chunk).length - 1 = iv.length := by
        rw [List.length_append, List.length_singleton, List.length_nil]
        omega
      rw [hoffset, readAt, if_neg (by omega), Int.toNat_natCast, List.append_assoc,
        List.getElem?_append_right le_rfl, Nat.sub_self]
      rfl
  | append_singleton plain byte =>
    refine ⟨byte, ?_, fun _ => List.getLast?_concat⟩
    have hoffset : (iv.length : ℤ) + (plain ++ [byte]).length - 1 = ((iv ++ plain).length : ℕ) := by
      rw [List.length_append, List.length_append, List.length_singleton]
      omega
    rw [hoffset, readAt, if_neg (by omega), Int.toNat_natCast, List.append_assoc, ← List.append_assoc,
      List.getElem?_append_right le_rfl, Nat.sub_self]
    rfl

/-- **Decryption stays in its buffer**, unless there is neither an IV nor a ciphertext. -/
theorem decryptInPlace_iff {aead : Aead} {encrypted assoc plain : Chunk}
    (h : Authenticates aead encrypted assoc plain) :
    (∃ result, decryptInPlace aead encrypted assoc = some result ∧ Strips plain result) ↔
      0 < aead.ivSize + plain.length := by
  obtain ⟨hlength, hblocks, hdecrypt⟩ := h
  have hiv : (encrypted.take aead.ivSize).length = aead.ivSize := List.length_take_of_le (by omega)
  have hcheck : ¬(aead.ivSize + aead.icvSize > encrypted.length ∨
      ((encrypted.drop aead.ivSize).length - aead.icvSize) % aead.blockSize ≠ 0) := by
    rw [List.length_drop, not_or, not_not]
    exact ⟨by omega, hblocks⟩
  rw [decryptInPlace, if_neg hcheck, hdecrypt]
  dsimp only
  constructor
  · rintro ⟨result, hresult, -⟩
    by_contra hzero
    have hoffset : (aead.ivSize : ℤ) + plain.length - 1 < 0 := by omega
    rw [readAt, if_pos hoffset] at hresult
    cases hresult
  · intro hpos
    obtain ⟨byte, hread, hlast⟩ := exists_readAt ((encrypted.drop aead.ivSize).drop plain.length)
      (show 0 < (encrypted.take aead.ivSize).length + plain.length by omega)
    rw [hiv] at hread
    rw [hread]
    dsimp only
    by_cases hpad : byte.toNat + 1 > plain.length
    · exact ⟨_, if_pos hpad, .inl rfl⟩
    · refine ⟨_, if_neg hpad, .inr ⟨byte.toNat, by omega, ?_, rfl⟩⟩
      rw [hlast (by rintro rfl; exact hpad (Nat.succ_pos _)), BitVec.ofNat_toNat, BitVec.setWidth_eq]

theorem decryptInPlace_eq {aead : Aead} {encrypted assoc : Chunk} {result : Status × Chunk}
    (h : decryptInPlace aead encrypted assoc = some result) :
    decryptContent aead encrypted assoc = result := by
  rw [decryptInPlace] at h
  rw [decryptContent]
  rw [List.length_drop] at h
  split_ifs at h ⊢ with hcheck
  · exact Option.some.inj h
  · cases hdecrypt : aead.decrypt (encrypted.drop aead.ivSize) assoc (encrypted.take aead.ivSize) with
    | none =>
      rw [hdecrypt] at h
      exact Option.some.inj h
    | some plain =>
      rw [hdecrypt] at h
      dsimp only at h ⊢
      have hiv : (encrypted.take aead.ivSize).length = aead.ivSize :=
        List.length_take_of_le (by omega)
      by_cases hpos : 0 < aead.ivSize + plain.length
      · obtain ⟨byte, hread, hlast⟩ :=
          exists_readAt ((encrypted.drop aead.ivSize).drop plain.length)
            (show 0 < (encrypted.take aead.ivSize).length + plain.length by omega)
        rw [hiv] at hread
        rw [hread] at h
        dsimp only at h
        by_cases hempty : plain = []
        · rw [hempty] at h ⊢
          rw [if_pos (show byte.toNat + 1 > ([] : Chunk).length from Nat.succ_pos _)] at h
          exact Option.some.inj h
        · rw [List.getLastD_eq_getLast?, hlast hempty, Option.getD_some]
          split_ifs at h ⊢
          · exact Option.some.inj h
          · exact Option.some.inj h
      · have hoffset : (aead.ivSize : ℤ) + plain.length - 1 < 0 := by omega
        rw [readAt, if_pos hoffset] at h
        cases h

/-! ## On the wire -/

theorem toWire_ite (c : Prop) [Decidable c] {type type' : PayloadType} {number : U8}
    (h : c → type.toWire = number) (h' : type'.toWire = number) :
    (if c then type else type').toWire = number := by
  split_ifs with hc
  · exact h hc
  · exact h'

theorem toWire_ofWire (number : U8) : (PayloadType.ofWire number).toWire = number := by
  unfold PayloadType.ofWire
  repeat apply toWire_ite _ fun h => h.symm
  rfl

theorem readUint8_cons (b : U8) (buf : Chunk) : BioReader.readUint8 (b :: buf) = some (b, buf) := by
  rw [BioReader.readUint8, if_neg (by simp)]
  rfl

theorem readUint16_append (n : U16) (buf : Chunk) :
    BioReader.readUint16 (htoun16 n ++ buf) = some (n, buf) := by
  have hlength : ¬(htoun16 n ++ buf).length < 2 := by
    rw [List.length_append, length_htoun16]
    omega
  rw [BioReader.readUint16, if_neg hlength, untoh16_htoun16_append,
    List.drop_left' (length_htoun16 n)]

namespace Payload

theorem length_generate_setNextType (type : PayloadType) (payload : Payload) :
    (payload.setNextType type).generate.length = payload.generate.length := by
  cases payload with
  | fragment payload =>
    rw [setNextType]
    split_ifs
    · simp only [generate, List.length_append, length_htoun16, List.length_cons]
    · rfl
  | encrypted payload => simp only [setNextType, generate, List.length_append, List.length_cons,
      length_htoun16]
  | fragmentV1 payload => simp only [setNextType, generate, List.length_append, List.length_cons,
      length_htoun16]
  | plain type' nextPayload flags body => simp only [setNextType, generate, List.length_append,
      List.length_cons, length_htoun16]

theorem getLength_eq {payload : Payload} (h : payload.getType ≠ .fragment) :
    payload.getLength = BitVec.ofNat 16 payload.generate.length := by
  have hlength : payload.getLength = BitVec.ofNat 16 payload.generate.length := by
    cases payload with
    | fragment payload => exact absurd rfl h
    | encrypted payload =>
      have hempty : (if payload.encrypted.length ≠ 0 then payload.encrypted.length
          else (Option.map (computeOverhead · 0) none).getD 0) = payload.encrypted.length := by
        split_ifs with hne
        · rfl
        · exact (not_not.mp hne).symm
      rw [getLength, EncryptedPayload.getLength, hempty, generate]
      simp only [List.length_append, List.length_cons, List.length_nil, length_htoun16]
      rw [Nat.add_comm]
    | fragmentV1 payload =>
      simp only [getLength, generate, List.length_append, List.length_cons, List.length_nil,
        length_htoun16]
      rw [Nat.add_comm]
    | plain type nextPayload flags body =>
      simp only [getLength, generate, List.length_append, List.length_cons, List.length_nil,
        length_htoun16]
      rw [Nat.add_comm]
  exact hlength

end Payload

theorem length_flatMap_relinkTo (last : PayloadType) (payloads : List Payload) :
    ((relinkTo last payloads).flatMap Payload.generate).length =
      (payloads.map fun payload => payload.generate.length).sum := by
  induction payloads with
  | nil => rfl
  | cons payload payloads ih =>
    cases payloads with
    | nil =>
      simp only [relinkTo, List.flatMap_cons, List.flatMap_nil, List.append_nil, List.map_cons,
        List.map_nil, List.sum_cons, List.sum_nil, Payload.length_generate_setNextType, add_zero]
    | cons next payloads =>
      rw [relinkTo, List.flatMap_cons, List.length_append, ih, Payload.length_generate_setNextType]
      rfl

theorem length_generateContent (content : List Payload) :
    (generateContent content).length = (content.map fun payload => payload.generate.length).sum :=
  length_flatMap_relinkTo .none content

theorem sum_getLength {content : List Payload} (hcontent : ∀ p ∈ content, p.getType ≠ .fragment)
    (h : (generateContent content).length < 65536) :
    (content.map fun payload => payload.getLength.toNat).sum = (generateContent content).length := by
  rw [length_generateContent] at h ⊢
  congr 1
  refine List.map_congr_left fun payload hpayload => ?_
  have hle : payload.generate.length ≤ (content.map fun p => p.generate.length).sum :=
    List.single_le_sum (fun _ _ => Nat.zero_le _) _ (List.mem_map_of_mem hpayload)
  rw [Payload.getLength_eq (hcontent payload hpayload), BitVec.toNat_ofNat,
    Nat.mod_eq_of_lt (by omega)]

theorem sum_getLength_le {content : List Payload} (hcontent : ∀ p ∈ content, p.getType ≠ .fragment) :
    (content.map fun payload => payload.getLength.toNat).sum ≤ (generateContent content).length := by
  rw [length_generateContent]
  refine List.sum_le_sum fun payload hpayload => ?_
  rw [Payload.getLength_eq (hcontent payload hpayload), BitVec.toNat_ofNat]
  exact Nat.mod_le _ _

namespace Payload

/-- `append_header` of the payload with what is encrypted -/
def associated (aead : Aead) (assoc : Chunk) : Payload → Chunk
  | encrypted payload => payload.appendHeader aead assoc
  | fragment payload => payload.appendHeader aead assoc
  | _ => assoc

/-- The plaintext of a received payload. -/
def decrypted (aead : Aead) (assoc : Chunk) : Payload → Status × Chunk
  | encrypted payload => decryptContent aead payload.encrypted (payload.appendHeader aead assoc)
  | fragment payload => ((payload.decrypt aead assoc).1, (payload.decrypt aead assoc).2.plain)
  | _ => (.failed, [])

end Payload

namespace Wrapped

/-- What is encrypted. -/
def plain : Wrapped → Chunk
  | payloads content => generateContent content
  | fragment payload => payload.plain

def headerLength : Wrapped → ℕ
  | payloads _ => 4
  | fragment _ => 8

/-- `append_header` of the sender -/
def associated (aead : Aead) (assoc : Chunk) (this : Wrapped) : Chunk :=
  match this with
  | payloads content => assoc ++ ([(firstType .none content).toWire, 0] ++
      htoun16 (this.getLength aead))
  | fragment payload => payload.appendHeader aead assoc

/-- The payload with what is encrypted. -/
def sealed (encrypted : Chunk) : Wrapped → Payload
  | payloads content => .encrypted ⟨firstType .none content, 0, encrypted, false⟩
  | fragment payload => .fragment { payload with encrypted }

def received (encrypted : Chunk) : Wrapped → Payload
  | payloads content => .encrypted ⟨.ofWire (firstType .none content).toWire, 0, encrypted, false⟩
  | fragment payload => .fragment ⟨.ofWire payload.nextPayload.toWire, payload.flags,
      payload.fragmentNumber, payload.totalFragments, encrypted, []⟩

/-- A fragment has not been encrypted yet, and is not inside of an Encrypted payload. -/
def Fresh : Wrapped → Prop
  | payloads content => ∀ p ∈ content, p.getType ≠ .fragment
  | fragment payload => payload.encrypted = []

/-- The length of the whole payload, once it is encrypted. -/
def fullLength (aead : Aead) (this : Wrapped) : ℕ :=
  this.headerLength + (this.plain.length + computeOverhead aead this.plain.length)

variable {this : Wrapped} {aead : Aead} {draws : Draws} {assoc encrypted : Chunk} {payload : Payload}

theorem exists_of_encrypt (h : this.encrypt aead draws assoc = some payload) :
    ∃ encrypted, encryptContent aead draws this.plain (this.associated aead assoc) =
      some encrypted ∧ payload = this.sealed encrypted := by
  cases this with
  | payloads content =>
    obtain ⟨encrypted, hencrypt, heq⟩ := Option.bind_eq_some_iff.mp h
    exact ⟨encrypted, hencrypt, (Option.some.inj heq).symm⟩
  | fragment payload =>
    obtain ⟨encrypted, hencrypt, heq⟩ := Option.bind_eq_some_iff.mp h
    exact ⟨encrypted, hencrypt, (Option.some.inj heq).symm⟩

theorem length_generate_sealed (this : Wrapped) (encrypted : Chunk) :
    (this.sealed encrypted).generate.length = this.headerLength + encrypted.length := by
  cases this with
  | payloads content =>
    simp only [sealed, Payload.generate, List.length_append, List.length_cons, List.length_nil,
      length_htoun16, headerLength]
  | fragment payload =>
    simp only [sealed, Payload.generate, List.length_append, List.length_cons, List.length_nil,
      length_htoun16, headerLength]

theorem getLength_eq (hfresh : this.Fresh) (h : this.fullLength aead < 65536) :
    this.getLength aead = BitVec.ofNat 16 (this.fullLength aead) := by
  cases this with
  | payloads content =>
    have hle : (generateContent content).length < 65536 := by
      refine lt_of_le_of_lt ?_ h
      rw [fullLength, ← Nat.add_assoc, Nat.add_right_comm]
      exact Nat.le_add_left _ _
    rw [getLength, sum_getLength hfresh hle, fullLength, Nat.add_comm (headerLength _)]
    rfl
  | fragment payload =>
    have hempty : payload.encrypted.length = 0 := by rw [show payload.encrypted = [] from hfresh]; rfl
    rw [getLength, EncryptedFragmentPayload.getLength, if_neg (not_not_intro hempty), fullLength,
      Nat.add_comm (headerLength _)]
    rfl

theorem getLength_le (haead : aead.Inverts) (hfresh : this.Fresh) :
    (this.getLength aead).toNat ≤ this.fullLength aead := by
  cases this with
  | payloads content =>
    have hmono := add_paddingLen_mono haead (sum_getLength_le hfresh)
    have hover : ∀ len, len + computeOverhead aead len =
        len + paddingLen aead len + (aead.ivSize + aead.icvSize) := by
      intro len
      rw [computeOverhead, paddingLen]
      omega
    rw [getLength, BitVec.toNat_ofNat]
    refine (Nat.mod_le _ _).trans ?_
    show _ + _ + 4 ≤ 4 + ((generateContent content).length +
      computeOverhead aead (generateContent content).length)
    rw [hover, hover, Nat.add_comm]
    exact Nat.add_le_add_left (Nat.add_le_add_right hmono _) 4
  | fragment payload =>
    have hempty : payload.encrypted.length = 0 := by rw [show payload.encrypted = [] from hfresh]; rfl
    rw [getLength, EncryptedFragmentPayload.getLength, if_neg (not_not_intro hempty),
      BitVec.toNat_ofNat, fullLength, Nat.add_comm (headerLength _)]
    exact Nat.mod_le _ _

/-- **The receiver parses it.** -/
theorem parse_sealed (internals : Internals) (h : this.headerLength + encrypted.length < 65536)
    (hne : encrypted.length ≠ 0) :
    parsePayload internals this.getType (this.sealed encrypted).generate =
      some (this.received encrypted, []) := by
  have hdata : ∀ (data : Chunk) (size : U16), size.toNat = data.length + 4 →
      BioReader.readData data (size.toNat - 4) = some (data, []) := by
    intro data size hsize
    rw [hsize, Nat.add_sub_cancel]
    have hread := BioReader.readData_append [] (Eq.refl data.length)
    rwa [List.append_nil] at hread
  have hfour : ∀ (data : Chunk) (size : U16), size.toNat = data.length + 4 → ¬size.toNat < 4 := by
    intro data size hsize
    omega
  cases this with
  | payloads content =>
    have hsize : (BitVec.ofNat 16 (encrypted.length + 4)).toNat = encrypted.length + 4 := by
      rw [BitVec.toNat_ofNat, Nat.mod_eq_of_lt (by rw [Nat.add_comm]; exact h)]
    have hlength : (⟨firstType .none content, 0, encrypted, false⟩ : EncryptedPayload).getLength none =
        BitVec.ofNat 16 (encrypted.length + 4) := by
      rw [EncryptedPayload.getLength, if_pos hne]
    rw [sealed, Payload.generate, hlength, parsePayload, getType]
    simp only [Option.bind_eq_bind, List.cons_append, List.nil_append, readUint8_cons,
      Option.bind_some, readUint16_append, if_neg (hfour encrypted _ hsize),
      hdata encrypted _ hsize]
    rfl
  | fragment payload =>
    set body := htoun16 payload.fragmentNumber ++ (htoun16 payload.totalFragments ++ encrypted)
      with hbody
    have hbodyLength : body.length + 4 = encrypted.length + 8 := by
      rw [hbody, List.length_append, List.length_append, length_htoun16, length_htoun16]
      omega
    have hsize : (BitVec.ofNat 16 (encrypted.length + 8)).toNat = body.length + 4 := by
      rw [BitVec.toNat_ofNat, Nat.mod_eq_of_lt (by rw [Nat.add_comm]; exact h), hbodyLength]
    have hlength : ({ payload with encrypted } : EncryptedFragmentPayload).getLength none =
        BitVec.ofNat 16 (encrypted.length + 8) := by
      rw [EncryptedFragmentPayload.getLength, if_pos hne]
    rw [sealed, Payload.generate, hlength, List.append_assoc, List.append_assoc, parsePayload, getType]
    simp only [Option.bind_eq_bind, List.cons_append, List.nil_append, readUint8_cons,
      Option.bind_some, readUint16_append, ← hbody, if_neg (hfour body _ hsize),
      hdata body _ hsize]
    rw [hbody, readUint16_append, Option.bind_some, readUint16_append]
    rfl

/-- What the sender promises about a payload: it is as long as predicted, and what is received of it
authenticates the same data and decrypts to the plaintext. -/
structure RoundTrips (internals : Internals) (aead : Aead) (assoc : Chunk) (this : Wrapped)
    (payload : Payload) : Prop where
  length_eq : payload.generate.length = (this.getLength aead).toNat
  received : ∃ received,
    parsePayload internals this.getType payload.generate = some (received, []) ∧
      received.associated aead assoc = this.associated aead assoc ∧
      received.decrypted aead assoc = (.success, this.plain)

theorem associated_received (hfresh : this.Fresh) (hne : encrypted.length ≠ 0)
    (hlength : this.headerLength + encrypted.length = this.fullLength aead)
    (hfull : this.fullLength aead < 65536) :
    (this.received encrypted).associated aead assoc = this.associated aead assoc := by
  have hsize := getLength_eq hfresh hfull
  rw [← hlength, Nat.add_comm] at hsize
  cases this with
  | payloads content =>
    rw [received, Payload.associated, EncryptedPayload.appendHeader, EncryptedPayload.getLength,
      if_pos hne, toWire_ofWire, associated, hsize, List.append_assoc]
    rfl
  | fragment payload =>
    have hreceived : (⟨.ofWire payload.nextPayload.toWire, payload.flags, payload.fragmentNumber,
        payload.totalFragments, encrypted, []⟩ : EncryptedFragmentPayload).getLength (some aead) =
        payload.getLength (some aead) := by
      rw [EncryptedFragmentPayload.getLength, if_pos hne]
      exact hsize.symm
    rw [received, Payload.associated, EncryptedFragmentPayload.appendHeader, hreceived,
      toWire_ofWire, associated, EncryptedFragmentPayload.appendHeader]

theorem decrypted_received (this : Wrapped) (encrypted : Chunk) :
    (this.received encrypted).decrypted aead assoc =
      decryptContent aead encrypted ((this.received encrypted).associated aead assoc) := by
  cases this with
  | payloads content => rfl
  | fragment payload => rfl

/-- **A payload round trips** if its length and the length of its padding fit their fields. -/
theorem roundTrips_iff (internals : Internals) (haead : aead.Inverts) (hfresh : this.Fresh)
    (h : this.encrypt aead draws assoc = some payload) :
    this.RoundTrips internals aead assoc payload ↔
      this.fullLength aead < 65536 ∧ paddingLen aead this.plain.length ≤ 256 := by
  obtain ⟨encrypted, hencrypt, rfl⟩ := exists_of_encrypt h
  have hlength := length_encryptContent haead hencrypt
  have hfull : this.headerLength + encrypted.length = this.fullLength aead := by
    rw [hlength, fullLength]
  have hne : encrypted.length ≠ 0 := by
    have hpos := paddingLen_pos haead this.plain.length
    rw [paddingLen] at hpos
    rw [hlength, computeOverhead]
    omega
  have hparse : this.headerLength + encrypted.length < 65536 → parsePayload internals this.getType
      (this.sealed encrypted).generate = some (this.received encrypted, []) :=
    fun hlt => parse_sealed internals hlt hne
  constructor
  · rintro ⟨hsize, received, hreceived, hassoc, hdecrypted⟩
    have hlt : this.fullLength aead < 65536 := by
      rw [← hfull, ← length_generate_sealed, hsize]
      exact (this.getLength aead).isLt
    refine ⟨hlt, ?_⟩
    rw [hparse (hfull.trans_lt hlt), Option.some.injEq, Prod.mk.injEq] at hreceived
    rw [← hreceived.1, decrypted_received, associated_received hfresh hne hfull hlt] at hdecrypted
    exact (decryptContent_eq_iff haead hencrypt).mp hdecrypted
  · rintro ⟨hlt, hpad⟩
    have hassoc := @associated_received this aead assoc _ hfresh hne hfull hlt
    refine ⟨?_, _, hparse (hfull.trans_lt hlt), hassoc, ?_⟩
    · rw [length_generate_sealed, getLength_eq hfresh hlt, BitVec.toNat_ofNat, Nat.mod_eq_of_lt hlt,
        hfull]
    · rw [decrypted_received, hassoc]
      exact (decryptContent_eq_iff haead hencrypt).mpr hpad

theorem encrypted_exact (internals : Internals) (haead : aead.Inverts) :
    (∀ (this : Wrapped) (draws : Draws) (assoc : Chunk) (payload : Payload), this.Fresh →
      this.encrypt aead draws assoc = some payload →
        (this.RoundTrips internals aead assoc payload ↔
          this.fullLength aead < 65536 ∧ paddingLen aead this.plain.length ≤ 256)) ∧
    ∀ encrypted assoc plain : Chunk, Authenticates aead encrypted assoc plain →
      (decryptInPlace aead encrypted assoc = some (decryptContent aead encrypted assoc) ∧
          Strips plain (decryptContent aead encrypted assoc) ↔ 0 < aead.ivSize + plain.length) := by
  refine ⟨fun this draws assoc payload hfresh h => roundTrips_iff internals haead hfresh h, ?_⟩
  intro encrypted assoc plain h
  rw [← decryptInPlace_iff h]
  constructor
  · rintro ⟨hplace, hstrips⟩
    exact ⟨_, hplace, hstrips⟩
  · rintro ⟨result, hplace, hstrips⟩
    rw [decryptInPlace_eq hplace]
    exact ⟨hplace, hstrips⟩

/-- A cipher that encrypts nothing, without an IV, and an ICV of zeros. -/
def nullAead : Aead where
  blockSize := 1
  ivSize := 0
  icvSize := 12
  ivGen := none
  encrypt plain _ _ := some (plain ++ List.replicate 12 0)
  decrypt encrypted _ _ :=
    if encrypted.length < 12 then none
    else if encrypted.drop (encrypted.length - 12) = List.replicate 12 0 then
      some (encrypted.take (encrypted.length - 12))
    else none

theorem nullAead_inverts : nullAead.Inverts where
  blockSize_pos := le_refl 1
  length_encrypt h := by
    rw [← Option.some.inj h, List.length_append, List.length_replicate]
    rfl
  length_decrypt h := by
    simp only [nullAead] at h
    split_ifs at h
    rw [← Option.some.inj h, List.length_take]
    show _ = _ + 12
    omega
  decrypt_encrypt h := by
    have hlength : ∀ plain : Chunk, (plain ++ List.replicate 12 0).length - 12 = plain.length := by
      intro plain
      rw [List.length_append, List.length_replicate, Nat.add_sub_cancel]
    rw [← Option.some.inj h]
    simp only [nullAead]
    rw [hlength, List.drop_left, List.take_left, if_pos rfl, if_neg (by simp)]

def zeroDraws : Draws where
  iv size := some ⟨List.replicate size 0, List.length_replicate⟩
  padding size := some ⟨List.replicate size 0, List.length_replicate⟩

/-- The Encrypted payload of a notify. -/
theorem encrypted_exact_notify : ∃ payload,
    (Wrapped.payloads [.plain .notify .none 0 [0, 0, 0x40]]).encrypt nullAead zeroDraws [] =
      some payload ∧
    RoundTrips ⟨fun _ _ => true, fun _ _ => true⟩ nullAead []
      (.payloads [.plain .notify .none 0 [0, 0, 0x40]]) payload := by
  obtain ⟨hencrypt, -⟩ := encrypted_exact ⟨fun _ _ => true, fun _ _ => true⟩ nullAead_inverts
  have hfresh : (Wrapped.payloads [.plain .notify .none 0 [0, 0, 0x40]]).Fresh := by
    intro p hp
    rw [List.mem_singleton.mp hp]
    decide
  exact ⟨_, rfl, (hencrypt _ zeroDraws [] _ hfresh rfl).mpr (by decide)⟩

/-- Without an IV, an ICV alone lets a byte in front of it be read. -/
theorem not_strips : ¬ ∀ aead : Aead, aead.Inverts → ∀ encrypted assoc plain : Chunk,
    Authenticates aead encrypted assoc plain →
      decryptInPlace aead encrypted assoc = some (decryptContent aead encrypted assoc) ∧
        Strips plain (decryptContent aead encrypted assoc) := by
  intro hall
  have hauthenticates : Authenticates nullAead (List.replicate 12 0) [] [] := by
    refine ⟨?_, ?_, ?_⟩ <;> decide
  obtain ⟨hplace, hstrips⟩ := hall nullAead nullAead_inverts _ [] [] hauthenticates
  exact absurd ((decryptInPlace_iff hauthenticates).mp ⟨_, hplace, hstrips⟩) (by decide)

end Wrapped

end StrongSwan
