import StrongSwan.Simaka.SimakaMessage.Encoded

/-!
# EAP-SIM/AKA messages on the wire

* `Keys`: the transforms both sides use; `compose`: a message with attributes.
* `generate_layout`: the parts of a generated message.
* `exists_parsed`: what the receiver makes of them.
* **`roundTrips_iff_pBit`**: the receiver gets the attributes, and verifies the message if and only if it is no
  notification without P bit.
-/

namespace StrongSwan

namespace SimakaMessage

variable {crypto : SimakaCrypto} {crypter : Crypter} {signer : Signer} {this : SimakaMessage}
  {attrs : List (U8 × Chunk)} {data sigdata : Chunk}

/-- The transforms, which are the same on both sides. -/
structure Keys (crypto : SimakaCrypto) (crypter : Crypter) (signer : Signer) : Prop where
  hasCrypter : crypto.crypter = some crypter
  hasSigner : crypto.signer = some signer
  lawful : crypter.Lawful
  signs : signer.Lawful
  blockSize : crypter.blockSize = 16
  ivSize : crypter.ivSize = 16
  macSize : signer.blockSize = 16
  getBytes : ∀ n bytes, crypto.getBytes n = some bytes → bytes.length = n

/-- Add attributes in order. -/
def compose (this : SimakaMessage) (attrs : List (U8 × Chunk)) : SimakaMessage :=
  attrs.foldl (fun this attr => this.addAttribute attr.1 attr.2) this

theorem compose_eq (this : SimakaMessage) (attrs : List (U8 × Chunk)) :
    compose this attrs = { this with attributes := this.attributes ++ attrs } := by
  induction attrs generalizing this with
  | nil => rw [List.append_nil]; rfl
  | cons attr attrs ih =>
    change compose (this.addAttribute attr.1 attr.2) attrs = _
    rw [ih, addAttribute, List.append_assoc]
    rfl

/-- The attributes that are sent unencrypted. -/
def outer (attrs : List (U8 × Chunk)) : List (U8 × Chunk) := attrs.filter fun attr => !isEncrypted attr

/-- The attributes that are sent encrypted. -/
def inner (attrs : List (U8 × Chunk)) : List (U8 × Chunk) := attrs.filter isEncrypted

theorem legal_outer (h : ∀ attr ∈ attrs, Legal attr) : ∀ attr ∈ outer attrs, Legal attr :=
  fun attr hattr => h attr (List.mem_of_mem_filter hattr)

theorem legal_inner (h : ∀ attr ∈ attrs, Legal attr) : ∀ attr ∈ inner attrs, Legal attr :=
  fun attr hattr => h attr (List.mem_of_mem_filter hattr)

/-! ## The parts of a message -/

/-- A message with a header that says its length. -/
def framed (code identifier type subtype : U8) (body : Chunk) : Chunk :=
  [code, identifier] ++ putU16 (8 + body.length) ++ [type, subtype, 0, 0] ++ body

/-- AT_IV and AT_ENCR_DATA, when there is something to encrypt. -/
inductive EncryptedPart (crypter : Crypter) (attrs : List (U8 × Chunk)) : Chunk → Prop
  | empty (h : inner attrs = []) : EncryptedPart crypter attrs []
  | data {iv encr : Chunk} (h : inner attrs ≠ []) (hiv : iv.length = 16)
      (hlen : encr.length = (encodePlain (inner attrs) 16).length)
      (hdecrypt : crypter.decrypt encr iv = some (encodePlain (inner attrs) 16)) :
      EncryptedPart crypter attrs (reservedAttr atIv iv ++ reservedAttr atEncrData encr)

/-- AT_MAC, for the message that `frame` makes of the body with it. -/
inductive MacPart (signer : Signer) (included : Bool) (sigdata : Chunk) (frame : Chunk → Chunk) :
    Chunk → Prop
  | empty (h : included = false) : MacPart signer included sigdata frame []
  | mac {mac : Chunk} (h : included = true) (hlen : mac.length = 16)
      (hsign : signer.sign (frame (reservedAttr atMac (List.replicate 16 0)) ++ sigdata) = some mac) :
      MacPart signer included sigdata frame (reservedAttr atMac mac)

theorem dvd_length_encodeAttribute {attr : U8 × Chunk} (h : Legal attr) :
    4 ∣ (encodeAttribute attr).length := by
  have hlength := h.length
  rw [LegalLength] at hlength
  rw [encodeAttribute_eq h]
  cases hgroup : group attr.1 with
  | actualLength =>
    dsimp only
    rw [length_actualAttr, wordPadding]
    omega
  | other =>
    rw [hgroup] at hlength
    exact absurd hlength not_false
  | _ =>
    rw [hgroup] at hlength
    simp only [reservedAttr, attrHdr, List.length_append, List.length_cons, List.length_nil] at hlength ⊢
    omega

theorem dvd_length_flatMap (h : ∀ attr ∈ attrs, Legal attr) : 4 ∣ (attrs.flatMap encodeAttribute).length := by
  induction attrs with
  | nil => exact Nat.dvd_zero 4
  | cons attr attrs ih =>
    rw [List.flatMap_cons, List.length_append]
    exact Nat.dvd_add (dvd_length_encodeAttribute (h attr List.mem_cons_self))
      (ih fun a ha => h a (List.mem_cons_of_mem _ ha))

/-- **The plaintext ends with padding up to the block size.** -/
theorem encodePlain_eq (h : ∀ attr ∈ attrs, Legal attr) :
    ∃ n, 1 ≤ n ∧ n ≤ 4 ∧ encodePlain attrs 16 = attrs.flatMap encodeAttribute ++ paddingAttr n ∧
      16 ∣ (encodePlain attrs 16).length := by
  have hdvd := dvd_length_flatMap h
  have hwords : 4 * ((16 - (attrs.flatMap encodeAttribute).length % 16) / 4) =
      16 - (attrs.flatMap encodeAttribute).length % 16 := by omega
  refine ⟨(16 - (attrs.flatMap encodeAttribute).length % 16) / 4, by omega, by omega, ?_, ?_⟩
  · rw [encodePlain, paddingAttr, hwords, List.append_assoc]
  · rw [encodePlain, attrHdr]
    simp only [List.length_append, List.length_cons, List.length_nil, List.length_replicate]
    omega

theorem encodeAttribute_ne_nil {attr : U8 × Chunk} (h : Legal attr) : encodeAttribute attr ≠ [] := by
  intro hnil
  have := (length_encodeAttribute h).1
  rw [hnil] at this
  exact absurd this (by decide)

theorem flatMap_ne_nil (h : ∀ attr ∈ attrs, Legal attr) :
    attrs.flatMap encodeAttribute ≠ [] ↔ attrs ≠ [] := by
  cases attrs with
  | nil => simp
  | cons attr attrs =>
    have hne := encodeAttribute_ne_nil (h attr List.mem_cons_self)
    simp [hne]

theorem encryptedPart_of (hkeys : Keys crypto crypter signer) (hlegal : ∀ attr ∈ attrs, Legal attr)
    {encr : Chunk}
    (h : (if (inner attrs).flatMap encodeAttribute ≠ [] then encodeEncrypted (inner attrs) crypto
      else some []) = some encr) : EncryptedPart crypter attrs encr := by
  have hinner := legal_inner hlegal
  split_ifs at h with hsome
  · have hne := (flatMap_ne_nil hinner).mp hsome
    rw [encodeEncrypted, hkeys.hasCrypter] at h
    dsimp only at h
    rw [hkeys.blockSize, hkeys.ivSize] at h
    cases hiv : crypto.getBytes 16 with
    | none =>
      rw [hiv] at h
      cases h
    | some iv =>
      have hlen := hkeys.getBytes 16 iv hiv
      obtain ⟨-, -, -, -, hdvd⟩ := encodePlain_eq hinner
      have hivSize : iv.length = crypter.ivSize := by rw [hlen, hkeys.ivSize]
      rw [← hkeys.blockSize] at hdvd
      obtain ⟨cipher, hcipher, hsize, hback⟩ := hkeys.lawful.encrypt hivSize hdvd
      rw [hkeys.blockSize] at hcipher hsize hback
      rw [hiv, Option.bind_some, hcipher, Option.map_some] at h
      cases h
      have hpart := EncryptedPart.data hne hlen hsize hback
      simpa only [reservedAttr, List.append_assoc] using hpart
  · cases h
    exact .empty (by simpa only [ne_eq, flatMap_ne_nil hinner, Decidable.not_not] using hsome)

section Layout

variable {code identifier type subtype : U8}

theorem length_framed (code identifier type subtype : U8) (body : Chunk) :
    (framed code identifier type subtype body).length = 8 + body.length := by
  simp only [framed, putU16, List.length_append, List.length_cons, List.length_nil]

theorem withLength_hdr (body : Chunk) :
    withLength ([code, identifier, 0, 8, type, subtype, 0, 0] ++ body) =
      framed code identifier type subtype body := by
  have hlen : ([code, identifier, 0, 8, type, subtype, 0, 0] ++ body).length = 8 + body.length := by
    simp only [List.length_append, List.length_cons, List.length_nil]
  rw [withLength, hlen, framed, List.append_assoc, List.append_assoc]
  rfl

theorem take_framed {body mac : Chunk} (hlen : mac.length = 16) :
    (framed code identifier type subtype (body ++ reservedAttr atMac (List.replicate 16 0))).take
        ((framed code identifier type subtype (body ++ reservedAttr atMac (List.replicate 16 0))).length - 16) ++
      mac = framed code identifier type subtype (body ++ reservedAttr atMac mac) := by
  have hattr : ∀ m : Chunk, m.length = 16 → reservedAttr atMac m = attrHdr atMac 5 ++ [0, 0] ++ m := by
    intro m hm
    rw [reservedAttr, hm]
  have hsplit : ∀ m : Chunk, m.length = 16 →
      framed code identifier type subtype (body ++ reservedAttr atMac m) =
        ([code, identifier] ++ putU16 (8 + (body.length + 20)) ++ [type, subtype, 0, 0] ++
          (body ++ (attrHdr atMac 5 ++ [0, 0]))) ++ m := by
    intro m hm
    have hbody : (body ++ reservedAttr atMac m).length = body.length + 20 := by
      rw [List.length_append, length_reservedAttr, hm]
    rw [framed, hbody, hattr m hm]
    simp only [List.append_assoc]
  rw [hsplit _ List.length_replicate, hsplit mac hlen]
  rw [List.length_append, List.length_replicate, Nat.add_sub_cancel, List.take_left' rfl]

/-- **The parts of a generated message.** -/
theorem generate_layout (hmessage : this.message = [code, identifier, 0, 8, type, subtype, 0, 0])
    (hlegal : ∀ attr ∈ this.attributes, Legal attr) (hkeys : Keys crypto crypter signer)
    (h : this.generate crypto sigdata = some data) :
    ∃ encr mac, EncryptedPart crypter this.attributes encr ∧
      MacPart signer this.includesMac sigdata (fun mac => framed code identifier type subtype
        ((outer this.attributes).flatMap encodeAttribute ++ encr ++ mac)) mac ∧
      data = framed code identifier type subtype
        ((outer this.attributes).flatMap encodeAttribute ++ encr ++ mac) := by
  rw [generate] at h
  dsimp only at h
  obtain ⟨encr, hencr, h⟩ := Option.bind_eq_some_iff.mp h
  have hpart := encryptedPart_of hkeys hlegal hencr
  have hhdr : this.message.take hdrLen = [code, identifier, 0, 8, type, subtype, 0, 0] := by
    rw [hmessage]
    rfl
  rw [hhdr] at h
  have hout : ∀ rest : Chunk, [code, identifier, 0, 8, type, subtype, 0, 0] ++
      (outer this.attributes).flatMap encodeAttribute ++ rest =
        [code, identifier, 0, 8, type, subtype, 0, 0] ++
          ((outer this.attributes).flatMap encodeAttribute ++ rest) :=
    fun rest => List.append_assoc _ _ _
  by_cases hmac : this.includesMac = true
  · rw [if_pos hmac, hkeys.hasSigner, Option.bind_some, hkeys.macSize] at h
    -- the message with zeros for the MAC
    have hzeros : [code, identifier, 0, 8, type, subtype, 0, 0] ++
        (outer this.attributes).flatMap encodeAttribute ++ encr ++ attrHdr atMac (16 / 4 + 1) ++
          List.replicate (2 + 16) 0 =
        [code, identifier, 0, 8, type, subtype, 0, 0] ++
          ((outer this.attributes).flatMap encodeAttribute ++ encr ++
            reservedAttr atMac (List.replicate 16 0)) := by
      simp only [List.append_assoc]
      rfl
    change ((signer.sign (withLength ([code, identifier, 0, 8, type, subtype, 0, 0] ++
      (outer this.attributes).flatMap encodeAttribute ++ encr ++ attrHdr atMac (16 / 4 + 1) ++
        List.replicate (2 + 16) 0) ++ sigdata)).map _) = some data at h
    obtain ⟨mac, hsign, rfl⟩ := Option.map_eq_some_iff.mp h
    obtain ⟨mac', hsign', hlen⟩ := hkeys.signs.sign
      (framed code identifier type subtype ((outer this.attributes).flatMap encodeAttribute ++ encr ++
        reservedAttr atMac (List.replicate 16 0)) ++ sigdata)
    rw [hzeros, withLength_hdr, hsign'] at hsign
    obtain rfl := Option.some.inj hsign
    rw [hkeys.macSize] at hlen
    refine ⟨encr, reservedAttr atMac mac', hpart, .mac hmac hlen hsign', ?_⟩
    change (withLength ([code, identifier, 0, 8, type, subtype, 0, 0] ++
      (outer this.attributes).flatMap encodeAttribute ++ encr ++ attrHdr atMac (16 / 4 + 1) ++
        List.replicate (2 + 16) 0)).take ((withLength ([code, identifier, 0, 8, type, subtype, 0, 0] ++
      (outer this.attributes).flatMap encodeAttribute ++ encr ++ attrHdr atMac (16 / 4 + 1) ++
        List.replicate (2 + 16) 0)).length - 16) ++ mac' = _
    rw [hzeros, withLength_hdr]
    exact take_framed hlen
  · rw [if_neg hmac] at h
    refine ⟨encr, [], hpart, .empty (by simpa using hmac), ?_⟩
    rw [List.append_nil, ← Option.some.inj h]
    exact (congrArg withLength (hout encr)).trans (withLength_hdr _)

end Layout

/-! ## Receiving -/

section Receive

variable {t next : SimakaMessage} {front rest encr mac buf : Chunk} {code identifier type subtype : U8}
  {included : Bool} {frame : Chunk → Chunk}

/-- What the parser knows of the encrypted part. -/
inductive Knows (crypter : Crypter) (attrs : List (U8 × Chunk)) (buf : Chunk) (t : SimakaMessage) : Prop
  | empty (hinner : inner attrs = []) (hiv : t.iv = none)
  | data {iv encr : Place} (hiv : t.iv = some iv) (hencr : t.encr = some encr)
      (hne : ¬ (iv.len = 0 ∨ encr.len = 0)) (hblock : encr.len % 16 = 0)
      (hdecrypt : crypter.decrypt (bytesAt buf encr) (bytesAt buf iv) =
        some (encodePlain (inner attrs) 16))

theorem visits_encryptedPart (h : EncryptedPart crypter attrs encr) (hlegal : ∀ attr ∈ attrs, Legal attr)
    (hsize : encr.length ≤ 1016) (front rest : Chunk) (henc : t.encrypted = false) (hiv : t.iv = none) :
    ∃ iv cipher, Visits (front ++ (encr ++ rest)) t front.length { t with iv := iv, encr := cipher }
        (front ++ encr).length ∧
      ∀ t', t'.iv = iv → t'.encr = cipher → Knows crypter attrs (front ++ (encr ++ rest)) t' := by
  cases h with
  | empty hinner =>
    refine ⟨none, t.encr, ?_, fun t' hnone _ => .empty hinner hnone⟩
    rw [List.append_nil, ← hiv]
    exact .refl
  | @data iv cipher hinner hlen hcipher hdecrypt =>
    obtain ⟨n, hpos, -, hplain, hdvd⟩ := encodePlain_eq (legal_inner hlegal)
    rw [List.length_append, length_reservedAttr, length_reservedAttr] at hsize
    have hfirst : turn (front ++ (reservedAttr atIv iv ++ (reservedAttr atEncrData cipher ++ rest))) t
        front.length = .next { t with iv := some (reservedPlace front.length iv) }
          (front ++ reservedAttr atIv iv).length :=
      turn_reserved henc rfl (by omega) (.inl ⟨rfl, hlen⟩) rfl
    have hwords : 4 ∣ cipher.length := by
      rw [hcipher]
      exact Dvd.dvd.trans (by decide) hdvd
    have hsecond : turn ((front ++ reservedAttr atIv iv) ++ (reservedAttr atEncrData cipher ++ rest))
        { t with iv := some (reservedPlace front.length iv) } (front ++ reservedAttr atIv iv).length =
          .next
            { t with
              iv := some (reservedPlace front.length iv)
              encr := some (reservedPlace (front ++ reservedAttr atIv iv).length cipher) }
            ((front ++ reservedAttr atIv iv) ++ reservedAttr atEncrData cipher).length :=
      turn_reserved henc rfl (by omega) (.inr ⟨rfl, hwords⟩) rfl
    refine ⟨some (reservedPlace front.length iv),
      some (reservedPlace (front ++ reservedAttr atIv iv).length cipher), ?_, ?_⟩
    · rw [List.append_assoc]
      refine .step (.step .refl hfirst) ?_
      rw [List.append_assoc, List.append_assoc] at hsecond
      exact hsecond
    · intro t' hiv' hencr'
      refine .data hiv' hencr' ?_ ?_ ?_
      · have hlong : (encodePlain (inner attrs) 16).length ≠ 0 := by
          rw [hplain, List.length_append, paddingAttr, attrHdr, List.length_append]
          simp only [List.length_cons]
          omega
        rintro (hzero | hzero)
        · exact absurd (hlen.symm.trans hzero) (by decide)
        · exact hlong (hcipher.symm.trans hzero)
      · rw [reservedPlace, hcipher]
        exact Nat.mod_eq_zero_of_dvd hdvd
      · have hiv'' := bytesAt_reserved front (reservedAttr atEncrData cipher ++ rest) atIv iv
        have hcipher' := bytesAt_reserved (front ++ reservedAttr atIv iv) rest atEncrData cipher
        rw [List.append_assoc] at hcipher'
        rw [List.append_assoc, hiv'', hcipher', hdecrypt]

theorem visits_macPart (h : MacPart signer included sigdata frame mac) (front : Chunk)
    (henc : t.encrypted = false) (hnone : t.mac = none) :
    ∃ place, Visits (front ++ mac) t front.length { t with mac := place } (front ++ mac).length ∧
      (included = false ∧ place = none ∨ included = true ∧
        ∃ body, mac = reservedAttr atMac body ∧ body.length = 16 ∧
          place = some (reservedPlace front.length body) ∧
            signer.sign (frame (reservedAttr atMac (List.replicate 16 0)) ++ sigdata) = some body) := by
  cases h with
  | empty hincluded =>
    refine ⟨none, ?_, .inl ⟨hincluded, rfl⟩⟩
    rw [List.append_nil, ← hnone]
    exact .refl
  | @mac body hincluded hlen hsign =>
    refine ⟨some (reservedPlace front.length body), ?_, .inr ⟨hincluded, body, rfl, hlen, rfl, hsign⟩⟩
    refine .step .refl ?_
    have hturn : turn (front ++ (reservedAttr atMac body ++ [])) t front.length =
        .next { t with mac := some (reservedPlace front.length body) }
          (front ++ reservedAttr atMac body).length :=
      turn_reserved henc rfl (by omega) (.inl ⟨rfl, hlen⟩) rfl
    rw [List.append_nil] at hturn
    exact hturn

theorem length_le_flatMap {attr : U8 × Chunk} (hlegal : Legal attr) (h : attr ∈ attrs) :
    attr.2.length ≤ (attrs.flatMap encodeAttribute).length :=
  (length_encodeAttribute hlegal).2.1.trans
    (List.sublist_flatten_of_mem (List.mem_map_of_mem h)).length_le

/-- **An attribute can be received where it is sent.** -/
theorem sendable_of {inside : Bool} {attr : U8 × Chunk} (hlegal : Legal attr) (hsize : attr.2.length ≤ 1016)
    (h : inside = true ∨ isEncrypted attr = false) : Sendable inside attr := by
  have hplain : isEncrypted attr = false → mustEncrypt attr.1 = false ∧ keepsPBit attr = true := by
    intro hplain
    rw [isEncrypted, Bool.or_eq_false_iff, decide_eq_false_iff_not] at hplain
    obtain ⟨htypes, hnotification⟩ := hplain
    refine ⟨?_, ?_⟩
    · rw [mustEncrypt, decide_eq_false_iff_not]
      simp only [List.mem_cons, List.not_mem_nil, or_false] at htypes ⊢
      tauto
    · rw [keepsPBit, Bool.or_eq_true, bne_iff_ne]
      by_cases htype : attr.1 = atNotification
      · right
        simpa [htype] using hnotification
      · exact .inl htype
  refine ⟨hlegal, hsize, fun hmust => ?_, ?_⟩
  · rcases h with h | h
    · exact h
    · rw [(hplain h).1] at hmust
      cases hmust
  · rcases h with h | h
    · exact .inl h
    · exact .inr (hplain h).2

theorem exists_parsePlain (hlegal : ∀ attr ∈ attrs, Legal attr)
    (hfits : (encodePlain attrs 16).length ≤ 512) (henc : t.encrypted = false) :
    ∃ fuel parsed, t.parsePlain (encodePlain attrs 16) fuel = some (true, parsed) ∧ Adds t attrs parsed := by
  obtain ⟨n, hpos, hle, hplain, -⟩ := encodePlain_eq hlegal
  have hlen : (attrs.flatMap encodeAttribute).length ≤ 512 := by
    rw [hplain, List.length_append] at hfits
    omega
  obtain ⟨next, hvisits, hadds⟩ := visits_encoded (t := { t with encrypted := true }) [] (paddingAttr n)
    (fun attr hattr => sendable_of (hlegal attr hattr)
      (by have := length_le_flatMap (hlegal attr hattr) hattr; omega) (.inl rfl)) (.inl rfl)
  rw [List.nil_append, List.length_nil, Nat.zero_add] at hvisits
  have hend := hvisits.step (turn_padding hpos (by omega) (attrs.flatMap encodeAttribute) next)
  obtain ⟨fuel, hfuel⟩ := hend.accepted
  refine ⟨fuel, { next with encrypted := false }, ?_, ?_⟩
  · rw [parsePlain, hplain, hfuel]
    rfl
  · exact ⟨hadds.attributes, hadds.pBit, hadds.message, henc.symm, hadds.mac, hadds.iv, hadds.encr⟩

/-- **What the receiver makes of the parts of a message.** -/
theorem exists_decrypt (hkeys : Keys crypto crypter signer) (hlegal : ∀ attr ∈ attrs, Legal attr)
    (hfits : (encodePlain (inner attrs) 16).length ≤ 512) (henc : t.encrypted = false)
    (h : Knows crypter attrs t.message t) :
    ∃ fuel parsed, t.decrypt crypto fuel = some (true, parsed) ∧ Adds t (inner attrs) parsed := by
  cases h with
  | empty hinner hiv =>
    refine ⟨0, t, ?_, ?_⟩
    · rw [decrypt, hkeys.hasCrypter, hiv]
    · rw [hinner]
      exact .refl t
  | data hiv hencr hne hblock hdecrypt =>
    obtain ⟨fuel, parsed, hparse, hadds⟩ := exists_parsePlain (legal_inner hlegal) hfits henc
    refine ⟨fuel, parsed, ?_, hadds⟩
    rw [decrypt, hkeys.hasCrypter, hiv, hencr]
    dsimp only
    rw [henc, if_neg (by simpa using hne), hkeys.blockSize, if_neg (by omega), hdecrypt]
    exact hparse

theorem decrypt_mono {fuel fuel' : ℕ} (hle : fuel ≤ fuel') {r : Bool × SimakaMessage}
    (h : t.decrypt crypto fuel = some r) : t.decrypt crypto fuel' = some r := by
  rcases decrypt_cases crypto t with ⟨accepted, hdecrypt⟩ | ⟨plain, -, hdecrypt⟩
  · rw [hdecrypt] at h ⊢
    exact h
  · rw [hdecrypt, parsePlain] at h ⊢
    obtain ⟨r', hr', rfl⟩ := Option.map_eq_some_iff.mp h
    rw [parseAttributes_mono hle hr']
    rfl

theorem parse_mono {fuel fuel' : ℕ} (hle : fuel ≤ fuel') {r : Bool × SimakaMessage}
    (h : t.parse crypto fuel = some r) : t.parse crypto fuel' = some r := by
  rw [parse] at h ⊢
  split_ifs at h ⊢ with hattributes
  · exact decrypt_mono hle h
  · cases hrun : parseAttributes t.data fuel t hdrLen with
    | none =>
      rw [hrun] at h
      cases h
    | some result =>
      rw [hrun] at h
      rw [parseAttributes_mono hle hrun]
      obtain ⟨accepted, parsed⟩ := result
      cases accepted with
      | false => exact h
      | true => exact decrypt_mono hle h

theorem getU16_framed {body : Chunk} (h : 8 + body.length < 65536) :
    getU16 (framed code identifier type subtype body) 2 = 8 + body.length := by
  change (BitVec.ofNat 8 _ : U8).toNat * 256 + (BitVec.ofNat 8 _ : U8).toNat = _
  rw [BitVec.toNat_ofNat, BitVec.toNat_ofNat]
  omega

theorem data_framed {body : Chunk} (h : 8 + body.length < 65536)
    (hmessage : t.message = framed code identifier type subtype body) : t.data = t.message := by
  rw [data, hmessage, getU16_framed h]
  exact List.take_of_length_le (Nat.le_of_eq (length_framed _ _ _ _ body))

/-- **A generated message is accepted.** -/
theorem createFromPayload_framed {body : Chunk} (h : 8 + body.length < 65536)
    (hcode : code = 1 ∨ code = 2) (htype : type = 18 ∨ type = 23) :
    createFromPayload (framed code identifier type subtype body) =
      some { message := framed code identifier type subtype body } := by
  have hlen := length_framed code identifier type subtype body
  have hcode' : (framed code identifier type subtype body).getD 0 0 = code := rfl
  have htype' : (framed code identifier type subtype body).getD 4 0 = type := rfl
  rw [createFromPayload, getU16_framed h, hlen, hcode', htype', hdrLen, if_neg (by omega),
    if_neg (by tauto), if_neg (by tauto)]

end Receive

section Parsed

variable {code identifier type subtype : U8} {included : Bool} {hdr encr mac : Chunk} {t : SimakaMessage}
  {frame : Chunk → Chunk}

/-- What precedes the MAC of a message with a header. -/
def front (hdr : Chunk) (attrs : List (U8 × Chunk)) (encr : Chunk) : Chunk :=
  hdr ++ (outer attrs).flatMap encodeAttribute ++ encr

/-- What the receiver knows of the MAC. -/
inductive KnowsMac (signer : Signer) (included : Bool) (sigdata : Chunk) (frame : Chunk → Chunk)
    (front mac : Chunk) (t : SimakaMessage) : Prop
  | empty (hincluded : included = false) (hmac : t.mac = none)
  | mac {body : Chunk} (hincluded : included = true) (hlen : body.length = 16)
      (hbody : mac = reservedAttr atMac body) (hmac : t.mac = some (reservedPlace front.length body))
      (hsign : signer.sign (frame (reservedAttr atMac (List.replicate 16 0)) ++ sigdata) = some body)

/-- What the receiver gets. -/
structure Parsed (signer : Signer) (attrs : List (U8 × Chunk)) (included : Bool) (sigdata : Chunk)
    (frame : Chunk → Chunk) (front mac : Chunk) (t : SimakaMessage) : Prop where
  attributes : t.attributes = outer attrs ++ inner attrs
  pBit : t.pBit = ((outer attrs).all keepsPBit && (inner attrs).all keepsPBit)
  message : t.message = front ++ mac
  mac : KnowsMac signer included sigdata frame front mac t

/-- **The run over the message.** -/
theorem exists_run (hlegal : ∀ attr ∈ attrs, Legal attr) (hpart : EncryptedPart crypter attrs encr)
    (hmac : MacPart signer included sigdata frame mac)
    (hsize : (front hdr attrs encr ++ mac).length ≤ 1024) (hhdr : hdr.length = 8) :
    ∃ fuel parsed, parseAttributes (front hdr attrs encr ++ mac) fuel
        { message := front hdr attrs encr ++ mac } hdr.length = some (true, parsed) ∧
      parsed.attributes = outer attrs ∧ parsed.pBit = (outer attrs).all keepsPBit ∧
      parsed.message = front hdr attrs encr ++ mac ∧ parsed.encrypted = false ∧
      Knows crypter attrs parsed.message parsed ∧
      KnowsMac signer included sigdata frame (front hdr attrs encr) mac parsed := by
  have hlen : (front hdr attrs encr ++ mac).length =
      8 + ((outer attrs).flatMap encodeAttribute).length + encr.length + mac.length := by
    simp only [front, List.length_append, hhdr]
  -- the buffer, as the lemmas on the parts see it
  have hparts : front hdr attrs encr ++ mac =
      hdr ++ ((outer attrs).flatMap encodeAttribute ++ (encr ++ mac)) := by
    simp only [front, List.append_assoc]
  have hrest : front hdr attrs encr ++ mac =
      (hdr ++ (outer attrs).flatMap encodeAttribute) ++ (encr ++ mac) := by
    simp only [front, List.append_assoc]
  obtain ⟨plain, hplain, hadds⟩ := visits_encoded (t := { message := front hdr attrs encr ++ mac })
    hdr (encr ++ mac) (fun attr hattr => sendable_of (legal_outer hlegal attr hattr)
      (by have := length_le_flatMap (legal_outer hlegal attr hattr) hattr; omega)
      (.inr (by simpa using (List.mem_filter.mp hattr).2))) (.inr rfl)
  obtain ⟨iv, cipher, hencr, hknows⟩ := visits_encryptedPart (t := plain) hpart hlegal (by omega)
    (hdr ++ (outer attrs).flatMap encodeAttribute) mac hadds.encrypted hadds.iv
  obtain ⟨place, hvisits, hplace⟩ := visits_macPart (t := { plain with iv := iv, encr := cipher }) hmac
    (front hdr attrs encr) hadds.encrypted hadds.mac
  rw [← hparts, ← List.length_append] at hplain
  rw [← hrest] at hencr hknows
  obtain ⟨fuel, hfuel⟩ := ((hplain.trans hencr).trans hvisits).accepted
  refine ⟨fuel, _, hfuel, hadds.attributes, ?_, hadds.message, hadds.encrypted, ?_, ?_⟩
  · rw [hadds.pBit, Bool.true_and]
  · dsimp only
    rw [hadds.message]
    exact hknows _ rfl rfl
  · rcases hplace with ⟨hincluded, rfl⟩ | ⟨hincluded, body, hbody, hlen, rfl, hsign⟩
    · exact .empty hincluded rfl
    · exact .mac hincluded hlen hbody rfl hsign

/-- **The receiver gets the attributes, unencrypted ones first.** -/
theorem exists_parsed (hkeys : Keys crypto crypter signer) (hlegal : ∀ attr ∈ attrs, Legal attr)
    (hfits : (encodePlain (inner attrs) 16).length ≤ 512) (hpart : EncryptedPart crypter attrs encr)
    (hmac : MacPart signer included sigdata frame mac)
    (hsize : (front hdr attrs encr ++ mac).length ≤ 1024) (hhdr : hdr.length = 8)
    (hdata : SimakaMessage.data { message := front hdr attrs encr ++ mac } =
      front hdr attrs encr ++ mac) :
    ∃ fuel parsed, ({ message := front hdr attrs encr ++ mac } : SimakaMessage).parse crypto fuel =
        some (true, parsed) ∧
      Parsed signer attrs included sigdata frame (front hdr attrs encr) mac parsed := by
  obtain ⟨fuel, plain, hrun, hattributes, hpbit, hmessage, henc, hknows, hknowsMac⟩ :=
    exists_run hlegal hpart hmac hsize hhdr
  obtain ⟨more, parsed, hdecrypt, hadds⟩ := exists_decrypt hkeys hlegal hfits henc hknows
  refine ⟨max fuel more, parsed, ?_, ?_⟩
  · rw [parse, if_neg (by simp), hdata, show hdrLen = hdr.length from hhdr.symm,
      parseAttributes_mono (le_max_left fuel more) hrun]
    exact decrypt_mono (le_max_right fuel more) hdecrypt
  · refine ⟨by rw [hadds.attributes, hattributes], by rw [hadds.pBit, hpbit],
      hadds.message.trans hmessage, ?_⟩
    cases hknowsMac with
    | empty hincluded hnone => exact .empty hincluded (hadds.mac.trans hnone)
    | mac hincluded hlen hbody hplace hsign =>
      exact .mac hincluded hlen hbody (hadds.mac.trans hplace) hsign

end Parsed

/-! ## Verifying -/

section Verify

variable {encr mac : Chunk} {t : SimakaMessage} {s : Subtype}

theorem needsMac_eq (h : t.subtype = s.number) :
    t.needsMac = some (if s = .simNotification then !t.pBit else t.includesMac) := by
  cases s
  all_goals
    rw [needsMac, includesMac, h]
    rfl

theorem not_includesMac (h : t.subtype = Subtype.simNotification.number) : t.includesMac = false := by
  rw [includesMac, h]
  rfl

theorem zeroMac_eq {front body : Chunk} (hdata : t.data = front ++ reservedAttr atMac body)
    (hlen : body.length = 16) :
    t.zeroMac (reservedPlace front.length body) = front ++ reservedAttr atMac (List.replicate 16 0) := by
  have hattr : ∀ m : Chunk, m.length = 16 →
      front ++ reservedAttr atMac m = (front ++ (attrHdr atMac 5 ++ [0, 0])) ++ m := by
    intro m hm
    rw [reservedAttr, hm]
    simp only [List.append_assoc]
  have hfour : (front ++ (attrHdr atMac 5 ++ [0, 0])).length = front.length + 4 := by
    rw [List.length_append]
    rfl
  rw [zeroMac, hdata, hattr body hlen, hattr _ List.length_replicate, reservedPlace]
  dsimp only
  rw [hlen, List.take_left' hfour, List.drop_eq_nil_of_le (by rw [List.length_append, hfour, hlen]),
    List.append_nil]

/-- **The receiver verifies the message unless it is a notification without P bit.** -/
theorem verify_iff {frame : Chunk → Chunk} {front : Chunk} (hkeys : Keys crypto crypter signer)
    (hsubtype : t.subtype = s.number) (hdata : t.data = t.message)
    (hframe : ∀ mac', mac'.length = mac.length → frame mac' = front ++ mac')
    (h : Parsed signer attrs t.includesMac sigdata frame front mac t) :
    t.verify crypto sigdata = true ↔ (s = .simNotification → t.pBit = true) := by
  rw [verify, needsMac_eq hsubtype]
  by_cases hs : s = .simNotification
  · subst hs
    rw [if_pos rfl]
    have hnone : t.mac = none := by
      cases h.mac with
      | empty _ hnone => exact hnone
      | mac hincluded =>
        rw [not_includesMac hsubtype] at hincluded
        cases hincluded
    cases hpbit : t.pBit with
    | true => simp
    | false => simp [hnone]
  · rw [if_neg hs]
    cases h.mac with
    | empty hincluded => simp [hincluded, hs]
    | @mac body hincluded hlen hbody hplace hsign =>
      have hmessage := h.message
      rw [hbody] at hmessage
      have hsigned := zeroMac_eq (hdata.trans hmessage) hlen
      have hbytes := bytesAt_reserved front [] atMac body
      rw [List.append_nil, ← hmessage] at hbytes
      rw [hframe _ (by rw [hbody, length_reservedAttr, length_reservedAttr, List.length_replicate, hlen])]
        at hsign
      rw [hincluded, hplace, hkeys.hasSigner]
      dsimp only
      rw [hsigned, hbytes, Signer.verify, hsign]
      simp [hs]

end Verify

/-! ## The round trip -/

/-- The receiver accepts a message, gets its attributes, and verifies it. -/
def RoundTrips (this : SimakaMessage) (crypto : SimakaCrypto) (sigdata data : Chunk) : Prop :=
  ∃ received fuel parsed, createFromPayload data = some received ∧
    received.parse crypto fuel = some (true, parsed) ∧
      parsed.attributes = outer this.attributes ++ inner this.attributes ∧
        parsed.verify crypto sigdata = true

section RoundTrip

variable {request : Bool} {identifier type : U8} {s : Subtype}

theorem create_some (h : create request identifier type s = some this) :
    this = { message := [if request then 1 else 2, identifier, 0, 8, type, s.number, 0, 0] } ∧
      (type = 18 ∨ type = 23) := by
  rw [create] at h
  refine ⟨createFromPayload_some h, ?_⟩
  rw [createFromPayload] at h
  by_contra hne
  rw [not_or] at hne
  have htype : ([if request then 1 else 2, identifier, 0, 8, type, s.number, 0, 0] : Chunk).getD 4 0 =
    type := rfl
  rw [htype, if_pos hne] at h
  split_ifs at h

theorem all_keepsPBit_iff (attrs : List (U8 × Chunk)) :
    ((outer attrs).all keepsPBit && (inner attrs).all keepsPBit) = true ↔
      ∀ attr ∈ attrs, attr.1 = atNotification → hasPBit attr.2 = true := by
  simp only [Bool.and_eq_true, List.all_eq_true, outer, inner, List.mem_filter, keepsPBit,
    Bool.or_eq_true, bne_iff_ne, Bool.not_eq_true']
  constructor
  · rintro ⟨houter, hinner⟩ attr hattr htype
    cases hencrypted : isEncrypted attr with
    | true => exact (hinner attr ⟨hattr, hencrypted⟩).resolve_left (not_not_intro htype)
    | false => exact (houter attr ⟨hattr, hencrypted⟩).resolve_left (not_not_intro htype)
  · intro h
    have hall : ∀ attr ∈ attrs, attr.1 ≠ atNotification ∨ hasPBit attr.2 = true := by
      intro attr hattr
      by_cases htype : attr.1 = atNotification
      · exact .inr (h attr hattr htype)
      · exact .inl htype
    exact ⟨fun attr hattr => hall attr hattr.1, fun attr hattr => hall attr hattr.1⟩

/-- **Messages survive the wire if and only if they are no notifications without P bit.** -/
theorem roundTrips_iff_pBit {m : SimakaMessage} (hcreate : create request identifier type s = some m)
    (hlegal : ∀ attr ∈ attrs, Legal attr) (hkeys : Keys crypto crypter signer)
    (hgenerate : (m.compose attrs).generate crypto sigdata = some data) (hsize : data.length ≤ 1024)
    (hfits : (encodePlain (inner attrs) 16).length ≤ 512) :
    RoundTrips (m.compose attrs) crypto sigdata data ↔
      (s = .simNotification → ∀ attr ∈ attrs, attr.1 = atNotification → hasPBit attr.2 = true) := by
  obtain ⟨rfl, htype⟩ := create_some hcreate
  rw [compose_eq, List.nil_append] at hgenerate ⊢
  obtain ⟨encr, mac, hpart, hmac, hdata⟩ := generate_layout rfl hlegal hkeys hgenerate
  dsimp only at hpart hmac hdata
  have hcode : (if request then 1 else 2 : U8) = 1 ∨ (if request then 1 else 2 : U8) = 2 := by
    cases request <;> simp
  generalize (if request then 1 else 2 : U8) = code at hmac hdata hcode
  -- the header of the message with its length
  obtain ⟨hdr, hhdr, hframe⟩ : ∃ hdr : Chunk, hdr.length = 8 ∧ ∀ mac', mac'.length = mac.length →
      framed code identifier type s.number ((outer attrs).flatMap encodeAttribute ++ encr ++ mac') =
        front hdr attrs encr ++ mac' := by
    refine ⟨[code, identifier] ++ putU16 (8 + ((outer attrs).flatMap encodeAttribute ++ encr ++
      mac).length) ++ [type, s.number, 0, 0], rfl, fun mac' hlen => ?_⟩
    rw [framed, front, List.length_append, hlen, ← List.length_append]
    simp only [List.append_assoc]
  have hfront := hframe mac rfl
  have hmessage : data = front hdr attrs encr ++ mac := hdata.trans hfront
  have hlen := length_framed code identifier type s.number
    ((outer attrs).flatMap encodeAttribute ++ encr ++ mac)
  have hlt : 8 + ((outer attrs).flatMap encodeAttribute ++ encr ++ mac).length < 65536 := by
    rw [← hlen, ← hdata]
    omega
  have hreceived : createFromPayload data = some { message := data } := by
    rw [hdata]
    exact createFromPayload_framed hlt hcode htype
  rw [hmessage] at hreceived
  rw [hmessage] at hsize
  obtain ⟨fuel, parsed, hparse, hparsed⟩ := exists_parsed hkeys hlegal hfits hpart hmac hsize hhdr
    (data_framed hlt hfront.symm)
  have hframed := hparsed.message.trans hfront.symm
  have hsubtype : parsed.subtype = s.number := by
    rw [subtype, hframed]
    rfl
  have hsame : SimakaMessage.includesMac { message := [code, identifier, 0, 8, type, s.number, 0, 0] } =
      parsed.includesMac := by
    rw [includesMac, includesMac, hsubtype]
    rfl
  have hparsed' : Parsed signer attrs parsed.includesMac sigdata
      (fun mac => framed code identifier type s.number
        ((outer attrs).flatMap encodeAttribute ++ encr ++ mac)) (front hdr attrs encr) mac parsed := by
    rw [← hsame]
    exact hparsed
  have hverify : parsed.verify crypto sigdata = true ↔ (s = .simNotification → parsed.pBit = true) :=
    verify_iff hkeys hsubtype (data_framed hlt hframed) hframe hparsed'
  rw [hparsed.pBit, all_keepsPBit_iff] at hverify
  rw [← hverify]
  constructor
  · rintro ⟨received', fuel', parsed', hreceived', hparse', -, hverified⟩
    rw [hmessage, hreceived] at hreceived'
    cases hreceived'
    have hboth := parse_mono (le_max_left fuel fuel') hparse
    rw [parse_mono (le_max_right fuel fuel') hparse'] at hboth
    cases hboth
    exact hverified
  · intro hverified
    exact ⟨_, fuel, parsed, hmessage ▸ hreceived, hparse, hparsed.attributes, hverified⟩

/-- Transforms of the sizes of the real ones: a cipher without a key, and a checksum. -/
def nullCrypter : Crypter := ⟨16, 16, fun plain _ => some plain, fun encr _ => some encr⟩

def sumSigner : Signer := ⟨16, fun data => some (List.replicate 16 (data.foldl (· + ·) 0))⟩

def nullCrypto : SimakaCrypto :=
  ⟨some nullCrypter, some sumSigner, fun n => some (List.replicate n 7)⟩

theorem keys_nullCrypto : Keys nullCrypto nullCrypter sumSigner where
  hasCrypter := rfl
  hasSigner := rfl
  lawful := ⟨by decide, by decide, by decide, fun {plain _} _ _ => ⟨plain, rfl, rfl, rfl⟩⟩
  signs := ⟨by decide, fun _ => ⟨_, rfl, List.length_replicate⟩⟩
  blockSize := rfl
  ivSize := rfl
  macSize := rfl
  getBytes := by
    rintro n _ ⟨⟩
    exact List.length_replicate

/-- A challenge with an attribute of each kind. -/
def challengeAttrs : List (U8 × Chunk) := [(atNextReauthId, [0x61, 0x62]), (atRand, List.replicate 16 5)]

theorem roundTrips_challenge :
    ∃ m data, create true 9 18 .simChallenge = some m ∧
      (m.compose challengeAttrs).generate nullCrypto [1] = some data ∧
        RoundTrips (m.compose challengeAttrs) nullCrypto [1] data := by
  obtain ⟨m, hcreate⟩ : ∃ m, create true 9 18 .simChallenge = some m :=
    ⟨_, createFromPayload_message (by decide)⟩
  have hm := (create_some hcreate).1
  have hsome : (((m.compose challengeAttrs).generate nullCrypto [1]).map fun data =>
      decide (data.length ≤ 1024)) = some true := by
    rw [hm]
    decide +kernel
  obtain ⟨data, hgenerate, hsize⟩ := Option.map_eq_some_iff.mp hsome
  have hlegal : ∀ attr ∈ challengeAttrs, Legal attr := by
    intro attr hattr
    rw [challengeAttrs, List.mem_cons, List.mem_singleton] at hattr
    rcases hattr with rfl | rfl
    · exact ⟨by decide, fun h => absurd h (by decide)⟩
    · exact ⟨by decide, Dvd.intro 4 rfl⟩
  exact ⟨m, data, hcreate, hgenerate, (roundTrips_iff_pBit hcreate hlegal keys_nullCrypto hgenerate
    (of_decide_eq_true hsize) (by decide +kernel)).2 (fun h => absurd h (by decide))⟩

/-- A notification without P bit has no MAC, and is not verified. -/
theorem not_roundTrips :
    ∃ m data, create true 9 18 .simNotification = some m ∧ Legal (atNotification, [0, 0]) ∧
      (m.compose [(atNotification, [0, 0])]).generate nullCrypto [1] = some data ∧
        data.length ≤ 1024 ∧ ¬ RoundTrips (m.compose [(atNotification, [0, 0])]) nullCrypto [1] data := by
  refine ⟨_, [1, 9, 0, 48, 18, 12, 0, 0, 129, 5, 0, 0, 7, 7, 7, 7, 7, 7, 7, 7, 7, 7, 7, 7, 7, 7, 7, 7,
    130, 5, 0, 0, 12, 1, 0, 0, 6, 3, 0, 0, 0, 0, 0, 0, 0, 0, 0, 0], createFromPayload_message (by decide),
    ⟨by decide, rfl⟩, by decide +kernel, by decide, ?_⟩
  rintro ⟨received, fuel, parsed, hreceived, hparse, -, hverify⟩
  obtain rfl := createFromPayload_some hreceived
  have hrun : (parse { message := [1, 9, 0, 48, 18, 12, 0, 0, 129, 5, 0, 0, 7, 7, 7, 7, 7, 7, 7, 7, 7, 7,
      7, 7, 7, 7, 7, 7, 130, 5, 0, 0, 12, 1, 0, 0, 6, 3, 0, 0, 0, 0, 0, 0, 0, 0, 0, 0] } nullCrypto 9).map
        (fun r => r.2.verify nullCrypto [1]) = some false := by decide +kernel
  obtain ⟨r, hr, hfalse⟩ := Option.map_eq_some_iff.mp hrun
  have hboth := parse_mono (le_max_left 9 fuel) hr
  rw [parse_mono (le_max_right 9 fuel) hparse] at hboth
  cases hboth
  rw [hverify] at hfalse
  cases hfalse

end RoundTrip

end SimakaMessage

end StrongSwan
