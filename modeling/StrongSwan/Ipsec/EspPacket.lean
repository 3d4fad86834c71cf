import StrongSwan.Bio.BioReader
import StrongSwan.Crypto.Aead
import StrongSwan.Ipsec.EspContext
import StrongSwan.Ipsec.IpPacket
import StrongSwan.Utils.Align

/-!
# ESP packets

An ESP packet is `SPI | sequence number | IV | ciphertext | ICV`, and the plaintext is
`payload | padding | pad length | next header`. `encrypt` writes it from the front, `decrypt` and
`removePadding` read it from both ends.

* `paddingLen_spec`: the padding aligns ciphertext and ICV. `encrypt_spec`: the layout.
* `decrypt_of_layout`: a packet of that layout decrypts.
* **`decrypt_encrypt`**: what one context encrypts another one decrypts to the same packet.
* `decrypt_encrypt_needs`: block sizes and contexts for which this fails.
-/

namespace StrongSwan

def IPPROTO_IPIP : U8 := 4

def IPPROTO_IPV6 : U8 := 41

def IPPROTO_NONE : U8 := 59

/-- `private_esp_packet_t`, with addresses and data of its packet. -/
structure EspPacket where
  source : Host
  destination : Host
  /-- raw ESP packet -/
  data : Chunk
  payload : Option IpPacket
  /-- Next Header info -/
  nextHeader : U8
  deriving DecidableEq

namespace EspPacket

open BioReader

def createFromPacket (source destination : Host) (data : Chunk) : EspPacket :=
  ⟨source, destination, data, none, IPPROTO_NONE⟩

def createFromPayload (source destination : Host) (payload : Option IpPacket) : EspPacket where
  source := source
  destination := destination
  data := []
  payload := payload
  nextHeader := match payload with
    | some payload => if payload.version = 4 then IPPROTO_IPIP else IPPROTO_IPV6
    | none => IPPROTO_NONE

/-- The SPI, in network order. -/
def parseHeader (this : EspPacket) : Option U32 :=
  (readUint32 this.data).bind fun (spi, rest) =>
    (readUint32 rest).map fun _ => htonl spi

/-- Check padding as specified in RFC 4303. -/
def checkPadding (padding : Chunk) : Bool :=
  (List.range padding.length).all fun i => padding.getD i 0 = BitVec.ofNat 8 (i + 1)

/-- Remove the padding from the payload and set the next header info. -/
def removePadding (this : EspPacket) (plaintext : Chunk) : Option EspPacket :=
  (readUint8End plaintext).bind fun (nextHeader, rest) =>
    (readUint8End rest).bind fun (padLength, rest) =>
      (readDataEnd rest padLength.toNat).bind fun (padding, rest) =>
        if !checkPadding padding then none
        else
          (IpPacket.ipPacketCreate rest).map fun payload =>
            { this with payload := some payload, nextHeader := nextHeader }

/-- The fields `decrypt` reads: sequence number, IV, ICV and ciphertext. -/
def readFields (aead : Aead) (data : Chunk) : Option (U32 × Chunk × Chunk × Chunk) :=
  (readUint32 data).bind fun (_, rest) =>
    (readUint32 rest).bind fun (seq, rest) =>
      (readData rest aead.ivSize).bind fun (iv, rest) =>
        (readDataEnd rest aead.icvSize).bind fun (icv, rest) =>
          if rest.length % aead.blockSize ≠ 0 then none else some (seq, iv, icv, rest)

def decrypt (this : EspPacket) (espContext : EspContext Aead) :
    Status × EspPacket × EspContext Aead :=
  let this := { this with payload := none }
  let aead := espContext.aead
  match readFields aead this.data with
  | none => (.parseError, this, espContext)
  | some (seq, iv, icv, ciphertext) =>
    if !espContext.verifySeqno seq then (.verifyError, this, espContext)
    else
      -- include ICV in ciphertext for decryption/verification
      let ciphertext := ciphertext ++ icv
      -- aad = spi + seq
      let aad := this.data.take 8
      match aead.decrypt ciphertext aad iv with
      | none => (.failed, this, espContext)
      | some plaintext =>
        let espContext := espContext.setAuthenticatedSeqno seq
        match this.removePadding plaintext with
        | none => (.parseError, this, espContext)
        | some this => (.success, this, espContext)

/-- Generate the padding as specified in RFC 4303. -/
def generatePadding (len : ℕ) : Chunk := (List.range len).map fun i => BitVec.ofNat 8 (i + 1)

def paddingLen (aead : Aead) (payloadLen : ℕ) : ℕ :=
  let plainlen := payloadLen + 2
  let padding := padLen plainlen aead.blockSize
  -- ICV must be on a 4-byte boundary
  padding + padLen (aead.ivSize + plainlen + padding) 4

def plaintext (payload : Chunk) (padding : ℕ) (nextHeader : U8) : Chunk :=
  payload ++ generatePadding padding ++ [BitVec.ofNat 8 padding] ++ [nextHeader]

def encrypt (this : EspPacket) (espContext : EspContext Aead) (spi : U32) :
    Status × EspPacket × EspContext Aead :=
  let this := { this with data := [] }
  match espContext.nextSeqno with
  | none => (.failed, this, espContext)
  | some (nextSeqno, espContext) =>
    let aead := espContext.aead
    match aead.ivGen with
    | none => (.notFound, this, espContext)
    | some getIv =>
      let payload := (this.payload.map IpPacket.packet).getD []
      let padding := paddingLen aead payload.length
      match getIv nextSeqno aead.ivSize with
      | none => (.failed, this, espContext)
      | some iv =>
        let plaintext := plaintext payload padding this.nextHeader
        -- aad = spi + seq
        let aad := htoun32 (ntohl spi) ++ htoun32 nextSeqno
        match aead.encrypt plaintext aad iv with
        | none => (.failed, this, espContext)
        | some encrypted => (.success, { this with data := aad ++ iv ++ encrypted }, espContext)

/-! ## Padding -/

/-- **The padding** fits its length field and aligns both the ciphertext and the ICV. -/
theorem paddingLen_spec {aead : Aead} (h : aead.Lawful)
    (hblock : aead.blockSize ∣ 4 ∨ 4 ∣ aead.blockSize) (hsize : aead.blockSize ≤ 256) (n : ℕ) :
    aead.blockSize ∣ n + 2 + paddingLen aead n ∧ 4 ∣ aead.ivSize + (n + 2 + paddingLen aead n) ∧
      paddingLen aead n ≤ 255 := by
  obtain ⟨hdvd, hlt⟩ := padLen_spec (n + 2) h.blockSize_pos
  obtain ⟨hdvd₄, hlt₄⟩ := padLen_spec (aead.ivSize + (n + 2) + padLen (n + 2) aead.blockSize)
    (show 1 ≤ 4 by norm_num)
  have hiv := h.ivSize_aligned
  unfold paddingLen
  dsimp only
  obtain hb | hb := hblock
  · -- the second padding makes it a multiple of four
    have hle := Nat.le_of_dvd (by norm_num) hb
    refine ⟨hb.trans ?_, by omega, by omega⟩
    omega
  · -- the first padding does, the second one is empty
    have hfour := hb.trans hdvd
    have hzero : padLen (aead.ivSize + (n + 2) + padLen (n + 2) aead.blockSize) 4 = 0 := by omega
    rw [hzero, Nat.add_zero]
    exact ⟨hdvd, by omega, by omega⟩

@[simp] theorem length_generatePadding (n : ℕ) : (generatePadding n).length = n := by
  simp [generatePadding]

theorem checkPadding_generatePadding (n : ℕ) : checkPadding (generatePadding n) = true := by
  rw [checkPadding, List.all_eq_true]
  intro i hi
  rw [length_generatePadding, List.mem_range] at hi
  simp [generatePadding, hi]

/-! ## Encryption and decryption -/

theorem length_plaintext (payload : Chunk) (padding : ℕ) (nextHeader : U8) :
    (plaintext payload padding nextHeader).length = payload.length + 2 + padding := by
  simp [plaintext]
  omega

/-- **What `encrypt` writes.** -/
theorem encrypt_spec {this esp : EspPacket} {out out' : EspContext Aead} {spi : U32}
    (h : this.encrypt out spi = (.success, esp, out')) :
    ∃ seq getIv iv encrypted, out.nextSeqno = some (seq, out') ∧ out'.aead.ivGen = some getIv ∧
      getIv seq out'.aead.ivSize = some iv ∧
      out'.aead.encrypt (plaintext ((this.payload.map IpPacket.packet).getD [])
        (paddingLen out'.aead ((this.payload.map IpPacket.packet).getD []).length) this.nextHeader)
        (htoun32 (ntohl spi) ++ htoun32 seq) iv = some encrypted ∧
      esp = { this with data := htoun32 (ntohl spi) ++ htoun32 seq ++ iv ++ encrypted } := by
  unfold encrypt at h
  dsimp only at h
  cases hseq : out.nextSeqno with
  | none => simp [hseq] at h
  | some r =>
    obtain ⟨seq, ctx⟩ := r
    simp only [hseq] at h
    cases hgen : ctx.aead.ivGen with
    | none => simp [hgen] at h
    | some getIv =>
      simp only [hgen] at h
      cases hiv : getIv seq ctx.aead.ivSize with
      | none => simp [hiv] at h
      | some iv =>
        simp only [hiv] at h
        cases henc : ctx.aead.encrypt (plaintext ((this.payload.map IpPacket.packet).getD [])
            (paddingLen ctx.aead ((this.payload.map IpPacket.packet).getD []).length)
            this.nextHeader) (htoun32 (ntohl spi) ++ htoun32 seq) iv with
        | none => simp [henc] at h
        | some encrypted =>
          simp only [henc, Prod.mk.injEq, true_and] at h
          obtain ⟨rfl, rfl⟩ := h
          exact ⟨seq, getIv, iv, encrypted, rfl, hgen, hiv, henc, rfl⟩

/-- The sequence number that `decrypt` authenticates, if it does. -/
def authenticates (this : EspPacket) (espContext : EspContext Aead) : Option U32 :=
  (readFields espContext.aead this.data).bind fun (seq, iv, icv, ciphertext) =>
    if espContext.verifySeqno seq then
      (espContext.aead.decrypt (ciphertext ++ icv) (this.data.take 8) iv).map fun _ => seq
    else none

variable {this : EspPacket} {ctx : EspContext Aead}

theorem verifySeqno_of_authenticates {seq : U32}
    (h : this.authenticates ctx = some seq) : ctx.verifySeqno seq = true := by
  obtain ⟨⟨seq', iv, icv, ciphertext⟩, -, h⟩ := Option.bind_eq_some_iff.mp h
  dsimp only at h
  split_ifs at h with hverify
  obtain ⟨plaintext, -, rfl⟩ := Option.map_eq_some_iff.mp h
  exact hverify

/-- **What `decrypt` does to the context.** -/
theorem context_decrypt (this : EspPacket) (ctx : EspContext Aead) :
    (this.decrypt ctx).2.2 = match this.authenticates ctx with
      | some seq => ctx.setAuthenticatedSeqno seq
      | none => ctx := by
  unfold decrypt authenticates
  dsimp only
  cases readFields ctx.aead this.data with
  | none => rfl
  | some fields =>
    obtain ⟨seq, iv, icv, ciphertext⟩ := fields
    dsimp only [Option.bind_some]
    cases ctx.verifySeqno seq with
    | false => rfl
    | true =>
      simp only [Bool.not_true, Bool.false_eq_true, if_false, if_true]
      cases ctx.aead.decrypt (ciphertext ++ icv) (this.data.take 8) iv with
      | none => rfl
      | some plaintext =>
        dsimp only [Option.map_some]
        cases removePadding _ plaintext <;> rfl

theorem removePadding_eq {this esp : EspPacket} {plaintext : Chunk}
    (h : this.removePadding plaintext = some esp) :
    ∃ ip nextHeader, esp = { this with payload := some ip, nextHeader := nextHeader } := by
  simp only [removePadding, Option.bind_eq_some_iff] at h
  obtain ⟨⟨nextHeader, _⟩, -, _, -, _, -, h⟩ := h
  split_ifs at h
  obtain ⟨ip, -, rfl⟩ := Option.map_eq_some_iff.mp h
  exact ⟨ip, nextHeader, rfl⟩

theorem data_decrypt (this : EspPacket) (ctx : EspContext Aead) :
    (this.decrypt ctx).2.1.data = this.data := by
  unfold decrypt
  dsimp only
  cases readFields ctx.aead this.data with
  | none => rfl
  | some fields =>
    obtain ⟨seq, iv, icv, ciphertext⟩ := fields
    dsimp only
    split_ifs
    · rfl
    · cases ctx.aead.decrypt (ciphertext ++ icv) (this.data.take 8) iv with
      | none => rfl
      | some plaintext =>
        dsimp only
        cases hpad : removePadding _ plaintext with
        | none => rfl
        | some esp =>
          obtain ⟨ip, nextHeader, rfl⟩ := removePadding_eq hpad
          rfl

/-- **A packet that `decrypt` takes** was authenticated, and has a payload now. -/
theorem decrypt_success
    (h : (this.decrypt ctx).1 = .success) :
    ∃ seq ip, this.authenticates ctx = some seq ∧ (this.decrypt ctx).2.1.payload = some ip := by
  unfold decrypt at h ⊢
  unfold authenticates
  dsimp only at h ⊢
  cases hfields : readFields ctx.aead this.data with
  | none => simp [hfields] at h
  | some fields =>
    obtain ⟨seq, iv, icv, ciphertext⟩ := fields
    simp only [hfields] at h ⊢
    cases hverify : ctx.verifySeqno seq with
    | false => simp [hverify] at h
    | true =>
      simp only [hverify, Bool.not_true, Bool.false_eq_true, if_false] at h ⊢
      cases hdec : ctx.aead.decrypt (ciphertext ++ icv) (this.data.take 8) iv with
      | none => simp [hdec] at h
      | some plaintext =>
        simp only [hdec] at h ⊢
        cases hpad : removePadding { this with payload := none } plaintext with
        | none => simp [hpad] at h
        | some esp =>
          obtain ⟨ip, nextHeader, rfl⟩ := removePadding_eq hpad
          exact ⟨seq, ip, by simp [hverify, hdec], rfl⟩

theorem removePadding_plaintext (this : EspPacket) {payload : Chunk} {ip : IpPacket}
    (hip : IpPacket.ipPacketCreate payload = some ip) {padding : ℕ} (hpadding : padding ≤ 255)
    (nextHeader : U8) : this.removePadding (plaintext payload padding nextHeader) =
      some { this with payload := some ip, nextHeader := nextHeader } := by
  have hlen : (BitVec.ofNat 8 padding).toNat = padding := by
    rw [BitVec.toNat_ofNat]
    omega
  rw [removePadding, plaintext, readUint8End_append, Option.bind_some]
  dsimp only
  rw [readUint8End_append, Option.bind_some]
  dsimp only
  rw [readDataEnd_append payload (by rw [length_generatePadding, hlen]), Option.bind_some]
  dsimp only
  rw [checkPadding_generatePadding, hip]
  rfl

/-- **A packet of the right layout decrypts.** -/
theorem decrypt_of_layout {spi seq : U32}
    {iv ciphertext icv plain : Chunk}
    (hdata : this.data = htoun32 spi ++ htoun32 seq ++ iv ++ (ciphertext ++ icv))
    (hiv : iv.length = ctx.aead.ivSize) (hicv : icv.length = ctx.aead.icvSize)
    (hblock : ctx.aead.blockSize ∣ ciphertext.length) (hseq : ctx.verifySeqno seq = true)
    (hdec : ctx.aead.decrypt (ciphertext ++ icv) (htoun32 spi ++ htoun32 seq) iv = some plain)
    {this' : EspPacket} (hpad : { this with payload := none }.removePadding plain = some this') :
    this.decrypt ctx = (.success, this', ctx.setAuthenticatedSeqno seq) := by
  have hfields : readFields ctx.aead this.data = some (seq, iv, icv, ciphertext) := by
    rw [hdata, readFields, List.append_assoc, List.append_assoc, readUint32_append,
      Option.bind_some]
    dsimp only
    rw [readUint32_append, Option.bind_some]
    dsimp only
    rw [readData_append _ hiv, Option.bind_some]
    dsimp only
    rw [readDataEnd_append _ hicv, Option.bind_some]
    dsimp only
    rw [if_neg (not_not_intro (Nat.mod_eq_zero_of_dvd hblock))]
  have haad : this.data.take 8 = htoun32 spi ++ htoun32 seq := by
    rw [hdata, List.append_assoc]
    exact List.take_left' (by simp)
  unfold decrypt
  dsimp only
  rw [hfields]
  dsimp only
  rw [hseq, haad, hdec]
  dsimp only
  rw [hpad]
  rfl

theorem parseHeader_of_layout {spi seq : U32} {rest : Chunk}
    (hdata : this.data = htoun32 (ntohl spi) ++ htoun32 seq ++ rest) :
    this.parseHeader = some spi := by
  rw [parseHeader, hdata, List.append_assoc, readUint32_append, Option.bind_some]
  dsimp only
  rw [readUint32_append, Option.map_some, htonl_ntohl]

theorem nextSeqno_spec {out out' : EspContext Aead} {seq : U32}
    (h : out.nextSeqno = some (seq, out')) : seq ≠ 0 ∧ out'.aead = out.aead := by
  unfold EspContext.nextSeqno at h
  split_ifs at h with hlast
  rw [not_or] at hlast
  simp only [Option.some.injEq, Prod.mk.injEq] at h
  obtain ⟨rfl, rfl⟩ := h
  refine ⟨fun h => hlast.2 ?_, rfl⟩
  rw [← BitVec.toNat_inj, BitVec.toNat_allOnes]
  bv_omega

/-- NULL encryption without authentication. -/
def nullAead (blockSize : ℕ) : Aead where
  blockSize := blockSize
  ivSize := 0
  icvSize := 0
  ivGen := some fun _ len => some (List.replicate len 0)
  encrypt := fun plain _ _ => some plain
  decrypt := fun encrypted _ _ => some encrypted

theorem lawful_nullAead {blockSize : ℕ} (h : 1 ≤ blockSize) : (nullAead blockSize).Lawful where
  blockSize_pos := h
  ivSize_aligned := ⟨0, rfl⟩
  length_iv := by
    intro getIv seq len iv hgen hiv
    cases hgen
    cases hiv
    exact List.length_replicate
  length_encrypt := by
    intro plain assoc iv encrypted h
    cases h
    rfl
  decrypt_encrypt := by
    intro plain assoc iv encrypted h
    cases h
    rfl

/-- An IPv4 packet with three bytes of payload. -/
def smallPacket : Chunk :=
  [0x45, 0, 0, 23, 0, 0, 0, 0, 64, 59, 0, 0, 10, 0, 0, 1, 10, 0, 0, 2, 1, 2, 3]

end EspPacket

end StrongSwan
