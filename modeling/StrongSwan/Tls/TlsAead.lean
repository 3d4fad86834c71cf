import StrongSwan.Crypto.Crypter
import StrongSwan.Utils.Align

/-!
# AEAD transforms of TLS

Records are signed first, then padded and encrypted. The IV of a record is the last block of the record
before it, or it is sent with the record.

* `sigheader`, `signRecord`, `verifyRecord`: what is signed and encrypted.
* `ImplicitAead`, `ExplicitAead`: the transforms of TLS 1.0, and of newer versions.
* **`verifyRecord_signRecord`**, `verifyRecord_eq_some`: what is accepted.
-/

namespace StrongSwan

namespace Tls

/-- `sigheader_t`: associated header data to create a signature over -/
def sigheader (version : U16) (type : U8) (seq : U64) (length : ℕ) : Chunk :=
  htoun64 seq ++ [type] ++ htoun16 version ++ htoun16 (BitVec.ofNat 16 length)

/-- What is signed for a record -/
def signed (version : U16) (type : U8) (seq : U64) (data : Chunk) : Chunk :=
  sigheader version type seq data.length ++ data

def signRecord (crypter : Crypter) (signer : Signer) (version : U16) (type : U8) (seq : U64)
    (data : Chunk) : Option Chunk :=
  (signer.sign (signed version type seq data)).map fun mac =>
    let bs := crypter.blockSize % 2 ^ 8
    let padlen : U8 := BitVec.ofNat 8 (padLen (data.length + mac.length + 1) bs)
    data ++ mac ++ List.replicate padlen.toNat padlen ++ [padlen]

/-- If padding looks valid, remove it. -/
def unpad (data : Chunk) : Option Chunk :=
  let padlen := data.getLastD 0
  if padlen.toNat < data.length then
    let padding := (data.drop (data.length - padlen.toNat - 1)).take padlen.toNat
    if padding.all (· = padlen) then some (data.take (data.length - (padlen.toNat + 1))) else none
  else some data

/-- The data and the MAC of a decrypted record -/
def splitRecord (signer : Signer) (data : Chunk) : Option (Chunk × Chunk) :=
  match unpad data with
  | none => none
  | some data =>
    let bs := signer.blockSize % 2 ^ 8
    if data.length < bs then none
    else some (data.take (data.length - bs), data.drop (data.length - bs))

/-- The data of a decrypted record, if the MAC is valid -/
def verifyRecord (signer : Signer) (version : U16) (type : U8) (seq : U64) (data : Chunk) :
    Option Chunk :=
  match splitRecord signer data with
  | none => none
  | some (data, mac) =>
    if signer.verify (signed version type seq data) mac then some data else none

/-- `private_tls_aead_t` for implicit IVs -/
structure ImplicitAead where
  crypter : Crypter
  signer : Signer
  /-- Next implicit IV -/
  iv : Chunk

namespace ImplicitAead

/-- `encrypt`, with the encrypted data if there is no error -/
def encrypt (this : ImplicitAead) (version : U16) (type : U8) (seq : U64) (data : Chunk) :
    ImplicitAead × Option Chunk :=
  match signRecord this.crypter this.signer version type seq data with
  | none => (this, none)
  | some data =>
    match this.crypter.encrypt data this.iv with
    | none => (this, none)
    | some data =>
      if data.length < this.iv.length then (this, none)
      else
        -- next record IV is last ciphertext block of this record
        ({ this with iv := data.drop (data.length - this.iv.length) }, some data)

/-- The part of `decrypt` before padding and MAC are removed -/
def decryptData (this : ImplicitAead) (data : Chunk) : ImplicitAead × Option Chunk :=
  let bs := this.crypter.blockSize % 2 ^ 8
  if data.length < bs ∨ data.length < this.iv.length ∨ data.length % bs ≠ 0 then (this, none)
  else
    ({ this with iv := data.drop (data.length - this.iv.length) },
      this.crypter.decrypt data this.iv)

/-- `decrypt`, with the data of the record if it is accepted -/
def decrypt (this : ImplicitAead) (version : U16) (type : U8) (seq : U64) (data : Chunk) :
    ImplicitAead × Option Chunk :=
  match this.decryptData data with
  | (this, none) => (this, none)
  | (this, some data) => (this, verifyRecord this.signer version type seq data)

end ImplicitAead

/-- `private_tls_aead_t` for explicit IVs -/
structure ExplicitAead where
  crypter : Crypter
  signer : Signer
  /-- IV generator -/
  ivGen : U64 → ℕ → Option Chunk

namespace ExplicitAead

def encrypt (this : ExplicitAead) (version : U16) (type : U8) (seq : U64) (data : Chunk) :
    Option Chunk :=
  match signRecord this.crypter this.signer version type seq data with
  | none => none
  | some data =>
    match this.ivGen seq this.crypter.ivSize with
    | none => none
    | some iv =>
      match this.crypter.encrypt data iv with
      | none => none
      -- prepend IV
      | some data => some (iv ++ data)

/-- The part of `decrypt` before padding and MAC are removed -/
def decryptData (this : ExplicitAead) (data : Chunk) : Option Chunk :=
  if data.length < this.crypter.ivSize then none
  else
    let iv := data.take this.crypter.ivSize
    let data := data.drop this.crypter.ivSize
    let bs := this.crypter.blockSize % 2 ^ 8
    if data.length < bs ∨ data.length % bs ≠ 0 then none else this.crypter.decrypt data iv

def decrypt (this : ExplicitAead) (version : U16) (type : U8) (seq : U64) (data : Chunk) :
    Option Chunk :=
  match this.decryptData data with
  | none => none
  | some data => verifyRecord this.signer version type seq data

end ExplicitAead

inductive TlsAead
  | implicit (aead : ImplicitAead)
  | explicit (aead : ExplicitAead)

namespace TlsAead

def encrypt (version : U16) (type : U8) (seq : U64) (data : Chunk) :
    TlsAead → TlsAead × Option Chunk
  | implicit aead =>
    let (aead, data) := aead.encrypt version type seq data
    (implicit aead, data)
  | explicit aead => (explicit aead, aead.encrypt version type seq data)

def decrypt (version : U16) (type : U8) (seq : U64) (data : Chunk) :
    TlsAead → TlsAead × Option Chunk
  | implicit aead =>
    let (aead, data) := aead.decrypt version type seq data
    (implicit aead, data)
  | explicit aead => (explicit aead, aead.decrypt version type seq data)

/-- What is decrypted, before padding and MAC are removed -/
def decryptData (data : Chunk) : TlsAead → Option Chunk
  | implicit aead => (aead.decryptData data).2
  | explicit aead => aead.decryptData data

def signer : TlsAead → Signer
  | implicit aead => aead.signer
  | explicit aead => aead.signer

end TlsAead

/-! ## What is signed -/

theorem length_sigheader (version : U16) (type : U8) (seq : U64) (length : ℕ) :
    (sigheader version type seq length).length = 13 := by
  simp [sigheader]

theorem signed_inj {version version' : U16} {type type' : U8} {seq seq' : U64} {data data' : Chunk}
    (h : signed version type seq data = signed version' type' seq' data') :
    version = version' ∧ type = type' ∧ seq = seq' ∧ data = data' := by
  unfold signed at h
  obtain ⟨hheader, hdata⟩ := List.append_inj h
    ((length_sigheader version type seq _).trans (length_sigheader version' type' seq' _).symm)
  obtain ⟨hversion, -⟩ := List.append_inj' hheader (by simp)
  obtain ⟨htype, hversion⟩ := List.append_inj' hversion (by simp)
  obtain ⟨hseq, htype⟩ := List.append_inj' htype rfl
  refine ⟨?_, List.singleton_injective htype, htoun64_inj hseq, hdata⟩
  rw [← untoh16_htoun16_append version [], hversion, untoh16_htoun16_append]

/-! ## Padding -/

theorem unpad_append (data : Chunk) (padlen : U8) :
    unpad (data ++ List.replicate padlen.toNat padlen ++ [padlen]) = some data := by
  have hlast : (data ++ List.replicate padlen.toNat padlen ++ [padlen]).getLastD 0 = padlen := by
    simp
  have hlength : (data ++ List.replicate padlen.toNat padlen ++ [padlen]).length =
      data.length + padlen.toNat + 1 := by
    simp [Nat.add_assoc]
  unfold unpad
  dsimp only
  rw [hlast, hlength, if_pos (by omega)]
  have hpadding : ((data ++ List.replicate padlen.toNat padlen ++ [padlen]).drop
      (data.length + padlen.toNat + 1 - padlen.toNat - 1)).take padlen.toNat =
      List.replicate padlen.toNat padlen := by
    rw [show data.length + padlen.toNat + 1 - padlen.toNat - 1 = data.length by omega,
      List.append_assoc, List.drop_left, List.take_left' (by simp)]
  rw [hpadding, if_pos (by simp),
    show data.length + padlen.toNat + 1 - (padlen.toNat + 1) = data.length by omega,
    List.append_assoc, List.take_left]

/-- **What is left without padding**: there is valid padding, or none is removed. -/
theorem unpad_eq_some {plain data : Chunk} (h : unpad plain = some data) :
    plain = data ∨
      ∃ padlen : U8, plain = data ++ List.replicate padlen.toNat padlen ++ [padlen] := by
  unfold unpad at h
  dsimp only at h
  split_ifs at h with hlt hall
  · right
    have hdata := Option.some.inj h
    refine ⟨plain.getLastD 0, ?_⟩
    set padlen := plain.getLastD 0 with hpadlen
    have hne : plain ≠ [] := by
      rintro rfl
      simp at hlt
    have hpadding : (plain.drop (plain.length - padlen.toNat - 1)).take padlen.toNat =
        List.replicate padlen.toNat padlen := by
      refine List.eq_replicate_iff.2 ⟨?_, fun b hb => of_decide_eq_true (List.all_eq_true.1 hall b hb)⟩
      rw [List.length_take, List.length_drop]
      omega
    have hlast : plain.drop (plain.length - 1) = [padlen] := by
      rw [List.drop_length_sub_one hne, hpadlen, List.getLastD_eq_getLast?,
        List.getLast?_eq_some_getLast hne, Option.getD_some]
    have hcut : plain.length - padlen.toNat - 1 = plain.length - (padlen.toNat + 1) := by omega
    have hdrop : (plain.drop (plain.length - (padlen.toNat + 1))).drop padlen.toNat = [padlen] := by
      rw [List.drop_drop, ← hlast]
      congr 1
      omega
    rw [hcut] at hpadding
    calc plain = plain.take (plain.length - (padlen.toNat + 1)) ++
          plain.drop (plain.length - (padlen.toNat + 1)) := (List.take_append_drop _ _).symm
      _ = data ++ ((plain.drop (plain.length - (padlen.toNat + 1))).take padlen.toNat ++
          (plain.drop (plain.length - (padlen.toNat + 1))).drop padlen.toNat) := by
        rw [hdata, List.take_append_drop]
      _ = data ++ List.replicate padlen.toNat padlen ++ [padlen] := by
        rw [hpadding, hdrop, List.append_assoc]
  · exact Or.inl (Option.some.inj h)

/-! ## Records -/

section

variable {crypter : Crypter} {signer : Signer} {version : U16} {type : U8} {seq : U64}
  {data plain mac : Chunk}

theorem signRecord_eq (hcrypter : crypter.Lawful) (hsigner : signer.Lawful) (version : U16)
    (type : U8) (seq : U64) (data : Chunk) :
    ∃ (mac : Chunk) (padlen : U8), signer.sign (signed version type seq data) = some mac ∧
      mac.length = signer.blockSize ∧
      signRecord crypter signer version type seq data =
        some (data ++ mac ++ List.replicate padlen.toNat padlen ++ [padlen]) ∧
      crypter.blockSize ∣ (data ++ mac ++ List.replicate padlen.toNat padlen ++ [padlen]).length := by
  obtain ⟨mac, hsign, hmac⟩ := hsigner.sign (signed version type seq data)
  have hle := hcrypter.blockSize_le
  obtain ⟨hdvd, hlt⟩ := padLen_spec (data.length + mac.length + 1) hcrypter.blockSize_pos
  have hbs : crypter.blockSize % 2 ^ 8 = crypter.blockSize := Nat.mod_eq_of_lt (by omega)
  refine ⟨mac, BitVec.ofNat 8 (padLen (data.length + mac.length + 1) crypter.blockSize), hsign, hmac,
    ?_, ?_⟩
  · rw [signRecord, hsign, Option.map_some, hbs]
  · have hpadlen : (BitVec.ofNat 8
        (padLen (data.length + mac.length + 1) crypter.blockSize)).toNat =
        padLen (data.length + mac.length + 1) crypter.blockSize := by
      rw [BitVec.toNat_ofNat]
      exact Nat.mod_eq_of_lt (by omega)
    rw [hpadlen]
    simp only [List.length_append, List.length_replicate, List.length_singleton]
    have hsum : data.length + mac.length + padLen (data.length + mac.length + 1) crypter.blockSize +
        1 = data.length + mac.length + 1 +
          padLen (data.length + mac.length + 1) crypter.blockSize := by omega
    rw [hsum]
    exact hdvd

theorem verifyRecord_of_unpad (hsigner : signer.Lawful) (hmac : mac.length = signer.blockSize)
    (hunpad : unpad plain = some (data ++ mac)) :
    verifyRecord signer version type seq plain =
      if signer.sign (signed version type seq data) = some mac then some data else none := by
  have hle := hsigner.blockSize_le
  have hbs : signer.blockSize % 2 ^ 8 = mac.length := by
    rw [hmac]
    exact Nat.mod_eq_of_lt (by omega)
  have hsplit : splitRecord signer plain = some (data, mac) := by
    unfold splitRecord
    simp only [hunpad, hbs, List.length_append]
    rw [if_neg (by omega), Nat.add_sub_cancel, List.take_left, List.drop_left]
  unfold verifyRecord
  simp only [hsplit, Signer.verify, decide_eq_true_eq]

/-- **A record that is signed** is accepted for the same header. -/
theorem verifyRecord_signRecord (hcrypter : crypter.Lawful) (hsigner : signer.Lawful)
    (h : signRecord crypter signer version type seq data = some plain) :
    verifyRecord signer version type seq plain = some data := by
  obtain ⟨mac, padlen, hsign, hmac, heq, -⟩ :=
    signRecord_eq hcrypter hsigner version type seq data
  rw [heq, Option.some.injEq] at h
  rw [verifyRecord_of_unpad hsigner hmac (h ▸ unpad_append (data ++ mac) padlen), if_pos hsign]

theorem verifyRecord_signRecord_other {version' : U16} {type' : U8} {seq' : U64} {data' : Chunk}
    (hcrypter : crypter.Lawful) (hsigner : signer.Lawful)
    (h : signRecord crypter signer version type seq data = some plain)
    (hverify : verifyRecord signer version' type' seq' plain = some data') :
    signer.sign (signed version' type' seq' data) = signer.sign (signed version type seq data) := by
  obtain ⟨mac, padlen, hsign, hmac, heq, -⟩ :=
    signRecord_eq hcrypter hsigner version type seq data
  rw [heq, Option.some.injEq] at h
  rw [verifyRecord_of_unpad hsigner hmac (h ▸ unpad_append (data ++ mac) padlen)] at hverify
  split_ifs at hverify with hsign'
  rw [hsign', hsign]

theorem splitRecord_eq_some (hsigner : signer.Lawful)
    (h : splitRecord signer plain = some (data, mac)) :
    mac.length = signer.blockSize ∧
      (plain = data ++ mac ∨
        ∃ padlen : U8, plain = data ++ mac ++ List.replicate padlen.toNat padlen ++ [padlen]) := by
  have hle := hsigner.blockSize_le
  have hbs : signer.blockSize % 2 ^ 8 = signer.blockSize := Nat.mod_eq_of_lt (by omega)
  unfold splitRecord at h
  cases hunpad : unpad plain with
  | none => simp [hunpad] at h
  | some rest =>
    simp only [hunpad, hbs] at h
    split_ifs at h with hlt
    obtain ⟨rfl, rfl⟩ := Prod.mk.inj (Option.some.inj h)
    refine ⟨?_, ?_⟩
    · rw [List.length_drop]
      omega
    · rw [List.take_append_drop]
      exact unpad_eq_some hunpad

/-- **What is accepted** has a MAC. -/
theorem verifyRecord_eq_some (h : verifyRecord signer version type seq plain = some data) :
    ∃ mac, splitRecord signer plain = some (data, mac) ∧
      signer.sign (signed version type seq data) = some mac := by
  unfold verifyRecord at h
  cases hsplit : splitRecord signer plain with
  | none => simp [hsplit] at h
  | some split =>
    simp only [hsplit] at h
    split_ifs at h with hverify
    obtain rfl := Option.some.inj h
    exact ⟨split.2, rfl, of_decide_eq_true hverify⟩

theorem signRecord_unique (hcrypter : crypter.Lawful) (hsigner : signer.Lawful) {plain' : Chunk}
    (h : signRecord crypter signer version type seq data = some plain)
    (hverify : verifyRecord signer version type seq plain' = some data)
    (hlength : plain'.length = plain.length) : plain' = plain := by
  obtain ⟨mac, padlen, hsign, hmac, heq, -⟩ :=
    signRecord_eq hcrypter hsigner version type seq data
  obtain ⟨mac', hsplit, hsign'⟩ := verifyRecord_eq_some hverify
  obtain ⟨hmac', hplain⟩ := splitRecord_eq_some hsigner hsplit
  obtain rfl : mac = mac' := Option.some.inj (hsign.symm.trans hsign')
  rw [heq, Option.some.injEq] at h
  subst h
  rcases hplain with rfl | ⟨padlen', rfl⟩
  · simp only [List.length_append, List.length_replicate, List.length_singleton] at hlength
    omega
  · simp only [List.length_append, List.length_replicate, List.length_singleton] at hlength
    rw [BitVec.eq_of_toNat_eq (show padlen'.toNat = padlen.toNat by omega)]

end

end Tls

end StrongSwan
