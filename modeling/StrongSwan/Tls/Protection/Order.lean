import StrongSwan.Tls.Protection.Sync

/-!
# Records that are lost, repeated, moved or cut

The peer gets records in any order. As long as no MAC is verified but for what was signed, it is passed the
first of the records that were built, and a record that is not the next one raises an alert.

* `verifications`, `Unforged`, `signedAll`: what is verified, and what was signed.
* **`delivered_of_unforged`**: what is passed on is a part of what was built, from its start.
* `raises_implicit`, `raises_explicit`, `raises_version`: a record that is not the next one.
* **`inSync`**: the two sides.
-/

namespace StrongSwan

namespace Tls

variable {s s' r r' : TlsProtection} {a a' b b' : TlsAead} {records : List (U8 × Chunk)}
  {type : U8} {data : Chunk}

/-- What is passed to `verify_signature` for a record -/
def TlsProtection.verification (this : TlsProtection) (type : U8) (data : Chunk) :
    Option (Chunk × Chunk) :=
  if this.alert.fatal then none
  else
    this.aeadIn.bind fun aead => (aead.decryptData data).bind fun plain =>
      (splitRecord aead.signer plain).map fun (data, mac) =>
        (signed this.version type this.seqIn data, mac)

/-- What is passed to `verify_signature` for records that arrive -/
def TlsProtection.verifications (this : TlsProtection) : List (U8 × Chunk) → List (Chunk × Chunk)
  | [] => []
  | (type, data) :: records =>
    (this.verification type data).toList ++ (this.process type data).1.verifications records

/-- **A MAC is not forged**: what is verified was signed. -/
def Unforged (signer : Signer) (texts : Set Chunk) (r : TlsProtection)
    (arrived : List (U8 × Chunk)) : Prop :=
  ∀ verified ∈ r.verifications arrived, signer.verify verified.1 verified.2 = true →
    verified.1 ∈ texts

def signedAll (version : U16) (seq : U64) (records : List (U8 × Chunk)) : Set Chunk :=
  {text | ∃ i record, records[i]? = some record ∧
    text = signed version record.1 (seq + BitVec.ofNat 64 i) record.2}

/-- What could be signed for the data of records, with any header -/
def headed (records : List (U8 × Chunk)) : Set Chunk :=
  {text | ∃ record ∈ records, ∃ version type seq, text = signed version type seq record.2}

theorem Unforged.tail {signer : Signer} {texts : Set Chunk} {arrived : List (U8 × Chunk)}
    (h : Unforged signer texts r ((type, data) :: arrived)) :
    Unforged signer texts (r.process type data).1 arrived := by
  intro verified hverified
  exact h verified (List.mem_append_right _ hverified)

theorem Unforged.drop {signer : Signer} {texts : Set Chunk} {arrived arrived' : List (U8 × Chunk)}
    (h : Unforged signer texts r (arrived ++ arrived')) :
    Unforged signer texts (r.processAll arrived).1 arrived' := by
  induction arrived generalizing r with
  | nil => exact h
  | cons record arrived ih => exact ih h.tail

/-! ## What is passed on -/

theorem process_verified {passed : U8 × Chunk} (hin : r.aeadIn = some b)
    (hprocess : (r.process type data).2 = some passed) :
    ∃ mac, r.verification type data =
        some (signed r.version type r.seqIn passed.2, mac) ∧
      b.signer.verify (signed r.version type r.seqIn passed.2) mac = true ∧
      passed.1 = type := by
  unfold TlsProtection.process at hprocess
  split_ifs at hprocess with hfatal
  simp only [hin] at hprocess
  have hdecrypt := b.decrypt_snd r.version type r.seqIn data
  rcases hresult : b.decrypt r.version type r.seqIn data with ⟨next, _ | plain⟩
  · simp [hresult] at hprocess
  · simp only [hresult, Option.some.injEq] at hprocess
    rw [hresult] at hdecrypt
    subst hprocess
    obtain ⟨padded, hpadded, hverify⟩ := Option.bind_eq_some_iff.1 hdecrypt.symm
    obtain ⟨mac, hsplit, hsign⟩ := verifyRecord_eq_some hverify
    refine ⟨mac, ?_, decide_eq_true hsign, rfl⟩
    unfold TlsProtection.verification
    rw [if_neg hfatal, hin]
    simp only [Option.bind_some, hpadded, hsplit, Option.map_some]

theorem Unforged.passed {signer : Signer} {texts : Set Chunk} {arrived : List (U8 × Chunk)}
    {passed : U8 × Chunk} (h : Unforged signer texts r ((type, data) :: arrived))
    (hin : r.aeadIn = some b) (hsigner : b.signer = signer)
    (hprocess : (r.process type data).2 = some passed) :
    signed r.version type r.seqIn passed.2 ∈ texts ∧ passed.1 = type := by
  obtain ⟨mac, hverification, hverify, htype⟩ := process_verified hin hprocess
  refine ⟨h (_, mac) (List.mem_append_left _ ?_) (hsigner ▸ hverify), htype⟩
  rw [hverification]
  exact List.mem_cons_self

theorem process_cases (hfatal : r.alert.fatal = false) (hin : r.aeadIn = some b) (type : U8)
    (data : Chunk) :
    (∃ b' data', r.process type data =
        ({ r with aeadIn := some b' }.advanceIn type, some (type, data')) ∧
      b'.signer = b.signer) ∨
    ∃ b', r.process type data =
      ({ r with aeadIn := some b', alert := r.alert.add tlsFatal tlsBadRecordMac }, none) := by
  have hsigner := b.decrypt_signer r.version type r.seqIn data
  unfold TlsProtection.process
  rw [if_neg (by simp [hfatal])]
  simp only [hin]
  rcases hresult : b.decrypt r.version type r.seqIn data with ⟨next, _ | plain⟩
  · exact Or.inr ⟨next, rfl⟩
  · rw [hresult] at hsigner
    exact Or.inl ⟨next, plain, rfl, hsigner⟩

theorem processAll_fatal (hfatal : r.alert.fatal = true) (arrived : List (U8 × Chunk)) :
    r.processAll arrived = (r, []) := by
  induction arrived with
  | nil => rfl
  | cons record arrived ih =>
    obtain ⟨type, data⟩ := record
    have hprocess : r.process type data = (r, none) := if_pos hfatal
    simp only [TlsProtection.processAll, hprocess, ih, Option.toList_none, List.nil_append]

theorem fatal_badRecordMac (alert : TlsAlert) :
    (alert.add tlsFatal tlsBadRecordMac).fatal = true := by
  unfold TlsAlert.add
  rw [if_pos rfl]
  cases hfatal : alert.fatal with
  | false => rfl
  | true => simpa using hfatal

/-- **A record that raises an alert** is the last one that is looked at. -/
theorem processAll_rejected (hprocess : r.process type data = (r', none))
    (halert : r'.alert = r.alert.add tlsFatal tlsBadRecordMac) (arrived : List (U8 × Chunk)) :
    r.processAll ((type, data) :: arrived) = (r', []) := by
  have hfatal : r'.alert.fatal = true := by
    rw [halert]
    exact fatal_badRecordMac r.alert
  rw [TlsProtection.processAll]
  simp only [hprocess, processAll_fatal hfatal, Option.toList_none, List.nil_append]

theorem ofNat_inj {seq : U64} {i j : ℕ} (hi : i < 2 ^ 64) (hj : j < 2 ^ 64)
    (h : seq + BitVec.ofNat 64 i = seq + BitVec.ofNat 64 j) : i = j := by
  have heq := congrArg BitVec.toNat ((BitVec.add_right_inj seq).1 h)
  rw [BitVec.toNat_ofNat, BitVec.toNat_ofNat, Nat.mod_eq_of_lt hi, Nat.mod_eq_of_lt hj] at heq
  exact heq

theorem getElem?_of_signed {version : U16} {seq : U64} {i : ℕ} (hrecords : records.length < 2 ^ 64)
    (hi : i ≤ records.length)
    (h : signed version type (seq + BitVec.ofNat 64 i) data ∈ signedAll version seq records) :
    records[i]? = some (type, data) := by
  obtain ⟨j, record, hrecord, heq⟩ := h
  obtain ⟨-, htype, hseq, hdata⟩ := signed_inj heq
  have hj := (List.getElem?_eq_some_iff.1 hrecord).1
  rw [ofNat_inj (by omega) (by omega) hseq, hrecord, htype, hdata]

/-- **What is passed on** is a part of what was built, and a record that is not passed on raises an
alert. -/
theorem delivered_of_unforged {version : U16} {seq : U64} {k : ℕ}
    {arrived : List (U8 × Chunk)} (hrecords : records.length < 2 ^ 64)
    (htypes : ∀ record ∈ records, record.1 ≠ changeCipherSpec) (hk : k ≤ records.length)
    (hfatal : r.alert.fatal = false) (hversion : r.version = version)
    (hseq : r.seqIn = seq + BitVec.ofNat 64 k) (hin : r.aeadIn = some b)
    (hunforged : Unforged b.signer (signedAll version seq records) r arrived) :
    ∃ n ≤ arrived.length, (r.processAll arrived).2 = (records.drop k).take n ∧
      (n < arrived.length →
        (r.processAll arrived).1.alert = r.alert.add tlsFatal tlsBadRecordMac) := by
  induction arrived generalizing r k b with
  | nil => exact ⟨0, le_refl 0, rfl, by simp⟩
  | cons record arrived ih =>
    obtain ⟨type, data⟩ := record
    rcases process_cases hfatal hin type data with ⟨b', data', hprocess, hsigner⟩ | ⟨b', hprocess⟩
    · obtain ⟨hsigned, -⟩ := hunforged.passed hin rfl (congrArg Prod.snd hprocess)
      rw [hversion, hseq] at hsigned
      have hrecord := getElem?_of_signed hrecords hk hsigned
      obtain ⟨hlt, hget⟩ := List.getElem?_eq_some_iff.1 hrecord
      have htype : type ≠ changeCipherSpec := htypes (type, data') (hget ▸ List.getElem_mem hlt)
      rw [TlsProtection.advanceIn, if_neg htype] at hprocess
      have htail := hunforged.tail
      rw [hprocess, ← hsigner] at htail
      have hseq' : r.seqIn + 1 = seq + BitVec.ofNat 64 (k + 1) := by
        rw [hseq, BitVec.add_assoc, BitVec.ofNat_add]
        rfl
      obtain ⟨n, hn, hdelivered, halert⟩ :=
        ih (r := { r with aeadIn := some b', seqIn := r.seqIn + 1 }) hlt hfatal hversion hseq' rfl
          htail
      refine ⟨n + 1, Nat.succ_le_succ hn, ?_, fun hlt => ?_⟩
      · rw [TlsProtection.processAll]
        simp only [hprocess, hdelivered, Option.toList_some, List.singleton_append]
        rw [List.drop_eq_getElem_cons hlt, hget, List.take_succ_cons]
      · rw [TlsProtection.processAll]
        simp only [hprocess]
        exact halert (Nat.lt_of_succ_lt_succ hlt)
    · rw [processAll_rejected hprocess rfl]
      exact ⟨0, Nat.zero_le _, rfl, fun _ => rfl⟩

/-! ## A record that is not the next one -/

theorem Synced.build_eq (h : Synced s r a b) (htype : type ≠ changeCipherSpec) {wire : Chunk}
    (hbuild : s.build type data = (s', .needMore, wire)) :
    ∃ a', a.encrypt s.version type s.seqOut data = (a', some wire) := by
  unfold TlsProtection.build at hbuild
  rw [if_neg htype] at hbuild
  simp only [h.aeadOut] at hbuild
  rcases hencrypt : a.encrypt s.version type s.seqOut data with ⟨a', _ | encrypted⟩
  · simp [hencrypt] at hbuild
  · simp only [hencrypt, Prod.mk.injEq, true_and] at hbuild
    exact ⟨a', by rw [hbuild.2]⟩

theorem Synced.process_implicit (h : Synced s r a b) (himplicit : b.isExplicit = false)
    (htype : type ≠ changeCipherSpec) {wire wire' : Chunk}
    (hbuild : s.build type data = (s', .needMore, wire)) (hlength : wire'.length = wire.length)
    (hprocess : (r.process type wire').2 = some (type, data)) : wire' = wire := by
  obtain ⟨a', hencrypt⟩ := h.build_eq htype hbuild
  refine h.paired.encrypt_unique himplicit hencrypt ?_ hlength
  unfold TlsProtection.process at hprocess
  rw [if_neg (by simp [h.fatal])] at hprocess
  simp only [h.aeadIn, ← h.version, ← h.seq] at hprocess
  rcases hresult : b.decrypt s.version type s.seqOut wire' with ⟨b', _ | plain⟩
  · simp [hresult] at hprocess
  · simpa [hresult] using hprocess

/-- **A record that is processed with another header** needs the same MAC for it. -/
theorem Synced.process_elsewhere (h : Synced s r a b) (htype : type ≠ changeCipherSpec)
    {wire : Chunk} (hbuild : s.build type data = (s', .needMore, wire)) {q : TlsProtection}
    (hq : q.aeadIn = some b) {type' : U8} {passed : U8 × Chunk}
    (hprocess : (q.process type' wire).2 = some passed) :
    b.signer.sign (signed q.version type' q.seqIn data) =
      b.signer.sign (signed s.version type s.seqOut data) := by
  obtain ⟨a', hencrypt⟩ := h.build_eq htype hbuild
  obtain ⟨crypter, plain, wire', a'', b', hcrypter, hplain, hencrypt', -, -, -, -, hdecrypt⟩ :=
    h.paired.encrypt s.version type s.seqOut data
  obtain rfl : wire = wire' := by
    rw [hencrypt] at hencrypt'
    exact Option.some.inj (congrArg Prod.snd hencrypt')
  unfold TlsProtection.process at hprocess
  split_ifs at hprocess with hfatal
  simp only [hq, hdecrypt] at hprocess
  cases hverify : verifyRecord a.signer q.version type' q.seqIn plain with
  | none => simp [hverify] at hprocess
  | some data' =>
    rw [h.paired.signer]
    exact verifyRecord_signRecord_other hcrypter h.paired.lawful hplain hverify

theorem rejected_of_none (hfatal : r.alert.fatal = false) (hin : r.aeadIn = some b)
    (hprocess : (r.process type data).2 = none) (arrived : List (U8 × Chunk)) :
    (r.processAll ((type, data) :: arrived)).2 = [] ∧
      (r.processAll ((type, data) :: arrived)).1.alert = r.alert.add tlsFatal tlsBadRecordMac := by
  rcases process_cases hfatal hin type data with ⟨b', data', hsome, -⟩ | ⟨b', hnone⟩
  · rw [hsome] at hprocess
    exact absurd hprocess (Option.some_ne_none _)
  · rw [processAll_rejected hnone rfl]
    exact ⟨rfl, rfl⟩

/-! ## The place of a record -/

theorem buildAll_append {s₁ : TlsProtection} {sent : List (U8 × Chunk)}
    (h : s.buildAll records = (s₁, some sent)) (records' : List (U8 × Chunk)) :
    s.buildAll (records ++ records') =
      ((s₁.buildAll records').1, (s₁.buildAll records').2.map (sent ++ ·)) := by
  induction records generalizing s sent with
  | nil =>
    obtain ⟨rfl, hsent⟩ := Prod.mk.inj h
    rw [← Option.some.inj hsent]
    simp
  | cons record records ih =>
    obtain ⟨type, data⟩ := record
    simp only [List.cons_append, TlsProtection.buildAll] at h ⊢
    rcases hbuild : s.build type data with ⟨s₂, status, wire⟩
    simp only [hbuild] at h ⊢
    cases status with
    | needMore =>
      simp only at h ⊢
      rcases hrest : s₂.buildAll records with ⟨s₃, _ | sent'⟩
      · simp [hrest] at h
      · simp only [hrest, Option.map_some, Prod.mk.injEq, Option.some.injEq] at h
        obtain ⟨rfl, rfl⟩ := h
        rw [ih hrest]
        simp [Option.map_map, Function.comp_def]
    | _ => simp at h

/-- **The place of a record**: the two sides after the records before it. -/
theorem Synced.split (h : Synced s r a b) (htypes : ∀ record ∈ records, record.1 ≠ changeCipherSpec)
    {sent : List (U8 × Chunk)} (hbuilds : s.buildAll records = (s', some sent)) (i : ℕ) :
    ∃ s₁ r₁ a₁ b₁, After (min i records.length) r a b s₁ r₁ a₁ b₁ ∧
      s₁.seqOut = r.seqIn + BitVec.ofNat 64 (min i records.length) ∧
      r.processAll (sent.take i) = (r₁, records.take i) ∧
      s₁.buildAll (records.drop i) = (s', some (sent.drop i)) := by
  have htake : ∀ record ∈ records.take i, record.1 ≠ changeCipherSpec :=
    fun record hrecord => htypes record (List.mem_of_mem_take hrecord)
  have hdrop : ∀ record ∈ records.drop i, record.1 ≠ changeCipherSpec :=
    fun record hrecord => htypes record (List.mem_of_mem_drop hrecord)
  obtain ⟨sent₁, s₁, r₁, a₁, b₁, hbuild₁, hprocess₁, hafter, hlength₁⟩ := h.run htake
  obtain ⟨sent₂, s₂, r₂, a₂, b₂, hbuild₂, -, -, hlength₂⟩ := hafter.synced.run hdrop
  have happend := buildAll_append hbuild₁ (records.drop i)
  rw [List.take_append_drop, hbuilds, hbuild₂] at happend
  obtain ⟨rfl, hsent⟩ := Prod.mk.inj happend
  rw [Option.map_some, Option.some.injEq] at hsent
  rw [List.length_take] at hlength₁
  rw [List.length_drop] at hlength₂
  have htakes : sent.take i = sent₁ := by
    rw [hsent]
    by_cases hi : i ≤ records.length
    · exact List.take_left' (by omega)
    · have hnil : sent₂ = [] := List.length_eq_zero_iff.1 (by omega)
      rw [hnil, List.append_nil]
      exact List.take_of_length_le (by omega)
  have hdrops : sent.drop i = sent₂ := by
    rw [hsent]
    by_cases hi : i ≤ records.length
    · exact List.drop_left' (by omega)
    · have hnil : sent₂ = [] := List.length_eq_zero_iff.1 (by omega)
      rw [hnil, List.append_nil]
      exact List.drop_eq_nil_of_le (by omega)
  rw [List.length_take] at hafter
  refine ⟨s₁, r₁, a₁, b₁, hafter, ?_, ?_, ?_⟩
  · rw [hafter.synced.seq, hafter.seq]
  · rw [htakes, hprocess₁]
  · rw [hdrops, hbuild₂]

theorem Synced.next (h : Synced s r a b) (htypes : ∀ record ∈ records, record.1 ≠ changeCipherSpec)
    {sent : List (U8 × Chunk)} (hbuilds : s.buildAll records = (s', some sent)) {i : ℕ}
    (hrecord : records[i]? = some (type, data)) :
    ∃ s₁ r₁ a₁ b₁ s₂ wire, After i r a b s₁ r₁ a₁ b₁ ∧
      s₁.seqOut = r.seqIn + BitVec.ofNat 64 i ∧ r.processAll (sent.take i) = (r₁, records.take i) ∧
      s₁.build type data = (s₂, .needMore, wire) ∧ sent[i]? = some (type, wire) := by
  obtain ⟨hlt, hget⟩ := List.getElem?_eq_some_iff.1 hrecord
  have htype : type ≠ changeCipherSpec := htypes (type, data) (hget ▸ List.getElem_mem hlt)
  obtain ⟨s₁, r₁, a₁, b₁, hafter, hseq, hprocess, hbuild⟩ := h.split htypes hbuilds i
  rw [min_eq_left hlt.le] at hafter hseq
  rw [List.drop_eq_getElem_cons hlt, hget, TlsProtection.buildAll] at hbuild
  obtain ⟨wire, s₂, r₂, a₂, b₂, hstep, -, hafter'⟩ := hafter.synced.step htype data
  refine ⟨s₁, r₁, a₁, b₁, s₂, wire, hafter, hseq, hprocess, hstep, ?_⟩
  simp only [hstep] at hbuild
  rcases hrest : s₂.buildAll (records.drop (i + 1)) with ⟨s₃, _ | sent'⟩
  · simp [hrest] at hbuild
  · simp only [hrest, Option.map_some, Prod.mk.injEq, Option.some.injEq] at hbuild
    have hhead : (sent.drop i)[0]? = some (type, wire) := by
      rw [← hbuild.2]
      rfl
    rwa [List.getElem?_drop, Nat.add_zero] at hhead

/-! ## The two sides -/

/-- A record raises an alert, and nothing is passed on from there. -/
def Raises (r : TlsProtection) (arrived delivered : List (U8 × Chunk)) : Prop :=
  (r.processAll arrived).2 = delivered ∧
    (r.processAll arrived).1.alert = r.alert.add tlsFatal tlsBadRecordMac

theorem raises_append {arrived delivered rest : List (U8 × Chunk)}
    (harrived : r.processAll arrived = (r', delivered)) (halert : r'.alert = r.alert)
    (hfatal : r'.alert.fatal = false) (hin : r'.aeadIn = some b)
    (hprocess : (r'.process type data).2 = none) :
    Raises r (arrived ++ (type, data) :: rest) delivered := by
  obtain ⟨hdelivered, hraised⟩ := rejected_of_none hfatal hin hprocess rest
  unfold Raises
  rw [processAll_append, harrived]
  refine ⟨?_, ?_⟩
  · rw [hdelivered, List.append_nil]
  · rw [hraised, halert]

/-- **With an implicit IV**, a record of the length of the next one raises an alert if it is not that. -/
theorem Synced.raises_implicit (h : Synced s r a b) (himplicit : b.isExplicit = false)
    (htypes : ∀ record ∈ records, record.1 ≠ changeCipherSpec) (hrecords : records.length < 2 ^ 64)
    {sent rest : List (U8 × Chunk)} {i : ℕ} (hi : i ≤ records.length)
    (hbuilds : s.buildAll records = (s', some sent)) (hother : sent[i]? ≠ some (type, data))
    (hunforged : Unforged b.signer (signedAll r.version r.seqIn records) r
      (sent.take i ++ (type, data) :: rest))
    (hlength : ∀ record, sent[i]? = some record → record.2.length = data.length) :
    Raises r (sent.take i ++ (type, data) :: rest) (records.take i) := by
  obtain ⟨s₁, r₁, a₁, b₁, hafter, -, hprocesses, -⟩ := h.split htypes hbuilds i
  rw [min_eq_left hi] at hafter
  refine raises_append hprocesses hafter.alert hafter.synced.fatal hafter.synced.aeadIn ?_
  rw [Option.eq_none_iff_forall_not_mem]
  intro passed hpassed
  have hrest := hunforged.drop
  rw [hprocesses] at hrest
  have hsigner : b₁.signer = b.signer := by
    rw [hafter.synced.paired.signer, hafter.signer, h.paired.signer]
  obtain ⟨hsigned, htype⟩ := hrest.passed hafter.synced.aeadIn hsigner hpassed
  rw [hafter.version, hafter.seq] at hsigned
  have hrecord := getElem?_of_signed hrecords hi hsigned
  obtain ⟨s₂, r₂, a₂, b₂, s₃, wire, hafter₂, -, hprocesses₂, hbuild, hsent⟩ :=
    h.next htypes hbuilds hrecord
  obtain rfl : r₁ = r₂ := by
    rw [hprocesses] at hprocesses₂
    exact congrArg Prod.fst hprocesses₂
  obtain ⟨hlt, hget⟩ := List.getElem?_eq_some_iff.1 hrecord
  have hccs : type ≠ changeCipherSpec :=
    htypes (type, passed.2) (hget ▸ List.getElem_mem hlt)
  have hprocess : (r₁.process type data).2 = some (type, passed.2) := by
    rw [hpassed, ← htype]
  have hunique := hafter₂.synced.process_implicit (hafter₂.isExplicit.trans himplicit) hccs hbuild
    (hlength _ hsent).symm hprocess
  rw [hunique] at hother
  exact hother hsent

/-- **With an explicit IV**, a record from another place or of another type raises an alert. -/
theorem Synced.raises_explicit (h : Synced s r a b) (hexplicit : b.isExplicit = true)
    (htypes : ∀ record ∈ records, record.1 ≠ changeCipherSpec) (hrecords : records.length < 2 ^ 64)
    {sent rest : List (U8 × Chunk)} {i : ℕ} (hi : i ≤ records.length)
    (hbuilds : s.buildAll records = (s', some sent)) (hother : sent[i]? ≠ some (type, data))
    (hinj : Set.InjOn b.signer.sign (headed records)) (hdata : ∃ record ∈ sent, record.2 = data) :
    Raises r (sent.take i ++ (type, data) :: rest) (records.take i) := by
  obtain ⟨s₁, r₁, a₁, b₁, hafter, -, hprocesses, -⟩ := h.split htypes hbuilds i
  rw [min_eq_left hi] at hafter
  refine raises_append hprocesses hafter.alert hafter.synced.fatal hafter.synced.aeadIn ?_
  rw [Option.eq_none_iff_forall_not_mem]
  intro passed hpassed
  obtain ⟨sent', s₂, r₂, a₂, b₂, hbuilds', -, -, hlength⟩ := h.run htypes
  obtain rfl : sent = sent' := by
    rw [hbuilds] at hbuilds'
    exact Option.some.inj (congrArg Prod.snd hbuilds')
  obtain ⟨⟨type', wire⟩, hmem, rfl⟩ := hdata
  obtain ⟨j, hj⟩ := List.mem_iff_getElem?.1 hmem
  have hlt : j < records.length := hlength ▸ (List.getElem?_eq_some_iff.1 hj).1
  have hrecord : records[j]? = some (records[j].1, records[j].2) := List.getElem?_eq_getElem hlt
  obtain ⟨s₃, r₃, a₃, b₃, s₄, wire', hafter₃, hseq, -, hbuild, hsent⟩ :=
    h.next htypes hbuilds hrecord
  rw [hj, Option.some.injEq, Prod.mk.injEq] at hsent
  obtain ⟨rfl, rfl⟩ := hsent
  obtain rfl : b = b₁ := (hafter.explicit hexplicit).symm
  obtain rfl : b = b₃ := (hafter₃.explicit hexplicit).symm
  have hmac := hafter₃.synced.process_elsewhere (htypes _ (List.getElem_mem hlt)) hbuild
    hafter.synced.aeadIn hpassed
  have htext := hinj ⟨records[j], List.getElem_mem hlt, _, _, _, rfl⟩
    ⟨records[j], List.getElem_mem hlt, _, _, _, rfl⟩ hmac
  obtain ⟨-, htype, hseqs, -⟩ := signed_inj htext
  rw [hafter.seq, hseq] at hseqs
  rw [ofNat_inj (by omega) (by omega) hseqs, hj, htype] at hother
  exact hother rfl

theorem Synced.raises_version (h : Synced s r a b)
    (htypes : ∀ record ∈ records, record.1 ≠ changeCipherSpec) {sent : List (U8 × Chunk)}
    (hbuilds : s.buildAll records = (s', some sent)) (hne : sent ≠ [])
    (hinj : Set.InjOn b.signer.sign (headed records)) {version : U16}
    (hversion : version ≠ r.version) : Raises { r with version := version } sent [] := by
  obtain ⟨sent', s₂, r₂, a₂, b₂, hbuilds', -, -, hlength⟩ := h.run htypes
  obtain rfl : sent = sent' := by
    rw [hbuilds] at hbuilds'
    exact Option.some.inj (congrArg Prod.snd hbuilds')
  have hlt : 0 < records.length := hlength ▸ List.length_pos_iff.2 hne
  have hrecord : records[0]? = some (records[0].1, records[0].2) := List.getElem?_eq_getElem hlt
  obtain ⟨s₁, r₁, a₁, b₁, s₃, wire, hafter, hseq, hprocesses, hbuild, hsent⟩ :=
    h.next htypes hbuilds hrecord
  obtain rfl : r = r₁ := congrArg Prod.fst hprocesses
  obtain rfl : b = b₁ := Option.some.inj (h.aeadIn.symm.trans hafter.synced.aeadIn)
  obtain ⟨rest, rfl⟩ : ∃ rest, sent = (records[0].1, wire) :: rest := by
    cases sent with
    | nil => exact absurd rfl hne
    | cons record rest => exact ⟨rest, congrArg (· :: rest) (Option.some.inj hsent)⟩
  have hfatal : { r with version := version }.alert.fatal = false := h.fatal
  have hin : { r with version := version }.aeadIn = some b := h.aeadIn
  refine rejected_of_none hfatal hin ?_ rest
  rw [Option.eq_none_iff_forall_not_mem]
  intro passed hpassed
  have hmac := hafter.synced.process_elsewhere (htypes _ (List.getElem_mem hlt)) hbuild hin hpassed
  have htext := hinj ⟨records[0], List.getElem_mem hlt, _, _, _, rfl⟩
    ⟨records[0], List.getElem_mem hlt, _, _, _, rfl⟩ hmac
  exact hversion ((signed_inj htext).1.trans hafter.synced.version)

/-- **Records are in sync and in order.** All records are accepted as they are built. Of records that
arrive in another way, those that were built are passed on up to the first that raises an alert, which is
one that is not the next. -/
theorem inSync (h : Synced s r a b) (htypes : ∀ record ∈ records, record.1 ≠ changeCipherSpec) :
    ∃ sent s' r' a' b', s.buildAll records = (s', some sent) ∧
      r.processAll sent = (r', records) ∧ Synced s' r' a' b' ∧
      (records.length < 2 ^ 64 →
        (∀ arrived, Unforged b.signer (signedAll r.version r.seqIn records) r arrived →
          ∃ n ≤ arrived.length, (r.processAll arrived).2 = records.take n ∧
            (n < arrived.length → Raises r arrived (records.take n))) ∧
        (∀ i type data rest, i ≤ records.length → sent[i]? ≠ some (type, data) →
          (b.isExplicit = false ∧
              Unforged b.signer (signedAll r.version r.seqIn records) r
                (sent.take i ++ (type, data) :: rest) ∧
              ∀ record, sent[i]? = some record → record.2.length = data.length) ∨
            (b.isExplicit = true ∧ Set.InjOn b.signer.sign (headed records) ∧
              ∃ record ∈ sent, record.2 = data) →
          Raises r (sent.take i ++ (type, data) :: rest) (records.take i)) ∧
        ∀ version, version ≠ r.version → sent ≠ [] → Set.InjOn b.signer.sign (headed records) →
          Raises { r with version := version } sent []) := by
  obtain ⟨sent, s', r', a', b', hbuilds, hprocesses, hafter, hlength⟩ := h.run htypes
  refine ⟨sent, s', r', a', b', hbuilds, hprocesses, hafter.synced, fun hrecords => ⟨?_, ?_, ?_⟩⟩
  · intro arrived hunforged
    have hseq : r.seqIn = r.seqIn + BitVec.ofNat 64 0 := (BitVec.add_zero _).symm
    obtain ⟨n, hn, hdelivered, halert⟩ := delivered_of_unforged hrecords htypes (Nat.zero_le _)
      h.fatal rfl hseq h.aeadIn hunforged
    rw [List.drop_zero] at hdelivered
    exact ⟨n, hn, hdelivered, fun hlt => ⟨hdelivered, halert hlt⟩⟩
  · rintro i type data rest hi hother (⟨himplicit, hunforged, hdata⟩ | ⟨hexplicit, hinj, hdata⟩)
    · exact h.raises_implicit himplicit htypes hrecords hi hbuilds hother hunforged hdata
    · exact h.raises_explicit hexplicit htypes hrecords hi hbuilds hother hinj hdata
  · intro version hversion hne hinj
    exact h.raises_version htypes hbuilds hne hinj hversion

/-- A crypter that masks all bytes with the first one of the IV -/
def maskCrypter (blockSize : ℕ) : Crypter where
  blockSize := blockSize
  ivSize := 1
  encrypt plain iv := some (plain.map (· ^^^ iv.headD 0))
  decrypt encrypted iv := some (encrypted.map (· ^^^ iv.headD 0))

theorem maskCrypter_lawful {blockSize : ℕ} (hpos : 1 ≤ blockSize) (hle : blockSize ≤ 255) :
    (maskCrypter blockSize).Lawful where
  blockSize_pos := hpos
  blockSize_le := hle
  ivSize_le := hpos
  encrypt := by
    intro plain iv _ _
    refine ⟨plain.map (· ^^^ iv.headD 0), rfl, List.length_map _, ?_⟩
    have hmask : ((· ^^^ iv.headD 0) ∘ (· ^^^ iv.headD 0) : U8 → U8) = id := by
      funext x
      exact (BitVec.xor_assoc _ _ _).trans (by rw [BitVec.xor_self, BitVec.xor_zero]; rfl)
    simp only [maskCrypter, List.map_map, hmask, List.map_id]

/-- A signer that shows the first bytes of what is signed -/
def headSigner : Signer where
  blockSize := 14
  sign data := some ((data ++ List.replicate 14 0).take 14)

theorem headSigner_lawful : headSigner.Lawful :=
  ⟨by decide, fun data => ⟨_, rfl, by simp [headSigner]⟩⟩

theorem headSigner_injOn (hrecords : ∀ record ∈ records, record.2.length = 1) :
    Set.InjOn headSigner.sign (headed records) := by
  have hsign : ∀ text ∈ headed records, headSigner.sign text = some text := by
    rintro text ⟨record, hrecord, version, type, seq, rfl⟩
    have hlength : (signed version type seq record.2).length = 14 := by
      rw [signed, List.length_append, length_sigheader, hrecords record hrecord]
    simp only [headSigner]
    rw [List.take_left' hlength]
  intro text htext text' htext' heq
  rw [hsign text htext, hsign text' htext'] at heq
  exact Option.some.inj heq

/-- A transform with an explicit IV -/
def explicitMask : TlsAead := .explicit ⟨maskCrypter 3, headSigner, fun seq _ => some [seq.setWidth 8]⟩

/-- A transform with an implicit IV -/
def implicitMask : TlsAead := .implicit ⟨maskCrypter 3, headSigner, [9]⟩

/-- A side with that transform in both directions -/
def maskSide (aead : TlsAead) : TlsProtection where
  version := 0x0302
  alert := TlsAlert.create
  aeadIn := some aead
  aeadOut := some aead

theorem maskSide_synced {aead : TlsAead} (h : aead.Paired aead) :
    Synced (maskSide aead) (maskSide aead) aead aead :=
  ⟨rfl, rfl, rfl, rfl, rfl, h⟩

theorem explicitMask_paired : explicitMask.Paired explicitMask :=
  ⟨rfl, rfl, maskCrypter_lawful (by decide) (by decide), headSigner_lawful,
    fun seq => ⟨[seq.setWidth 8], rfl, rfl⟩⟩

theorem implicitMask_paired : implicitMask.Paired implicitMask :=
  ⟨rfl, maskCrypter_lawful (by decide) (by decide), headSigner_lawful, rfl⟩

/-- Two records, of which the second comes first, or the first is lost -/
theorem inSync_two :
    (∃ first second, ((maskSide explicitMask).buildAll [(23, [200]), (22, [7])]).2 =
        some [first, second] ∧
      ((maskSide explicitMask).processAll [first, second]).2 = [(23, [200]), (22, [7])] ∧
      Raises (maskSide explicitMask) [second, first] []) ∧
    ∃ first second, ((maskSide implicitMask).buildAll [(23, [200]), (22, [7])]).2 =
        some [first, second] ∧
      ((maskSide implicitMask).processAll [first, second]).2 = [(23, [200]), (22, [7])] ∧
      Raises (maskSide implicitMask) [second] [] := by
  have htypes : ∀ record ∈ ([(23, [200]), (22, [7])] : List (U8 × Chunk)),
      record.1 ≠ changeCipherSpec := by decide
  refine ⟨?_, ?_⟩
  · obtain ⟨sent, s', r', a', b', hbuilds, hprocesses, -, hrest⟩ :=
      inSync (maskSide_synced explicitMask_paired) htypes
    obtain ⟨first, second, hsent, hne⟩ : ∃ first second,
        ((maskSide explicitMask).buildAll [(23, [200]), (22, [7])]).2 = some [first, second] ∧
          first ≠ second := ⟨_, _, rfl, by decide⟩
    rw [hbuilds, Option.some.injEq] at hsent
    subst hsent
    refine ⟨first, second, congrArg Prod.snd hbuilds, congrArg Prod.snd hprocesses, ?_⟩
    obtain ⟨-, hraises, -⟩ := hrest (by decide)
    exact hraises 0 second.1 second.2 [first] (Nat.zero_le _)
      (fun heq => hne (Option.some.inj heq))
      (Or.inr ⟨rfl, headSigner_injOn (by decide), second, by simp, rfl⟩)
  · obtain ⟨sent, s', r', a', b', hbuilds, hprocesses, -, hrest⟩ :=
      inSync (maskSide_synced implicitMask_paired) htypes
    obtain ⟨first, second, hsent, hne, hlength, hverify⟩ : ∃ first second,
        ((maskSide implicitMask).buildAll [(23, [200]), (22, [7])]).2 = some [first, second] ∧
          first ≠ second ∧ first.2.length = second.2.length ∧
          ∀ verified ∈ (maskSide implicitMask).verifications [second],
            headSigner.verify verified.1 verified.2 = false :=
      ⟨_, _, rfl, by decide, by decide, by decide⟩
    rw [hbuilds, Option.some.injEq] at hsent
    subst hsent
    refine ⟨first, second, congrArg Prod.snd hbuilds, congrArg Prod.snd hprocesses, ?_⟩
    obtain ⟨-, hraises, -⟩ := hrest (by decide)
    refine hraises 0 second.1 second.2 [] (Nat.zero_le _) (fun heq => hne (Option.some.inj heq))
      (Or.inl ⟨rfl, fun verified hmem htrue => ?_, ?_⟩)
    · exact absurd ((hverify verified hmem).symm.trans htrue) (by decide)
    · rintro record hrecord
      rw [← Option.some.inj hrecord]
      exact hlength

/-- A signer with more bytes than the length of a MAC can tell -/
def largeSigner : Signer where
  blockSize := 256
  sign data := some ((data ++ List.replicate 256 0).take 256)

/-- **A ChangeCipherSpec** is sent as it is when there is a cipher, but the peer decrypts it. A record
without its last block is accepted if that is padding only, and a MAC of 256 bytes never is. -/
theorem not_inSync :
    (((maskSide explicitMask).buildAll [(changeCipherSpec, [1])]).2 =
        some [(changeCipherSpec, [1])] ∧
      ((maskSide explicitMask).processAll [(changeCipherSpec, [1])]).2 = []) ∧
    (∃ wire, ((maskSide explicitMask).buildAll [(23, [200])]).2 = some [(23, wire)] ∧
      ((maskSide explicitMask).processAll [(23, wire.take (wire.length - 3))]).2 =
        [(23, [200])] ∧
      ((maskSide explicitMask).processAll [(23, wire.take (wire.length - 3))]).1.alert.fatal =
        false) ∧
    (((maskSide (.implicit ⟨maskCrypter 3, largeSigner, [9]⟩)).buildAll [(23, [200])]).2.map
      fun sent => ((maskSide (.implicit ⟨maskCrypter 3, largeSigner, [9]⟩)).processAll sent).2) =
        some [] := by
  refine ⟨⟨by decide, by decide⟩, ⟨_, rfl, by decide, by decide⟩, by decide +kernel⟩

end Tls

end StrongSwan
