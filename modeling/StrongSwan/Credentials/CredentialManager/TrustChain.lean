import StrongSwan.Credentials.AuthCfg.Equality
import StrongSwan.Credentials.CredentialManager

/-!
# Trust chains are sound

* `TrustChain`: certificates `c 0`, …, `c (n + 1)`, each issued by the next one and checked with it, the
  last one, and no other, trusted and self-issued.
* `collected`: the evidence before each link; `Evidence`: what it is per rule.
* **`verifyTrustChain_sound`**: a subject is only trusted on such a chain, and the evidence is that of the
  chain.
-/

namespace StrongSwan

namespace CredentialManager

open AuthCfg

variable {Cert : Type} (this : CredentialManager Cert)

/-- What was collected before the `i`-th link of a chain whose links so far are intermediate. -/
def collected (auth : AuthCfg Cert) (c : ℕ → Cert) (s : ℕ → SignatureParams) : ℕ → AuthCfg Cert
  | 0 => auth
  | i + 1 => this.getKeyStrength (c (i + 1))
      (addIssuer .imCert (c (i + 1)) (s i) (collected auth c s i))

/-- A chain with `n` intermediate certificates, whose first link has path length `pathlen`. -/
structure TrustChain (online : Bool) (pathlen : ℕ) (auth : AuthCfg Cert) (n : ℕ) (c : ℕ → Cert)
    (s : ℕ → SignatureParams) : Prop where
  issued : ∀ i ≤ n, this.issuedBy (c i) (c (i + 1)) = some (s i)
  anchor : c (n + 1) ∈ this.trustedCerts ∧ this.selfIssued (c (n + 1)) = true
  inner : ∀ i < n, ¬(c (i + 1) ∈ this.trustedCerts ∧ this.selfIssued (c (i + 1)) = true)
  checked : ∀ i < n, this.checkCertificate (c i) (c (i + 1)) online (pathlen + i) false
    (addIssuer .imCert (c (i + 1)) (s i) (this.collected auth c s i)) = true
  checked_last : this.checkCertificate (c n) (c (n + 1)) online (pathlen + n) true
    (addIssuer .caCert (c (n + 1)) (s n) (this.collected auth c s n)) = true

/-- The values of a rule that belong to the first `n` certificates or links. -/
def firstValues (type : AuthRule) (f : ℕ → type.Value Cert) (n : ℕ) : List (type.Value Cert) :=
  (List.range n).map f

/-- The evidence of a chain, in front of what was there. -/
structure Evidence (result result' : AuthCfg Cert) (n : ℕ) (c : ℕ → Cert)
    (s : ℕ → SignatureParams) : Prop where
  subject : result'.raw .subjectCert = c 0 :: result.raw .subjectCert
  intermediate : result'.raw .imCert =
    firstValues .imCert (fun i => c (i + 1)) n ++ result.raw .imCert
  ca : result'.raw .caCert = c (n + 1) :: result.raw .caCert
  schemes : result'.raw .signatureScheme =
    firstValues .signatureScheme s (n + 1) ++ result.raw .signatureScheme
  strengths : ∀ type, type = .rsaStrength ∨ type = .ecdsaStrength ∨ type = .blissStrength →
    result'.raw type = (List.range (n + 2)).filterMap (fun i => (this.keyStrength (c i)).bind
      (valueOf type)) ++ result.raw type
  others : ∀ type, type ∉ [AuthRule.subjectCert, .imCert, .caCert, .signatureScheme, .rsaStrength,
    .ecdsaStrength, .blissStrength] → result'.raw type = result.raw type

/-! ## One link -/

section Link

variable {this} {online : Bool} {pathlen fuel : ℕ} {current : Cert} {auth auth' : AuthCfg Cert}

theorem getIssuerCert_some {trusted : Bool} {issuer : Cert} {scheme : SignatureParams}
    (h : this.getIssuerCert current trusted = some (issuer, scheme)) :
    issuer ∈ (if trusted then this.trustedCerts else this.certs) ∧
      this.hasIssuer current issuer = true ∧ this.issuedBy current issuer = some scheme := by
  rw [getIssuerCert, List.findSome?_eq_some_iff] at h
  obtain ⟨before, candidate, after, hsplit, hcandidate, -⟩ := h
  obtain ⟨scheme', hscheme, heq⟩ := Option.map_eq_some_iff.mp hcandidate
  obtain ⟨rfl, rfl⟩ := Prod.mk.inj heq
  have hmem : candidate ∈
      (if trusted then this.trustedCerts else this.certs).filter (this.hasIssuer current) := by
    rw [hsplit]
    simp
  exact ⟨(List.mem_filter.mp hmem).1, (List.mem_filter.mp hmem).2, hscheme⟩

theorem not_mem_of_getIssuerCert (h : this.getIssuerCert current true = none) {issuer : Cert}
    {scheme : SignatureParams} (hhas : this.hasIssuer current issuer = true)
    (hissued : this.issuedBy current issuer = some scheme) : issuer ∉ this.trustedCerts := by
  intro hmem
  rw [getIssuerCert, List.findSome?_eq_none_iff] at h
  have hnone := h issuer (List.mem_filter.mpr ⟨hmem, hhas⟩)
  rw [hissued] at hnone
  cases hnone

structure LastLink (this : CredentialManager Cert) (online : Bool) (pathlen : ℕ) (current : Cert)
    (auth auth' : AuthCfg Cert) (issuer : Cert) (scheme : SignatureParams) : Prop where
  issued : this.issuedBy current issuer = some scheme
  anchor : issuer ∈ this.trustedCerts ∧ this.selfIssued issuer = true
  checked : this.checkCertificate current issuer online pathlen true
    (addIssuer .caCert issuer scheme auth) = true
  auth_eq : auth' = this.getKeyStrength issuer (addIssuer .caCert issuer scheme auth)

/-- A link to an intermediate certificate. -/
structure InnerLink (this : CredentialManager Cert) (online : Bool) (pathlen : ℕ) (current : Cert)
    (auth : AuthCfg Cert) (issuer : Cert) (scheme : SignatureParams) : Prop where
  issued : this.issuedBy current issuer = some scheme
  inner : ¬(issuer ∈ this.trustedCerts ∧ this.selfIssued issuer = true)
  checked : this.checkCertificate current issuer online pathlen false
    (addIssuer .imCert issuer scheme auth) = true

/-- **One turn of the loop**: the chain ends at an anchor, or goes on from an intermediate certificate. -/
theorem verifyLoop_succ
    (h : this.verifyLoop online (fuel + 1) pathlen current auth false = (true, auth')) :
    ∃ issuer scheme, this.LastLink online pathlen current auth auth' issuer scheme ∨
      this.InnerLink online pathlen current auth issuer scheme ∧
        this.verifyLoop online fuel (pathlen + 1) issuer
          (this.getKeyStrength issuer (addIssuer .imCert issuer scheme auth)) false =
            (true, auth') := by
  rw [verifyLoop] at h
  dsimp only at h
  cases htrusted : this.getIssuerCert current true with
  | some found =>
    obtain ⟨issuer, scheme⟩ := found
    obtain ⟨hmem, -, hissued⟩ := getIssuerCert_some htrusted
    rw [if_pos rfl] at hmem
    rw [htrusted] at h
    simp only [if_true, Bool.false_eq_true, if_false] at h
    refine ⟨issuer, scheme, ?_⟩
    split_ifs at h with hself hcheck hcheck
    · exact .inl ⟨hissued, ⟨hmem, hself⟩, hcheck, (Prod.mk.inj h).2.symm⟩
    · cases h
    · exact .inr ⟨⟨hissued, fun hanchor => hself hanchor.2, hcheck⟩, h⟩
    · cases h
  | none =>
    rw [htrusted] at h
    dsimp only at h
    cases hall : this.getIssuerCert current false with
    | none =>
      rw [hall] at h
      cases h
    | some found =>
      obtain ⟨issuer, scheme⟩ := found
      obtain ⟨-, hhas, hissued⟩ := getIssuerCert_some hall
      rw [hall] at h
      simp only [Bool.false_eq_true, if_false] at h
      refine ⟨issuer, scheme, .inr ?_⟩
      split_ifs at h with hequals hcheck
      · cases h
      · have hinner := not_mem_of_getIssuerCert htrusted hhas hissued
        exact ⟨⟨hissued, fun hanchor => hinner hanchor.1, hcheck⟩, h⟩
      · cases h

end Link

/-! ## The whole chain -/

section Chain

variable {this} {online : Bool}

/-- A sequence with one more element in front. -/
def prepend {α : Type} (a : α) (f : ℕ → α) : ℕ → α
  | 0 => a
  | i + 1 => f i

theorem collected_prepend {auth : AuthCfg Cert} {current : Cert} {c : ℕ → Cert}
    {scheme : SignatureParams} {s : ℕ → SignatureParams} (i : ℕ) :
    this.collected auth (prepend current c) (prepend scheme s) (i + 1) = this.collected
      (this.getKeyStrength (c 0) (addIssuer .imCert (c 0) scheme auth)) c s i := by
  induction i with
  | zero => rfl
  | succ i ih =>
    rw [collected, ih]
    rfl

theorem TrustChain.cons {pathlen n : ℕ} {current : Cert} {auth : AuthCfg Cert} {c : ℕ → Cert}
    {s : ℕ → SignatureParams} {scheme : SignatureParams}
    (hlink : this.InnerLink online pathlen current auth (c 0) scheme)
    (h : this.TrustChain online (pathlen + 1)
      (this.getKeyStrength (c 0) (addIssuer .imCert (c 0) scheme auth)) n c s) :
    this.TrustChain online pathlen auth (n + 1) (prepend current c) (prepend scheme s) := by
  refine ⟨fun i hi => ?_, h.anchor, fun i hi => ?_, fun i hi => ?_, ?_⟩
  · cases i with
    | zero => exact hlink.issued
    | succ i => exact h.issued i (by omega)
  · cases i with
    | zero => exact hlink.inner
    | succ i => exact h.inner i (by omega)
  · cases i with
    | zero => exact hlink.checked
    | succ i =>
      have hchecked := h.checked i (by omega)
      rw [collected_prepend, show pathlen + (i + 1) = pathlen + 1 + i by omega]
      exact hchecked
  · rw [collected_prepend, show pathlen + (n + 1) = pathlen + 1 + n by omega]
    exact h.checked_last

/-- **The loop only succeeds on a trust chain.** -/
theorem verifyLoop_sound {fuel pathlen : ℕ} {current : Cert} {auth auth' : AuthCfg Cert}
    (h : this.verifyLoop online fuel pathlen current auth false = (true, auth')) :
    ∃ n < fuel, ∃ c s, c 0 = current ∧ this.TrustChain online pathlen auth n c s ∧
      auth' = this.getKeyStrength (c (n + 1))
        (addIssuer .caCert (c (n + 1)) (s n) (this.collected auth c s n)) := by
  induction fuel generalizing pathlen current auth with
  | zero =>
    rw [verifyLoop] at h
    cases h
  | succ fuel ih =>
    obtain ⟨issuer, scheme, hlast | ⟨hlink, hrest⟩⟩ := verifyLoop_succ h
    · refine ⟨0, by omega, prepend current fun _ => issuer, fun _ => scheme, rfl,
        ⟨fun i hi => ?_, hlast.anchor, fun i hi => absurd hi (by omega),
          fun i hi => absurd hi (by omega), hlast.checked⟩, hlast.auth_eq⟩
      obtain rfl : i = 0 := by omega
      exact hlast.issued
    · obtain ⟨n, hn, c, s, rfl, hchain, hauth⟩ := ih hrest
      refine ⟨n + 1, by omega, _, _, rfl, hchain.cons hlink, ?_⟩
      rw [collected_prepend]
      exact hauth

end Chain

/-! ## The evidence -/

section Collected

variable {this}

theorem raw_getKeyStrength (cert : Cert) (auth : AuthCfg Cert) (type : AuthRule) :
    (this.getKeyStrength cert auth).raw type =
      auth.raw type ++ ((this.keyStrength cert).bind (valueOf type)).toList := by
  rw [getKeyStrength]
  cases hentry : this.keyStrength cert with
  | none => simp
  | some entry =>
    have hmulti : entry.type.isMultiValueRule = true := by
      rw [keyStrength] at hentry
      split at hentry <;> cases hentry <;> rfl
    exact raw_add_multi auth hmulti type

theorem keyStrength_bind_eq_none {type : AuthRule}
    (h : type ≠ .rsaStrength ∧ type ≠ .ecdsaStrength ∧ type ≠ .blissStrength) (cert : Cert) :
    (this.keyStrength cert).bind (valueOf type) = none := by
  rw [keyStrength]
  split
  · exact valueOf_of_ne h.1.symm
  · exact valueOf_of_ne h.2.1.symm
  · exact valueOf_of_ne h.2.2.symm
  · rfl

theorem raw_addIssuer {rule : AuthRule} (hrule : rule.isMultiValueRule = true)
    (issuer : rule.Value Cert) (scheme : SignatureParams) (auth : AuthCfg Cert) (type : AuthRule) :
    (addIssuer rule issuer scheme auth).raw type = auth.raw type ++
      ((valueOf type ⟨rule, issuer⟩).toList ++
        (valueOf type (⟨.signatureScheme, scheme⟩ : AuthEntry Cert)).toList) := by
  have hscheme : (⟨.signatureScheme, scheme⟩ : AuthEntry Cert).type.isMultiValueRule = true := rfl
  rw [addIssuer, raw_add_multi _ hscheme, raw_add_multi _ hrule, List.append_assoc]

/-- **What is collected of a rule**, link by link. -/
theorem raw_collected (auth : AuthCfg Cert) (c : ℕ → Cert) (s : ℕ → SignatureParams) (n : ℕ)
    (type : AuthRule) :
    (this.collected auth c s n).raw type = auth.raw type ++ (List.range n).flatMap fun i =>
      (valueOf type (⟨.imCert, c (i + 1)⟩ : AuthEntry Cert)).toList ++
        (valueOf type (⟨.signatureScheme, s i⟩ : AuthEntry Cert)).toList ++
          ((this.keyStrength (c (i + 1))).bind (valueOf type)).toList := by
  induction n with
  | zero => simp [collected]
  | succ n ih =>
    rw [collected, raw_getKeyStrength, @raw_addIssuer Cert .imCert rfl, ih, List.range_succ,
      List.flatMap_append]
    simp

/-- What is collected on a whole chain. -/
def verified (this : CredentialManager Cert) (c : ℕ → Cert) (s : ℕ → SignatureParams) (n : ℕ) :
    AuthCfg Cert :=
  let auth := (this.getKeyStrength (c 0) .create).add ⟨.subjectCert, c 0⟩
  this.getKeyStrength (c (n + 1))
    (addIssuer .caCert (c (n + 1)) (s n) (this.collected auth c s n))

theorem raw_verified (c : ℕ → Cert) (s : ℕ → SignatureParams) (n : ℕ) (type : AuthRule) :
    (this.verified c s n).raw type =
      ((this.keyStrength (c 0)).bind (valueOf type)).toList ++
        (valueOf type (⟨.subjectCert, c 0⟩ : AuthEntry Cert)).toList ++
        ((List.range n).flatMap fun i =>
          (valueOf type (⟨.imCert, c (i + 1)⟩ : AuthEntry Cert)).toList ++
            (valueOf type (⟨.signatureScheme, s i⟩ : AuthEntry Cert)).toList ++
              ((this.keyStrength (c (i + 1))).bind (valueOf type)).toList) ++
        (valueOf type (⟨.caCert, c (n + 1)⟩ : AuthEntry Cert)).toList ++
        (valueOf type (⟨.signatureScheme, s n⟩ : AuthEntry Cert)).toList ++
        ((this.keyStrength (c (n + 1))).bind (valueOf type)).toList := by
  have hsubject : (⟨.subjectCert, c 0⟩ : AuthEntry Cert).type.isMultiValueRule = true := rfl
  rw [verified, raw_getKeyStrength, @raw_addIssuer Cert .caCert rfl, raw_collected,
    raw_add_multi _ hsubject, raw_getKeyStrength]
  simp [AuthCfg.raw, create]

theorem append_flatMap_append {β : Type} (g : ℕ → Option β) (n : ℕ) :
    (g 0).toList ++ ((List.range n).flatMap (fun i => (g (i + 1)).toList) ++ (g (n + 1)).toList) =
      (List.range (n + 2)).filterMap g := by
  have hflatMap : ∀ l : List ℕ, l.flatMap (fun i => (g (i + 1)).toList) =
      (l.map (· + 1)).filterMap g := by
    intro l
    induction l with
    | nil => rfl
    | cons i l ih =>
      rw [List.flatMap_cons, ih, List.map_cons, List.filterMap_cons]
      cases g (i + 1) <;> rfl
  rw [List.range_succ, List.filterMap_append, List.range_succ_eq_map, List.filterMap_cons, hflatMap]
  cases g 0 <;> cases hlast : g (n + 1) <;> simp [hlast]

/-- **The evidence of a whole chain.** -/
theorem evidence (result : AuthCfg Cert) (c : ℕ → Cert) (s : ℕ → SignatureParams) (n : ℕ) :
    this.Evidence result (result.merge (this.verified c s n) false).1 n c s := by
  have hother : ∀ {type : AuthRule} {e : AuthEntry Cert}, e.type ≠ type →
      (valueOf type e).toList = [] := fun h => by rw [valueOf_of_ne h]; rfl
  have hstrength : ∀ {type : AuthRule},
      type ≠ .rsaStrength ∧ type ≠ .ecdsaStrength ∧ type ≠ .blissStrength → ∀ i,
        ((this.keyStrength (c i)).bind (valueOf type)).toList = [] := by
    intro type h i
    rw [keyStrength_bind_eq_none h]
    rfl
  refine ⟨?_, ?_, ?_, ?_, fun type htype => ?_, fun type htype => ?_⟩
  · rw [raw_merge_move, raw_verified]
    simp [hother, hstrength]
  · rw [raw_merge_move, raw_verified]
    simp [hother, hstrength, firstValues, List.map_eq_flatMap]
  · rw [raw_merge_move, raw_verified]
    simp [hother, hstrength]
  · rw [raw_merge_move, raw_verified]
    simp [hother, hstrength, firstValues, List.range_succ, List.map_eq_flatMap]
  · rw [raw_merge_move, raw_verified, ← append_flatMap_append]
    rcases htype with rfl | rfl | rfl <;> simp [hother]
  · simp only [List.mem_cons, List.not_mem_nil, or_false, not_or] at htype
    obtain ⟨hsubject, him, hca, hscheme, hrsa, hecdsa, hbliss⟩ := htype
    rw [raw_merge_move, raw_verified]
    simp [hother, Ne.symm hsubject, Ne.symm him, Ne.symm hca, Ne.symm hscheme,
      hstrength ⟨hrsa, hecdsa, hbliss⟩]

end Collected

/-- **A subject is only trusted on a trust chain**, of at most eight links, and its evidence is added to the
result. A result stays as it is if the subject is not trusted. -/
theorem verifyTrustChain_sound (subject : Cert) (result : AuthCfg Cert) (online : Bool) :
    (∃ result', this.verifyTrustChain subject result false online = (true, result') ∧
      ∃ n ≤ maxTrustPathLen, ∃ c s, c 0 = subject ∧
        this.TrustChain online 0 ((this.getKeyStrength subject .create).add ⟨.subjectCert, subject⟩)
          n c s ∧ this.Evidence result result' n c s) ∨
      this.verifyTrustChain subject result false online = (false, result) := by
  rw [verifyTrustChain]
  cases hloop : this.verifyLoop online (maxTrustPathLen + 1) 0 subject
    ((this.getKeyStrength subject .create).add ⟨.subjectCert, subject⟩) false with
  | mk trusted auth' =>
    cases trusted with
    | false => exact .inr (if_neg Bool.false_ne_true)
    | true =>
      obtain ⟨n, hn, c, s, rfl, hchain, rfl⟩ := verifyLoop_sound hloop
      exact .inl ⟨_, if_pos rfl, n, by omega, c, s, rfl, hchain, evidence result c s n⟩

end CredentialManager

end StrongSwan
