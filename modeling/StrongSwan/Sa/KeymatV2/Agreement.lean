import StrongSwan.Sa.KeymatV2

/-!
# Both peers derive the same keys

* `Mirrors`: one peer has inbound what the other has outbound; `deriveFrom_mirrors`,
  `deriveIkeKeys_mirrors`.
* `KeyedFrom`: the keys are consecutive slices of one stream; `deriveIkeKeys_keyed`.
* `octets_disagree`: what a peer signs is not what it verifies.
* **`keys_agree`**.
-/

namespace StrongSwan

namespace KeymatV2

variable (cfg : CryptoFactory) {this other : KeymatV2}

/-- **Two peers have the same keys**, in opposite directions. -/
structure Mirrors (this other : KeymatV2) : Prop where
  initiator : this.initiator = !other.initiator
  prf : this.prf = other.prf
  prfAlg : this.prfAlg = other.prfAlg
  skd : this.skd = other.skd
  aeadOut : this.aeadOut = other.aeadIn
  aeadIn : this.aeadIn = other.aeadOut
  skpBuild : this.skpBuild = other.skpVerify
  skpVerify : this.skpVerify = other.skpBuild

theorem mirrors_create : (keymatV2Create true).Mirrors (keymatV2Create false) :=
  ⟨rfl, rfl, rfl, rfl, rfl, rfl, rfl, rfl⟩

theorem Mirrors.hasAeads (h : this.Mirrors other) : this.hasAeads = other.hasAeads := by
  rw [KeymatV2.hasAeads, KeymatV2.hasAeads, h.aeadIn, h.aeadOut, Bool.and_comm]

theorem Mirrors.setAeads (h : this.Mirrors other) (aeadI aeadR : KeyedAead) :
    (this.setAeads aeadI aeadR).Mirrors (other.setAeads aeadI aeadR) := by
  have hrole := h.initiator
  unfold KeymatV2.setAeads
  cases hother : other.initiator <;> rw [hother] at hrole <;> rw [hrole] <;>
    exact ⟨by simp, h.prf, h.prfAlg, h.skd, rfl, rfl, h.skpBuild, h.skpVerify⟩

theorem Mirrors.setSkp (h : this.Mirrors other) (skPi skPr : Chunk) :
    (this.setSkp skPi skPr).Mirrors (other.setSkp skPi skPr) := by
  have hrole := h.initiator
  unfold KeymatV2.setSkp
  cases hother : other.initiator <;> rw [hother] at hrole <;> rw [hrole] <;>
    exact ⟨by simp, h.prf, h.prfAlg, h.skd, h.aeadOut, h.aeadIn, rfl, rfl⟩

theorem deriveIkeAead_mirrors (h : this.Mirrors other) (alg keySize : U16) (prfPlus : PrfPlus) :
    (this.deriveIkeAead cfg alg keySize prfPlus).1.Mirrors
        (other.deriveIkeAead cfg alg keySize prfPlus).1 ∧
      (this.deriveIkeAead cfg alg keySize prfPlus).2 =
        (other.deriveIkeAead cfg alg keySize prfPlus).2 := by
  unfold deriveIkeAead
  cases aeadSaltSize alg with
  | none => exact ⟨h, rfl⟩
  | some saltSize =>
    dsimp only
    cases cfg.createAead alg (keySize.toNat / 8) saltSize with
    | none => exact ⟨h, rfl⟩
    | some aeadKeySize =>
      dsimp only
      split_ifs
      · exact ⟨h, rfl⟩
      · exact ⟨h.setAeads _ _, rfl⟩

theorem deriveIkeTraditional_mirrors (h : this.Mirrors other) (encAlg encSize intAlg : U16)
    (prfPlus : PrfPlus) :
    (this.deriveIkeTraditional cfg encAlg encSize intAlg prfPlus).1.Mirrors
        (other.deriveIkeTraditional cfg encAlg encSize intAlg prfPlus).1 ∧
      (this.deriveIkeTraditional cfg encAlg encSize intAlg prfPlus).2 =
        (other.deriveIkeTraditional cfg encAlg encSize intAlg prfPlus).2 := by
  unfold deriveIkeTraditional
  cases cfg.createSigner intAlg with
  | none => exact ⟨h, rfl⟩
  | some signerKeySize =>
    cases cfg.createCrypter encAlg (encSize.toNat / 8) with
    | none => exact ⟨h, rfl⟩
    | some crypterKeySize =>
      dsimp only
      split_ifs
      · exact ⟨h.setAeads _ _, rfl⟩
      · exact ⟨h, rfl⟩

theorem deriveAeads_mirrors (h : this.Mirrors other) (proposal : Proposal) (prfPlus : PrfPlus) :
    (this.deriveAeads cfg proposal prfPlus).1 = (other.deriveAeads cfg proposal prfPlus).1 ∧
      (this.deriveAeads cfg proposal prfPlus).2.1.Mirrors
        (other.deriveAeads cfg proposal prfPlus).2.1 ∧
      (this.deriveAeads cfg proposal prfPlus).2.2 =
        (other.deriveAeads cfg proposal prfPlus).2.2 := by
  unfold deriveAeads
  cases proposal.getAlgorithm .encryptionAlgorithm with
  | none => exact ⟨rfl, h, rfl⟩
  | some algorithm =>
    dsimp only
    split_ifs
    · obtain ⟨hmirrors, hrest⟩ :=
        deriveIkeAead_mirrors cfg h algorithm.1 algorithm.2 prfPlus
      exact ⟨hmirrors.hasAeads, hmirrors, hrest⟩
    · cases proposal.getAlgorithm .integrityAlgorithm with
      | none => exact ⟨rfl, h, rfl⟩
      | some intAlgorithm =>
        obtain ⟨hmirrors, hrest⟩ := deriveIkeTraditional_mirrors cfg h algorithm.1
          algorithm.2 intAlgorithm.1 prfPlus
        exact ⟨hmirrors.hasAeads, hmirrors, hrest⟩

theorem deriveFrom_mirrors (h : this.Mirrors other) (proposal : Proposal) (prf : Prf)
    (prfPlus : PrfPlus) : (this.deriveFrom cfg proposal prf prfPlus).Mirrors
      (other.deriveFrom cfg proposal prf prfPlus) := by
  unfold deriveFrom
  dsimp only
  generalize prfPlus.allocateBytes (BitVec.ofNat 16 prf.keySize).toNat = first
  have hskd : { this with skd := first.1 }.Mirrors { other with skd := first.1 } :=
    ⟨h.initiator, h.prf, h.prfAlg, rfl, h.aeadOut, h.aeadIn, h.skpBuild, h.skpVerify⟩
  have haeads := deriveAeads_mirrors cfg hskd proposal first.2
  generalize { this with skd := first.1 }.deriveAeads cfg proposal first.2 = result at *
  generalize { other with skd := first.1 }.deriveAeads cfg proposal first.2 = result' at *
  obtain ⟨success, keymat, rest⟩ := result
  obtain ⟨success', keymat', rest'⟩ := result'
  obtain ⟨rfl, hmirrors, rfl⟩ := haeads
  cases success
  · exact hmirrors
  · exact hmirrors.setSkp _ _

/-- **Both peers get the same result and the same keys.** -/
theorem deriveIkeKeys_mirrors (h : this.Mirrors other) (exchange : IkeExchange) :
    (this.deriveIkeKeys cfg exchange).1 = (other.deriveIkeKeys cfg exchange).1 ∧
      (this.deriveIkeKeys cfg exchange).2.Mirrors (other.deriveIkeKeys cfg exchange).2 := by
  unfold deriveIkeKeys
  cases exchange.dh.getSharedSecret with
  | none => exact ⟨rfl, h⟩
  | some secret =>
    dsimp only
    cases exchange.proposal.getAlgorithm .pseudoRandomFunction with
    | none => exact ⟨rfl, h⟩
    | some algorithm =>
      have hprf : { this with prfAlg := algorithm.1, prf := cfg.createPrf algorithm.1 }.Mirrors
          { other with prfAlg := algorithm.1, prf := cfg.createPrf algorithm.1 } :=
        ⟨h.initiator, rfl, rfl, h.skd, h.aeadOut, h.aeadIn, h.skpBuild, h.skpVerify⟩
      dsimp only
      split
      · exact ⟨rfl, hprf⟩
      · split
        · exact ⟨rfl, hprf⟩
        · rename_i prf _ _ prfPlus _
          have hfrom := deriveFrom_mirrors cfg hprf exchange.proposal prf prfPlus
          refine ⟨?_, hfrom⟩
          rw [hfrom.skpBuild, hfrom.skpVerify, Bool.and_comm]

/-! ## One stream of keys -/

open PrfPlus (At allocateBytes_spec)

variable {cfg} {proposal : Proposal} {prf : Prf} {origin prfPlus : PrfPlus} {pos : ℕ}

/-- The keys of both directions are consecutive slices of the stream, those for integrity first. The
last number is how many bytes they are. -/
inductive DerivedAeads (cfg : CryptoFactory) (proposal : Proposal) (origin : PrfPlus) (pos : ℕ) :
    KeyedAead → KeyedAead → ℕ → Prop
  | combined {alg bits : U16} {saltSize e : ℕ} :
      proposal.getAlgorithm .encryptionAlgorithm = some (alg, bits) →
      cfg.createAead alg (bits.toNat / 8) saltSize = some e →
      DerivedAeads cfg proposal origin pos
        (.combined alg (bits.toNat / 8) saltSize (origin.slice pos e))
        (.combined alg (bits.toNat / 8) saltSize (origin.slice (pos + e) e)) (e + e)
  | traditional {encAlg bits intAlg intBits : U16} {a e : ℕ} :
      proposal.getAlgorithm .encryptionAlgorithm = some (encAlg, bits) →
      proposal.getAlgorithm .integrityAlgorithm = some (intAlg, intBits) →
      cfg.createSigner intAlg = some a → cfg.createCrypter encAlg (bits.toNat / 8) = some e →
      DerivedAeads cfg proposal origin pos
        (.traditional encAlg (bits.toNat / 8) (origin.slice (pos + a + a) e) intAlg
          (origin.slice pos a))
        (.traditional encAlg (bits.toNat / 8) (origin.slice (pos + a + a + e) e) intAlg
          (origin.slice (pos + a) a)) (a + a + e + e)

/-- The number of bytes of `SK_d`, `SK_pi` and `SK_pr`. -/
def skSize (prf : Prf) : ℕ := (BitVec.ofNat 16 prf.keySize).toNat

/-- **The keys of an initiator are consecutive slices of one stream.** -/
def KeyedFrom (cfg : CryptoFactory) (proposal : Proposal) (prf : Prf) (origin : PrfPlus)
    (this : KeymatV2) : Prop :=
  ∃ aeadI aeadR len, DerivedAeads cfg proposal origin (skSize prf) aeadI aeadR len ∧
    this.skd = origin.slice 0 (skSize prf) ∧ this.aeadOut = some aeadI ∧ this.aeadIn = some aeadR ∧
    this.skpBuild = origin.slice (skSize prf + len) (skSize prf) ∧
    this.skpVerify = origin.slice (skSize prf + len + skSize prf) (skSize prf)

@[simp] theorem skpBuild_setAeads (aeadI aeadR : KeyedAead) :
    (this.setAeads aeadI aeadR).skpBuild = this.skpBuild := by
  unfold setAeads
  split_ifs <;> rfl

theorem skpBuild_deriveAeads (cfg : CryptoFactory) (this : KeymatV2) (proposal : Proposal)
    (prfPlus : PrfPlus) : (this.deriveAeads cfg proposal prfPlus).2.1.skpBuild = this.skpBuild := by
  unfold deriveAeads deriveIkeAead deriveIkeTraditional
  dsimp only
  repeat' split
  all_goals first | rfl | exact skpBuild_setAeads _ _

theorem not_hasAeads (hfresh : this.aeadIn = none) : this.hasAeads = false := by
  rw [hasAeads, hfresh]
  rfl

theorem deriveIkeAead_spec (hfresh : this.aeadIn = none) {alg bits : U16}
    (hbuffer : origin.buffer.length = origin.prf.blockSize) (hat : At origin prfPlus pos)
    (halg : proposal.getAlgorithm .encryptionAlgorithm = some (alg, bits))
    (hsuccess : (this.deriveIkeAead cfg alg bits prfPlus).1.hasAeads = true) :
    ∃ aeadI aeadR len, DerivedAeads cfg proposal origin pos aeadI aeadR len ∧
      (this.deriveIkeAead cfg alg bits prfPlus).1 = this.setAeads aeadI aeadR ∧
      At origin (this.deriveIkeAead cfg alg bits prfPlus).2 (pos + len) := by
  unfold deriveIkeAead at *
  cases hsalt : aeadSaltSize alg with
  | none => simp [hsalt, not_hasAeads hfresh] at hsuccess
  | some saltSize =>
    simp only [hsalt] at hsuccess ⊢
    cases hcreate : cfg.createAead alg (bits.toNat / 8) saltSize with
    | none => simp [hcreate, not_hasAeads hfresh] at hsuccess
    | some e =>
      simp only [hcreate] at hsuccess ⊢
      by_cases hsize : (BitVec.ofNat 16 e).toNat = e
      · rw [if_neg (not_not.mpr hsize), hsize]
        obtain ⟨hei, hat⟩ := allocateBytes_spec hbuffer hat e
        obtain ⟨her, hat⟩ := allocateBytes_spec hbuffer hat e
        refine ⟨_, _, _, .combined halg hcreate, ?_, Nat.add_assoc .. ▸ hat⟩
        rw [hei, her]
      · rw [if_pos hsize, not_hasAeads hfresh] at hsuccess
        cases hsuccess

theorem deriveIkeTraditional_spec (hfresh : this.aeadIn = none) {encAlg bits intAlg intBits : U16}
    (hbuffer : origin.buffer.length = origin.prf.blockSize) (hat : At origin prfPlus pos)
    (halg : proposal.getAlgorithm .encryptionAlgorithm = some (encAlg, bits))
    (hint : proposal.getAlgorithm .integrityAlgorithm = some (intAlg, intBits))
    (hsuccess : (this.deriveIkeTraditional cfg encAlg bits intAlg prfPlus).1.hasAeads = true) :
    ∃ aeadI aeadR len, DerivedAeads cfg proposal origin pos aeadI aeadR len ∧
      (this.deriveIkeTraditional cfg encAlg bits intAlg prfPlus).1 = this.setAeads aeadI aeadR ∧
      At origin (this.deriveIkeTraditional cfg encAlg bits intAlg prfPlus).2 (pos + len) := by
  unfold deriveIkeTraditional at *
  cases hsigner : cfg.createSigner intAlg with
  | none => simp [hsigner, not_hasAeads hfresh] at hsuccess
  | some a =>
    cases hcrypter : cfg.createCrypter encAlg (bits.toNat / 8) with
    | none => simp [hsigner, hcrypter, not_hasAeads hfresh] at hsuccess
    | some e =>
      simp only [hsigner, hcrypter] at hsuccess ⊢
      split_ifs at hsuccess ⊢ with hiv
      · obtain ⟨hai, hat⟩ := allocateBytes_spec hbuffer hat a
        obtain ⟨har, hat⟩ := allocateBytes_spec hbuffer hat a
        obtain ⟨hei, hat⟩ := allocateBytes_spec hbuffer hat e
        obtain ⟨her, hat⟩ := allocateBytes_spec hbuffer hat e
        refine ⟨_, _, _, .traditional halg hint hsigner hcrypter, ?_, ?_⟩
        · rw [hai, har, hei, her]
        · simpa only [← Nat.add_assoc] using hat
      · simp [not_hasAeads hfresh] at hsuccess

theorem deriveAeads_spec (cfg : CryptoFactory) (proposal : Proposal) (hfresh : this.aeadIn = none)
    (hbuffer : origin.buffer.length = origin.prf.blockSize) (hat : At origin prfPlus pos)
    (hsuccess : (this.deriveAeads cfg proposal prfPlus).1 = true) :
    ∃ aeadI aeadR len, DerivedAeads cfg proposal origin pos aeadI aeadR len ∧
      (this.deriveAeads cfg proposal prfPlus).2.1 = this.setAeads aeadI aeadR ∧
      At origin (this.deriveAeads cfg proposal prfPlus).2.2 (pos + len) := by
  unfold deriveAeads at *
  cases halg : proposal.getAlgorithm .encryptionAlgorithm with
  | none => simp [halg] at hsuccess
  | some algorithm =>
    simp only [halg] at hsuccess ⊢
    split_ifs at hsuccess ⊢
    · exact deriveIkeAead_spec hfresh hbuffer hat halg hsuccess
    · cases hint : proposal.getAlgorithm .integrityAlgorithm with
      | none => simp [hint] at hsuccess
      | some intAlgorithm =>
        simp only [hint] at hsuccess ⊢
        exact deriveIkeTraditional_spec hfresh hbuffer hat halg hint hsuccess

/-- **The keys that an initiator derives**, unless there are no AEADs. -/
theorem deriveFrom_cases (cfg : CryptoFactory) (proposal : Proposal) (prf : Prf)
    (hrole : this.initiator = true) (hfresh : this.aeadIn = none)
    (hbuffer : origin.buffer.length = origin.prf.blockSize) (hat : At origin prfPlus 0) :
    ((∃ skd rest, ({ this with skd }.deriveAeads cfg proposal rest).1 = false) ∧
        (this.deriveFrom cfg proposal prf prfPlus).skpBuild = this.skpBuild) ∨
      (this.deriveFrom cfg proposal prf prfPlus).KeyedFrom cfg proposal prf origin := by
  unfold deriveFrom
  dsimp only
  obtain ⟨hskd, hat⟩ := allocateBytes_spec hbuffer hat (skSize prf)
  rw [skSize] at hskd hat
  generalize prfPlus.allocateBytes (BitVec.ofNat 16 prf.keySize).toNat = first at *
  have hkept := skpBuild_deriveAeads cfg { this with skd := first.1 } proposal first.2
  have hfresh' : { this with skd := first.1 }.aeadIn = none := hfresh
  have haeads := deriveAeads_spec cfg proposal hfresh' hbuffer hat
  generalize hresult : { this with skd := first.1 }.deriveAeads cfg proposal first.2 = result at *
  obtain ⟨success, keymat, rest⟩ := result
  cases success
  · exact .inl ⟨⟨first.1, first.2, by rw [hresult]⟩, hkept⟩
  · obtain ⟨aeadI, aeadR, len, hderived, hkeymat, hat⟩ := haeads rfl
    obtain ⟨hpi, hat⟩ := allocateBytes_spec hbuffer hat (skSize prf)
    obtain ⟨hpr, -⟩ := allocateBytes_spec hbuffer hat (skSize prf)
    rw [Nat.zero_add] at *
    refine .inr ⟨aeadI, aeadR, len, hderived, ?_⟩
    dsimp only at hkeymat
    subst hkeymat
    simp only [setAeads, hrole, if_true, setSkp]
    exact ⟨hskd, trivial, trivial, hpi, hpr⟩

/-- The algorithms of an exchange are there. -/
structure Supports (cfg : CryptoFactory) (exchange : IkeExchange) : Prop where
  secret : exchange.dh.getSharedSecret.isSome = true
  prf : ∃ alg bits prf, exchange.proposal.getAlgorithm .pseudoRandomFunction = some (alg, bits) ∧
    cfg.createPrf alg = some prf ∧ skSize prf ≠ 0
  rekey : exchange.rekeyFunction = prfUndefined ∨
    (cfg.createPrf exchange.rekeyFunction).isSome = true
  aeads : ∃ alg bits, exchange.proposal.getAlgorithm .encryptionAlgorithm = some (alg, bits) ∧
    if encryptionAlgorithmIsAead alg then
      ∃ saltSize e, aeadSaltSize alg = some saltSize ∧
        cfg.createAead alg (bits.toNat / 8) saltSize = some e ∧ e < 2 ^ 16
    else ∃ intAlg intBits a e,
      exchange.proposal.getAlgorithm .integrityAlgorithm = some (intAlg, intBits) ∧
      cfg.createSigner intAlg = some a ∧ cfg.createCrypter alg (bits.toNat / 8) = some e ∧
      cfg.createIvGen alg = true

theorem hasAeads_setAeads (aeadI aeadR : KeyedAead) : (this.setAeads aeadI aeadR).hasAeads = true := by
  unfold setAeads hasAeads
  split_ifs <;> rfl

theorem deriveAeads_success (h : Supports cfg exchange) (this : KeymatV2) (prfPlus : PrfPlus) :
    (this.deriveAeads cfg exchange.proposal prfPlus).1 = true := by
  obtain ⟨alg, bits, halg, haeads⟩ := h.aeads
  unfold deriveAeads
  simp only [halg]
  split_ifs at haeads ⊢
  · obtain ⟨saltSize, e, hsalt, hcreate, hlt⟩ := haeads
    have hsize : (BitVec.ofNat 16 e).toNat = e := by
      rw [BitVec.toNat_ofNat, Nat.mod_eq_of_lt hlt]
    simp only [deriveIkeAead, hsalt, hcreate, hsize, ne_eq, not_true_eq_false, if_false]
    exact hasAeads_setAeads _ _
  · obtain ⟨intAlg, intBits, a, e, hint, hsigner, hcrypter, hiv⟩ := haeads
    simp only [hint, deriveIkeTraditional, hsigner, hcrypter, hiv, if_true]
    exact hasAeads_setAeads _ _

theorem ikePrfPlus_fresh {alg : U16} {secret : Chunk}
    (h : ikePrfPlus cfg exchange alg prf secret = some origin) :
    At origin origin 0 ∧ origin.buffer.length = origin.prf.blockSize := by
  unfold ikePrfPlus at h
  dsimp only at h
  split_ifs at h
  · cases h
    exact ⟨PrfPlus.at_create _ _ _ _, Prf.length_bytes _ _ _⟩
  · split at h
    · cases h
    · cases h
      exact ⟨PrfPlus.at_create _ _ _ _, Prf.length_bytes _ _ _⟩

/-- The keymat of an initiator has keys from the stream of the exchange. -/
def KeyedBy (cfg : CryptoFactory) (exchange : IkeExchange) (this : KeymatV2) : Prop :=
  ∃ secret alg bits prf origin, exchange.dh.getSharedSecret = some secret ∧
    exchange.proposal.getAlgorithm .pseudoRandomFunction = some (alg, bits) ∧
    cfg.createPrf alg = some prf ∧ ikePrfPlus cfg exchange alg prf secret = some origin ∧
    this.KeyedFrom cfg exchange.proposal prf origin

theorem KeyedBy.length_skp (h : this.KeyedBy cfg exchange) :
    this.skpBuild.length = this.skpVerify.length := by
  obtain ⟨_, _, _, _, _, -, -, -, -, _, _, _, -, -, -, -, hbuild, hverify⟩ := h
  rw [hbuild, hverify, PrfPlus.length_slice, PrfPlus.length_slice]

/-- **A success means that there are keys.** -/
theorem deriveIkeKeys_keyed
    (h : ((keymatV2Create true).deriveIkeKeys cfg exchange).1 = true) :
    ((keymatV2Create true).deriveIkeKeys cfg exchange).2.KeyedBy cfg exchange := by
  unfold deriveIkeKeys at *
  cases hsecret : exchange.dh.getSharedSecret with
  | none => simp [hsecret] at h
  | some secret =>
    simp only [hsecret] at h ⊢
    cases halg : exchange.proposal.getAlgorithm .pseudoRandomFunction with
    | none => simp [halg] at h
    | some algorithm =>
      simp only [halg] at h ⊢
      cases hprf : cfg.createPrf algorithm.1 with
      | none => simp [hprf] at h
      | some prf =>
        simp only [hprf] at h ⊢
        cases hplus : ikePrfPlus cfg exchange algorithm.1 prf secret with
        | none => simp [hplus] at h
        | some origin =>
          simp only [hplus] at h ⊢
          obtain ⟨hat, hbuffer⟩ := ikePrfPlus_fresh hplus
          have hrole : { keymatV2Create true with
              prfAlg := algorithm.1, prf := some prf }.initiator = true := rfl
          obtain ⟨-, hskp⟩ | hkeyed :=
            deriveFrom_cases cfg exchange.proposal prf hrole rfl hbuffer hat
          · rw [hskp] at h
            simp [keymatV2Create] at h
          · exact ⟨secret, algorithm.1, algorithm.2, prf, origin, hsecret, halg, hprf, hplus, hkeyed⟩

/-- **There are keys if there are the algorithms.** -/
theorem deriveIkeKeys_success (h : Supports cfg exchange) :
    ((keymatV2Create true).deriveIkeKeys cfg exchange).1 = true := by
  obtain ⟨secret, hsecret⟩ := Option.isSome_iff_exists.mp h.secret
  obtain ⟨alg, bits, prf, halg, hprf, hsize⟩ := h.prf
  obtain ⟨origin, hplus⟩ : ∃ origin, ikePrfPlus cfg exchange alg prf secret = some origin := by
    unfold ikePrfPlus
    dsimp only
    split_ifs with hrekey
    · exact ⟨_, rfl⟩
    · obtain ⟨rekeyPrf, hrekeyPrf⟩ := Option.isSome_iff_exists.mp (h.rekey.resolve_left hrekey)
      rw [hrekeyPrf]
      exact ⟨_, rfl⟩
  obtain ⟨hat, hbuffer⟩ := ikePrfPlus_fresh hplus
  have hrole : { keymatV2Create true with prfAlg := alg, prf := some prf }.initiator = true := rfl
  simp only [deriveIkeKeys, hsecret, halg, hprf, hplus]
  obtain ⟨⟨skd, rest, hfailed⟩, -⟩ | hkeyed :=
    deriveFrom_cases cfg exchange.proposal prf hrole rfl hbuffer hat
  · rw [deriveAeads_success h] at hfailed
    cases hfailed
  · obtain ⟨_, _, _, -, -, -, -, hbuild, hverify⟩ := hkeyed
    rw [hbuild, hverify, PrfPlus.length_slice, PrfPlus.length_slice]
    simp [hsize]

/-! ## Authentication data -/

/-- The outputs of a PRF for some inputs tell its keys of some length apart. -/
def Separates (prf : Prf) (len : ℕ) (inputs : Set Chunk) : Prop :=
  ∀ key key' input input', key.length = len → key'.length = len → input ∈ inputs → input' ∈ inputs →
    prf.bytes key input = prf.bytes key' input' → key = key'

/-- **What a peer signs is not what it verifies**, whatever it is about. -/
theorem octets_disagree {message message' nonce nonce' reserved reserved' octets : Chunk}
    {id id' : Identification} (hlen : this.skpBuild.length = this.skpVerify.length)
    (hprf : this.prf = some prf)
    (hseparates : Separates prf this.skpBuild.length {idOctets id reserved, idOctets id' reserved'})
    (hbuild : this.getAuthOctets false message nonce id reserved = some octets)
    (hverify : this.getAuthOctets true message' nonce' id' reserved' = some octets) :
    this.skpBuild = this.skpVerify := by
  simp only [getAuthOctets, hprf, Option.map_some, Option.some.injEq, if_true,
    Bool.false_eq_true, if_false] at hbuild hverify
  obtain ⟨-, heq⟩ := List.append_inj' (hbuild.trans hverify.symm) (by simp only [Prf.length_bytes])
  exact hseparates _ _ _ _ rfl hlen.symm (by simp) (by simp) heq

theorem Mirrors.getAuthOctets (h : this.Mirrors other) (verify : Bool) (message nonce : Chunk)
    (id : Identification) (reserved : Chunk) :
    this.getAuthOctets verify message nonce id reserved =
      other.getAuthOctets (!verify) message nonce id reserved := by
  unfold KeymatV2.getAuthOctets
  rw [h.prf]
  cases verify
  · simp [h.skpBuild]
  · simp [h.skpVerify]

theorem Mirrors.getPskSig (h : this.Mirrors other) (verify : Bool) (message nonce secret : Chunk)
    (id : Identification) (reserved : Chunk) :
    this.getPskSig verify message nonce secret id reserved =
      other.getPskSig (!verify) message nonce secret id reserved := by
  unfold KeymatV2.getPskSig
  rw [h.getAuthOctets, h.prf]
  cases verify
  · simp [h.skpBuild]
  · simp [h.skpVerify]

theorem Mirrors.deriveChildKeys (h : this.Mirrors other) (exchange : ChildExchange) :
    this.deriveChildKeys exchange = other.deriveChildKeys exchange := by
  unfold KeymatV2.deriveChildKeys
  rw [h.prf, h.skd]

end KeymatV2

def gcmFactory : CryptoFactory where
  createPrf alg := if alg = 5 then some prefixPrf else none
  createSigner _ := none
  createCrypter _ _ := none
  createAead alg keySize saltSize :=
    if alg = encrAesGcmIcv16 ∧ keySize = 16 then some (keySize + saltSize) else none
  createIvGen _ := true

def gcmExchange : IkeExchange where
  proposal := ((Proposal.create .ike 1).addAlgorithm .encryptionAlgorithm encrAesGcmIcv16 128).addAlgorithm
    .pseudoRandomFunction prfHmacSha2256 0
  dh := ⟨some [1, 2, 3]⟩
  nonceI := [4, 5]
  nonceR := [6, 7]
  id := ⟨2, 8, 9, true⟩
  rekeyFunction := prfUndefined
  rekeySkd := []

end StrongSwan
