import StrongSwan.Crypto.Proposal.Select

/-!
# The types of a proposal in a run

* `equals`, `clone`, `createFromString`; `Op`: what is done to a proposal.
* `Exact`: the types are sorted, without duplicates, and those of the transforms.
* `Exact.stripDh_iff`, `exact_checkProposal`: the two operations that may forget a type.
* `Exact.considered`: what `select` and `equals` look at.
* **`types_exact_iff`**: the runs in which the types are always exact.
-/

namespace StrongSwan

namespace Proposal

/-! ## Operations -/

/-- `algo_list_equals`, on the algorithms of a type -/
def algoListEquals : List (U16 × U16) → List (U16 × U16) → Bool
  | [], [] => true
  | [], _ :: _ => false
  | _ :: _, [] => false
  | (alg1, ks1) :: e1, (alg2, ks2) :: e2 =>
    if alg1 ≠ alg2 || ks1 ≠ ks2 then false else algoListEquals e1 e2

/-- `equals`, of two objects -/
def equals (this other : Proposal) : Bool :=
  (mergeTypes this other).all fun type =>
    algoListEquals (this.createEnumerator type) (other.createEnumerator type)

def clone (this : Proposal) : Proposal :=
  { create this.protocol 0 with
    transforms := this.transforms
    types := this.types
    spi := this.spi
    number := this.number }

/-- `proposal_create_from_string`, with the algorithms of the tokens that are recognized -/
def createFromString (protocol : ProtocolId) (tokens : List Entry) : Option Proposal :=
  if tokens = [] then none
  else
    let this := tokens.foldl (fun this token => this.addAlgorithm token.type token.alg token.keySize)
      (create protocol 0)
    this.checkProposal

/-- What is done to a proposal. The default constructors and the decoding of payloads add algorithms to
a proposal that was created. -/
inductive Op
  | addAlgorithm (type : TransformType) (alg keySize : U16)
  | promoteDhGroup (group : U16)
  | stripDh (keep : U16)
  | setSpi (spi : U64)
  | clone

def Op.run (this : Proposal) : Op → Proposal
  | addAlgorithm type alg keySize => this.addAlgorithm type alg keySize
  | promoteDhGroup group => (this.promoteDhGroup group).2
  | stripDh keep => this.stripDh keep
  | setSpi spi => { this with spi := spi }
  | clone => this.clone

/-- Where a proposal comes from. -/
inductive Start
  | create (protocol : ProtocolId) (number : ℕ)
  | createFromString (protocol : ProtocolId) (tokens : List Entry)

def Start.proposal : Start → Option Proposal
  | create protocol number => some (Proposal.create protocol number)
  | createFromString protocol tokens => Proposal.createFromString protocol tokens

/-- The proposal behind operations, if it was created. -/
def Start.run (start : Start) (ops : List Op) : Option Proposal :=
  start.proposal.map fun this => ops.foldl Op.run this

/-! ## Exact types -/

/-- The types are sorted, without duplicates, and those of the transforms. -/
structure Exact (this : Proposal) : Prop where
  ordered : Ordered this.types
  mem_iff : ∀ type, type ∈ this.types ↔ this.HasType type

namespace Exact

variable {this : Proposal}

theorem hasType_addAlgorithm {type t : TransformType} {alg keySize : U16} :
    (this.addAlgorithm type alg keySize).HasType t ↔ this.HasType t ∨ t = type := by
  constructor
  · rintro ⟨e, he, rfl⟩
    rcases List.mem_append.mp he with he | he
    · exact .inl ⟨e, he, rfl⟩
    · rw [List.mem_singleton.mp he]
      exact .inr rfl
  · rintro (⟨e, he, rfl⟩ | rfl)
    · exact ⟨e, List.mem_append_left _ he, rfl⟩
    · exact ⟨⟨t, alg, keySize⟩, List.mem_append_right _ List.mem_cons_self, rfl⟩

theorem addAlgorithm (h : Exact this) (type : TransformType) (alg keySize : U16) :
    Exact (this.addAlgorithm type alg keySize) where
  ordered := ordered_addType h.ordered
  mem_iff := fun t => by
    rw [hasType_addAlgorithm, ← h.mem_iff]
    exact mem_addType

theorem of_same {other : Proposal} (h : Exact this) (htypes : other.types = this.types)
    (hsame : ∀ type, other.HasType type ↔ this.HasType type) : Exact other where
  ordered := htypes ▸ h.ordered
  mem_iff := fun t => by rw [htypes, h.mem_iff, hsame]

theorem promoteDhGroup (h : Exact this) (group : U16) : Exact (this.promoteDhGroup group).2 := by
  unfold Proposal.promoteDhGroup
  dsimp only
  split_ifs with hany
  · obtain ⟨e, he, hgroup⟩ := List.any_eq_true.mp hany
    have htype := of_decide_eq_true (Bool.and_eq_true_iff.mp hgroup).1
    refine h.of_same rfl fun t => ⟨?_, ?_⟩
    · rintro ⟨e', he', rfl⟩
      rcases List.mem_cons.mp he' with rfl | he'
      · exact ⟨e, he, htype⟩
      · exact ⟨e', (List.mem_filter.mp he').1, rfl⟩
    · rintro ⟨e', he', rfl⟩
      by_cases hdh : e'.type = .diffieHellmanGroup
      · exact ⟨_, List.mem_cons_self, hdh.symm⟩
      · exact ⟨e', List.mem_cons_of_mem _ (List.mem_filter.mpr ⟨he', by simp [hdh]⟩), rfl⟩
  · exact h

/-- A type is removed: it must not occur any more. -/
theorem removeType_iff (this : Proposal) {type : TransformType} (hordered : Ordered this.types)
    (hmem : ∀ t, t ≠ type → (t ∈ this.types ↔ this.HasType t)) :
    Exact (this.removeType type) ↔ ¬this.HasType type := by
  constructor
  · intro h hoccurs
    have hremoved := (h.mem_iff type).mpr hoccurs
    exact ((mem_removeType hordered).mp hremoved).2 rfl
  · intro hnone
    refine ⟨ordered_removeType hordered type, fun t => ?_⟩
    rw [mem_removeType hordered]
    by_cases ht : t = type
    · rw [ht]
      exact iff_of_false (fun h => h.2 rfl) hnone
    · exact (and_iff_left ht).trans (hmem t ht)

theorem hasType_filter (this : Proposal) {type t : TransformType} (ht : t ≠ type)
    {keep : Entry → Bool} (hkeep : ∀ e : Entry, e.type ≠ type → keep e = true) :
    HasType { this with transforms := this.transforms.filter keep } t ↔ this.HasType t := by
  refine ⟨fun ⟨e, he, heq⟩ => ⟨e, (List.mem_filter.mp he).1, heq⟩,
    fun ⟨e, he, heq⟩ => ⟨e, List.mem_filter.mpr ⟨he, ?_⟩, heq⟩⟩
  exact hkeep e (heq ▸ ht)

theorem removeTransform (h : Exact this) (type : TransformType) :
    Exact (this.removeTransform type) := by
  refine (removeType_iff { this with transforms := this.transforms.filter (·.type ≠ type) } h.ordered
    fun t ht => ?_).mpr ?_
  · rw [hasType_filter this ht fun e he => decide_eq_true he]
    exact h.mem_iff t
  · rintro ⟨e, he, heq⟩
    exact of_decide_eq_true (List.mem_filter.mp he).2 heq

/-- **`strip_dh` forgets the type** if it is told to remove all groups, as it keeps NONE. -/
theorem stripDh_iff (h : Exact this) (keep : U16) :
    Exact (this.stripDh keep) ↔ ¬(keep = modpNone ∧ this.OffersNone) := by
  unfold Proposal.stripDh
  dsimp only
  generalize hq : ({ this with transforms := this.transforms.filter fun entry =>
    !(decide (entry.type = .diffieHellmanGroup) && decide (entry.alg ≠ keep)) } : Proposal) = q
  have hgroups : q.HasType .diffieHellmanGroup ↔
      ∃ e ∈ this.transforms, e.type = .diffieHellmanGroup ∧ e.alg = keep := by
    rw [← hq]
    constructor
    · rintro ⟨e, he, htype⟩
      obtain ⟨he, hkept⟩ := List.mem_filter.mp he
      exact ⟨e, he, htype, by simpa [htype] using hkept⟩
    · rintro ⟨e, he, htype, halg⟩
      exact ⟨e, List.mem_filter.mpr ⟨he, by simp [halg]⟩, htype⟩
  have hother (t : TransformType) (ht : t ≠ .diffieHellmanGroup) : t ∈ q.types ↔ q.HasType t := by
    rw [← hq, hasType_filter this ht fun e he => by simp [he]]
    exact h.mem_iff t
  have hordered : Ordered q.types := hq ▸ h.ordered
  have hfound : (this.transforms.any fun entry =>
      decide (entry.type = .diffieHellmanGroup) && decide (entry.alg = keep)) = true ↔
      q.HasType .diffieHellmanGroup := by
    rw [hgroups]
    simp
  by_cases hkeep : keep = modpNone
  · rw [if_pos (by simp [hkeep]), removeType_iff q hordered hother, hgroups, hkeep]
    exact not_congr ⟨fun h => ⟨rfl, h⟩, fun h => h.2⟩
  · have hnot : ¬(keep = modpNone ∧ this.OffersNone) := fun h => hkeep h.1
    refine iff_of_true ?_ hnot
    split_ifs with hremove
    · refine (removeType_iff q hordered hother).mpr fun hoccurs => ?_
      rw [hfound.mpr hoccurs] at hremove
      simp [hkeep] at hremove
    · have hoccurs : q.HasType .diffieHellmanGroup := by
        rw [← hfound]
        simpa [hkeep] using hremove
      refine ⟨hordered, fun t => ?_⟩
      by_cases ht : t = .diffieHellmanGroup
      · obtain ⟨e, he, htype, -⟩ := hgroups.mp hoccurs
        rw [ht]
        have hlisted : .diffieHellmanGroup ∈ this.types := (h.mem_iff _).mpr ⟨e, he, htype⟩
        exact iff_of_true (hq ▸ hlisted) hoccurs
      · exact hother t ht

/-! ### The check of a string -/

theorem addPrfs (h : Exact this) : Exact this.addPrfs := by
  unfold Proposal.addPrfs
  refine List.foldlRecOn _ _ h fun p h a _ => ?_
  cases integPrfMap.find? (·.1 = a.1) with
  | none => exact h
  | some prf => exact h.addAlgorithm _ _ _

theorem checkIke (h : Exact this) {q : Proposal} (hq : this.checkIke = some q) : Exact q := by
  unfold Proposal.checkIke at hq
  dsimp only at hq
  have hprf : Exact (if (this.getAlgorithm .pseudoRandomFunction).isNone then this.addPrfs else this) := by
    split_ifs
    · exact h.addPrfs
    · exact h
  revert hq hprf
  generalize (if (this.getAlgorithm .pseudoRandomFunction).isNone then this.addPrfs else this) = p
  intro hq hprf
  split_ifs at hq with _ hgroup
  cases hq
  refine hprf.of_same rfl fun t => ?_
  by_cases ht : t = .diffieHellmanGroup
  · -- only NONE is removed, and there is another group
    have hsome : HasType { p with transforms := p.transforms.filter fun entry =>
        !(decide (entry.type = .diffieHellmanGroup) && decide (entry.alg = modpNone)) }
        .diffieHellmanGroup := by
      by_contra hnone
      rw [getAlgorithm_eq_none hnone] at hgroup
      exact hgroup rfl
    rw [ht]
    refine iff_of_true hsome ?_
    obtain ⟨e, he, htype⟩ := hsome
    exact ⟨e, (List.mem_filter.mp he).1, htype⟩
  · exact hasType_filter p ht fun e he => by simp [he]

theorem checkEncryption (h : Exact this) {q : Proposal} (hq : this.checkEncryption = some q) :
    Exact q := by
  unfold Proposal.checkEncryption at hq
  dsimp only at hq
  split_ifs at hq
  · cases hq
    exact h.removeTransform _
  · cases hq
    exact h

theorem addEsn (h : Exact this) : Exact this.addEsn := by
  unfold Proposal.addEsn
  split_ifs
  · exact h.addAlgorithm _ _ _
  · exact h

end Exact

def IsGmac (entry : Entry) : Prop :=
  entry.type = .encryptionAlgorithm ∧ entry.alg = encrNullAuthAesGmac ∧
    (entry.keySize = 128 ∨ entry.keySize = 192 ∨ entry.keySize = 256)

theorem mapGmac_of_gmac {e : Entry} (h : IsGmac e) :
    ∃ e', mapGmac e = some e' ∧ e'.type = .integrityAlgorithm := by
  obtain ⟨htype, halg, hsize⟩ := h
  unfold mapGmac
  rw [if_pos htype, if_pos halg]
  split_ifs with h128 h192 h256
  · exact ⟨_, rfl, rfl⟩
  · exact ⟨_, rfl, rfl⟩
  · exact ⟨_, rfl, rfl⟩
  · exact absurd hsize (not_or.mpr ⟨h128, not_or.mpr ⟨h192, h256⟩⟩)

theorem mapGmac_cases {e e' : Entry} (h : mapGmac e = some e') :
    (e' = e ∧ e.type ≠ .encryptionAlgorithm) ∨ (e'.type = .integrityAlgorithm ∧ IsGmac e) := by
  unfold mapGmac at h
  split_ifs at h with htype halg h128 h192 h256
  · cases h
    exact .inr ⟨rfl, htype, halg, .inl h128⟩
  · cases h
    exact .inr ⟨rfl, htype, halg, .inr (.inl h192)⟩
  · cases h
    exact .inr ⟨rfl, htype, halg, .inr (.inr h256)⟩
  · exact .inl ⟨(Option.some.inj h).symm, htype⟩

theorem hasType_mapGmac (this : Proposal) {t : TransformType} :
    HasType { this with transforms := this.transforms.filterMap mapGmac } t ↔
      (this.HasType t ∧ t ≠ .encryptionAlgorithm) ∨
        (t = .integrityAlgorithm ∧ ∃ e ∈ this.transforms, IsGmac e) := by
  constructor
  · rintro ⟨e', he', rfl⟩
    obtain ⟨e, he, hmap⟩ := List.mem_filterMap.mp he'
    rcases mapGmac_cases hmap with ⟨rfl, hne⟩ | ⟨hinteg, hgmac⟩
    · exact .inl ⟨⟨e', he, rfl⟩, hne⟩
    · exact .inr ⟨hinteg, e, he, hgmac⟩
  · rintro (⟨⟨e, he, rfl⟩, hne⟩ | ⟨rfl, e, he, hgmac⟩)
    · exact ⟨e, List.mem_filterMap.mpr ⟨e, he, if_neg hne⟩, rfl⟩
    · obtain ⟨e', hmap, hinteg⟩ := mapGmac_of_gmac hgmac
      exact ⟨e', List.mem_filterMap.mpr ⟨e, he, hmap⟩, hinteg⟩

theorem isSome_getAlgorithm (this : Proposal) (t : TransformType) :
    (this.getAlgorithm t).isSome = true ↔ this.HasType t := by
  rw [getAlgorithm, List.isSome_head?, Ne, createEnumerator_eq_nil, not_not]

variable {this : Proposal}

/-- **An AH proposal forgets the type of integrity algorithms** if it has AES-GMAC only. -/
theorem checkIntegrity_spec (h : Exact this) :
    (this.checkIntegrity.isSome = true ↔
      this.HasType .integrityAlgorithm ∨ ∃ e ∈ this.transforms, IsGmac e) ∧
    ∀ q, this.checkIntegrity = some q → q.HasType .integrityAlgorithm ∧
      (.integrityAlgorithm ∈ q.types → this.HasType .integrityAlgorithm) ∧
      (this.HasType .integrityAlgorithm → Exact q) := by
  unfold Proposal.checkIntegrity
  dsimp only
  generalize hp : ({ this with transforms := this.transforms.filterMap mapGmac } : Proposal) = p
  have hoccurs (t : TransformType) := hp ▸ @hasType_mapGmac this t
  have hordered : Ordered p.types := hp ▸ h.ordered
  have htypes : p.types = this.types := hp ▸ rfl
  have hinteg : p.HasType .integrityAlgorithm ↔
      this.HasType .integrityAlgorithm ∨ ∃ e ∈ this.transforms, IsGmac e := by
    rw [hoccurs, and_iff_left (by decide), eq_self_iff_true, true_and]
  have hremoved : ((p.removeType .encryptionAlgorithm).getAlgorithm .integrityAlgorithm).isSome = true ↔
      p.HasType .integrityAlgorithm := isSome_getAlgorithm (p.removeType .encryptionAlgorithm) _
  have haccepted : ((p.removeType .encryptionAlgorithm).getAlgorithm .integrityAlgorithm).isNone = true ↔
      ¬p.HasType .integrityAlgorithm := by
    rw [← hremoved, Option.isNone_iff_eq_none, Option.not_isSome_iff_eq_none]
  by_cases hsome : p.HasType .integrityAlgorithm
  · rw [if_neg (mt haccepted.mp (not_not.mpr hsome))]
    refine ⟨iff_of_true rfl (hinteg.mp hsome), fun q hq => ?_⟩
    cases hq
    refine ⟨hsome, fun hmem => ?_, fun hexplicit => ?_⟩
    · have hlisted := ((mem_removeType hordered).mp hmem).1
      rwa [htypes, h.mem_iff] at hlisted
    · refine (Exact.removeType_iff p hordered fun t ht => ?_).mpr ?_
      · rw [htypes, h.mem_iff, hoccurs]
        refine ⟨fun hhas => .inl ⟨hhas, ht⟩, ?_⟩
        rintro (⟨hhas, -⟩ | ⟨rfl, -⟩)
        · exact hhas
        · exact hexplicit
      · rw [hoccurs]
        rintro (⟨-, hne⟩ | ⟨heq, -⟩)
        · exact hne rfl
        · exact absurd heq (by decide)
  · rw [if_pos (haccepted.mpr hsome)]
    exact ⟨iff_of_false Bool.false_ne_true (mt hinteg.mpr hsome), nofun⟩

/-- The algorithms of the tokens of a string. -/
def added (protocol : ProtocolId) (tokens : List Entry) : Proposal :=
  tokens.foldl (fun this token => this.addAlgorithm token.type token.alg token.keySize)
    (create protocol 0)

theorem exact_create (protocol : ProtocolId) (number : ℕ) : Exact (create protocol number) :=
  ⟨List.Pairwise.nil, fun _ => iff_of_false List.not_mem_nil fun ⟨_, he, _⟩ => List.not_mem_nil he⟩

theorem added_spec (protocol : ProtocolId) (tokens : List Entry) :
    Exact (added protocol tokens) ∧ (added protocol tokens).protocol = protocol ∧
      (added protocol tokens).transforms = tokens := by
  induction tokens using List.reverseRecOn with
  | nil => exact ⟨exact_create protocol 0, rfl, rfl⟩
  | append_singleton tokens token ih =>
    obtain ⟨hexact, hprotocol, htransforms⟩ := ih
    unfold added at hexact hprotocol htransforms ⊢
    rw [List.foldl_append, List.foldl_cons, List.foldl_nil]
    exact ⟨hexact.addAlgorithm _ _ _, hprotocol, congrArg (· ++ [token]) htransforms⟩

theorem protocol_addPrfs (this : Proposal) : this.addPrfs.protocol = this.protocol := by
  unfold addPrfs
  refine List.foldlRecOn (motive := fun p : Proposal => p.protocol = this.protocol) _ _ rfl fun p h a _ => ?_
  cases integPrfMap.find? (·.1 = a.1) with
  | none => exact h
  | some prf => exact h

theorem protocol_checkIke {this q : Proposal} (h : this.checkIke = some q) :
    q.protocol = this.protocol := by
  unfold checkIke at h
  dsimp only at h
  have hprf : (if (this.getAlgorithm .pseudoRandomFunction).isNone then this.addPrfs else this).protocol =
      this.protocol := by
    split_ifs
    · exact protocol_addPrfs this
    · rfl
  revert h hprf
  generalize (if (this.getAlgorithm .pseudoRandomFunction).isNone then this.addPrfs else this) = p
  intro h hprf
  split_ifs at h
  cases h
  exact hprf

/-- The last part of `check_proposal` -/
def finish (this : Proposal) : Proposal :=
  if this.protocol = .ah || this.protocol = .esp then this.addEsn else this

theorem Exact.finish (h : Exact this) : Exact this.finish := by
  unfold Proposal.finish
  split_ifs
  · exact h.addEsn
  · exact h

theorem exact_checkProposal {this q : Proposal} (h : Exact this)
    (hprotocol : this.protocol = .ike ∨ this.protocol = .esp) (hq : this.checkProposal = some q) :
    Exact q := by
  obtain ⟨p₂, hp₂, rfl⟩ := Option.map_eq_some_iff.mp hq
  obtain ⟨p₁, hp₁, hp₂⟩ := Option.bind_eq_some_iff.mp hp₂
  have hfirst : Exact p₁ ∧ p₁.protocol = this.protocol := by
    unfold checkPrf at hp₁
    split_ifs at hp₁
    · exact ⟨h.checkIke hp₁, protocol_checkIke hp₁⟩
    · cases hp₁
      exact ⟨h.removeTransform _, rfl⟩
  unfold checkCipher at hp₂
  rw [hfirst.2, if_pos (by simpa using hprotocol)] at hp₂
  exact (hfirst.1.checkEncryption hp₂).finish

theorem checkProposal_other (hike : this.protocol ≠ .ike)
    (hesp : this.protocol ≠ .esp) : this.checkProposal =
      (this.removeTransform .pseudoRandomFunction).checkIntegrity.map finish := by
  have hprf : this.checkPrf = some (this.removeTransform .pseudoRandomFunction) := if_neg hike
  have hcipher : (this.removeTransform .pseudoRandomFunction).checkCipher =
      (this.removeTransform .pseudoRandomFunction).checkIntegrity := by
    refine if_neg ?_
    change ¬(decide (this.protocol = .ike) || decide (this.protocol = .esp)) = true
    simp [hike, hesp]
  rw [checkProposal, hprf, Option.bind_some, hcipher]
  rfl

/-- Where a proposal forgets nothing from the beginning. -/
def Start.Keeps : Start → Prop
  | create _ _ => True
  | createFromString protocol tokens => protocol = .ike ∨ protocol = .esp ∨
    (∃ token ∈ tokens, token.type = .integrityAlgorithm) ∨ ∀ token ∈ tokens, ¬IsGmac token

theorem not_exact_finish (hoccurs : this.HasType .integrityAlgorithm)
    (hmissing : .integrityAlgorithm ∉ this.types) : ¬Exact this.finish := by
  intro h
  unfold Proposal.finish at h
  have hnot : ¬Exact this := fun h => hmissing ((h.mem_iff _).mpr hoccurs)
  split_ifs at h with hprotocol
  · unfold addEsn at h
    split_ifs at h
    · have hmem := (h.mem_iff .integrityAlgorithm).mpr (Exact.hasType_addAlgorithm.mpr (.inl hoccurs))
      rcases mem_addType.mp hmem with hmem | heq
      · exact hmissing hmem
      · exact absurd heq (by decide)
    · exact hnot h
  · exact hnot h

/-- **The check of a string** is where a type is forgotten: for AH, if there is AES-GMAC and no integrity
algorithm. -/
theorem createFromString_spec (protocol : ProtocolId) (tokens : List Entry) :
    (∀ q, createFromString protocol tokens = some q → Exact q) ↔
      (Start.createFromString protocol tokens).Keeps := by
  obtain ⟨hexact, hprotocol, htransforms⟩ := added_spec protocol tokens
  have hcreate (hne : tokens ≠ []) :
      createFromString protocol tokens = (added protocol tokens).checkProposal := if_neg hne
  have hnil (hempty : tokens = []) : createFromString protocol tokens = none := if_pos hempty
  change _ ↔ protocol = .ike ∨ protocol = .esp ∨
    (∃ token ∈ tokens, token.type = .integrityAlgorithm) ∨ ∀ token ∈ tokens, ¬IsGmac token
  by_cases hknown : protocol = .ike ∨ protocol = .esp
  · refine iff_of_true (fun q hq => ?_) (hknown.imp_right .inl)
    by_cases hempty : tokens = []
    · rw [hnil hempty] at hq
      cases hq
    · exact exact_checkProposal hexact (hprotocol.symm ▸ hknown) (hcreate hempty ▸ hq)
  · obtain ⟨hike, hesp⟩ := not_or.mp hknown
    have hcheck := checkProposal_other (hprotocol.symm ▸ hike) (hprotocol.symm ▸ hesp)
    have hinteg : ((added protocol tokens).removeTransform .pseudoRandomFunction).HasType
        .integrityAlgorithm ↔ ∃ token ∈ tokens, token.type = .integrityAlgorithm := by
      have hfilter := @Exact.hasType_filter (added protocol tokens) .pseudoRandomFunction
        .integrityAlgorithm (by decide) (·.type ≠ .pseudoRandomFunction) fun e he => decide_eq_true he
      refine hfilter.trans ?_
      rw [HasType, htransforms]
    have hgmac : (∃ e ∈ ((added protocol tokens).removeTransform .pseudoRandomFunction).transforms,
        IsGmac e) ↔ ∃ token ∈ tokens, IsGmac token := by
      refine ⟨fun ⟨e, he, hgmac⟩ => ⟨e, htransforms ▸ (List.mem_filter.mp he).1, hgmac⟩,
        fun ⟨e, he, hgmac⟩ => ⟨e, List.mem_filter.mpr ⟨?_, decide_eq_true ?_⟩, hgmac⟩⟩
      · rwa [htransforms]
      · rw [hgmac.1]
        decide
    obtain ⟨hsome, hspec⟩ := checkIntegrity_spec (hexact.removeTransform .pseudoRandomFunction)
    rw [hinteg, hgmac] at hsome
    rw [or_iff_right hike, or_iff_right hesp]
    constructor
    · intro hall
      by_contra hnot
      obtain ⟨hnone, htoken⟩ := not_or.mp hnot
      push Not at htoken
      have hempty : tokens ≠ [] := List.ne_nil_of_mem htoken.choose_spec.1
      obtain ⟨p, hp⟩ := Option.isSome_iff_exists.mp (hsome.mpr (.inr htoken))
      obtain ⟨hoccurs, hlisted, -⟩ := hspec p hp
      refine not_exact_finish hoccurs (fun hmem => hnone (hinteg.mp (hlisted hmem))) (hall _ ?_)
      rw [hcreate hempty, hcheck, hp, Option.map_some]
    · intro hkeeps q hq
      by_cases hempty : tokens = []
      · rw [hnil hempty] at hq
        cases hq
      · rw [hcreate hempty, hcheck] at hq
        obtain ⟨p, hp, rfl⟩ := Option.map_eq_some_iff.mp hq
        have haccepted := hsome.mp (Option.isSome_of_eq_some hp)
        have hexplicit : ∃ token ∈ tokens, token.type = .integrityAlgorithm :=
          hkeeps.elim id fun hnone => haccepted.elim id fun ⟨token, htoken, hgmac⟩ =>
            absurd hgmac (hnone token htoken)
        exact ((hspec p hp).2.2 (hinteg.mpr hexplicit)).finish

/-! ## What is looked at -/

theorem algoListEquals_iff (e1 e2 : List (U16 × U16)) : algoListEquals e1 e2 = true ↔ e1 = e2 := by
  induction e1 generalizing e2 with
  | nil =>
    cases e2 with
    | nil => exact iff_of_true rfl rfl
    | cons => exact iff_of_false Bool.false_ne_true nofun
  | cons a e1 ih =>
    cases e2 with
    | nil => exact iff_of_false Bool.false_ne_true nofun
    | cons b e2 =>
      obtain ⟨alg1, ks1⟩ := a
      obtain ⟨alg2, ks2⟩ := b
      rw [algoListEquals, List.cons.injEq, Prod.mk.injEq]
      by_cases hsame : alg1 = alg2 ∧ ks1 = ks2
      · rw [if_neg (by simp [hsame]), ih, and_iff_right hsame]
      · rw [if_pos (by rw [not_and_or] at hsame; simpa using hsame)]
        exact iff_of_false Bool.false_ne_true fun h => hsame h.1

/-- What `equals` and `select` look at: all transforms of the proposal, whatever the other one is. -/
structure Considered (this : Proposal) : Prop where
  equals : ∀ other : Proposal, this.equals other = true → ∀ type, this.HasType type →
    this.createEnumerator type = other.createEnumerator type
  equals_right : ∀ other : Proposal, other.equals this = true → ∀ type, this.HasType type →
    this.createEnumerator type = other.createEnumerator type
  select : ∀ other otherRemote priv, (selectProposal this other otherRemote priv).isSome = true →
    ∀ type, this.HasType type → Passes this other priv type
  select_right : ∀ other otherRemote priv,
    (selectProposal other this otherRemote priv).isSome = true →
    ∀ type, this.HasType type → Passes other this priv type

theorem equals_spec {this other : Proposal} (h : this.equals other = true) {t : TransformType}
    (ht : t ∈ this.types ∨ t ∈ other.types) : this.createEnumerator t = other.createEnumerator t :=
  (algoListEquals_iff _ _).mp (List.all_eq_true.mp h t (mem_mergeTypes.mpr ht))

theorem selectProposal_passes {this other : Proposal} {otherRemote priv : Bool}
    (hlisted : this.HasType .encryptionAlgorithm → other.HasType .encryptionAlgorithm →
      .encryptionAlgorithm ∈ this.types ∨ .encryptionAlgorithm ∈ other.types)
    (h : (selectProposal this other otherRemote priv).isSome = true) {t : TransformType}
    (ht : t ∈ this.types ∨ t ∈ other.types) : Passes this other priv t := by
  have hpasses : ∀ selected : Proposal, selected.transforms = [] →
      (selectTypes this other priv (mergeTypes this other) selected).isSome = true →
      Passes this other priv t := by
    intro selected hempty hsome
    have hnone : ¬selected.HasType .encryptionAlgorithm := by
      rintro ⟨e, he, -⟩
      rw [hempty] at he
      cases he
    have hcipher : CipherKnown this other priv (mergeTypes this other) selected := by
      by_cases hmem : .encryptionAlgorithm ∈ mergeTypes this other
      · exact .inl ⟨hmem, hnone⟩
      · refine .inr ⟨hmem, iff_of_false ?_ ?_⟩
        · rw [hasAead, getAlgorithm_eq_none hnone]
          exact Bool.false_ne_true
        · rintro ⟨e, he, -⟩
          obtain ⟨htype, hcommon⟩ := firstCommon_spec he
          exact hmem (mem_mergeTypes.mpr (hlisted ⟨e, hcommon.1, htype⟩ ⟨e, hcommon.2.1, htype⟩))
    by_contra hfails
    have hfail := (selectTypes_spec (ordered_mergeTypes this other) hcipher).1.mpr
      ⟨t, mem_mergeTypes.mpr ht, hfails⟩
    rw [hfail] at hsome
    cases hsome
  unfold selectProposal at h
  split_ifs at h
  · cases h
  · exact hpasses _ rfl h
  · exact hpasses _ rfl h

/-- **`select` and `equals` consider every transform** of a proposal the types of which are exact. -/
theorem Exact.considered (h : Exact this) : Considered this where
  equals := fun _ hequals t ht => equals_spec hequals (.inl ((h.mem_iff t).mpr ht))
  equals_right := fun _ hequals t ht => (equals_spec hequals (.inr ((h.mem_iff t).mpr ht))).symm
  select := fun _ _ _ hsome t ht => selectProposal_passes
    (fun hthis _ => .inl ((h.mem_iff _).mpr hthis)) hsome (.inl ((h.mem_iff t).mpr ht))
  select_right := fun _ _ _ hsome t ht => selectProposal_passes
    (fun _ hthis => .inr ((h.mem_iff _).mpr hthis)) hsome (.inr ((h.mem_iff t).mpr ht))

/-! ## Runs -/

/-- Where an operation forgets no type. -/
def Op.Keeps (this : Proposal) : Op → Prop
  | stripDh keep => ¬(keep = modpNone ∧ this.OffersNone)
  | addAlgorithm _ _ _ | promoteDhGroup _ | setSpi _ | clone => True

theorem exact_run_iff (h : Exact this) (op : Op) :
    Exact (op.run this) ↔ op.Keeps this := by
  cases op with
  | addAlgorithm type alg keySize => exact iff_of_true (h.addAlgorithm type alg keySize) trivial
  | promoteDhGroup group => exact iff_of_true (h.promoteDhGroup group) trivial
  | stripDh keep => exact h.stripDh_iff keep
  | setSpi spi => exact iff_of_true ⟨h.ordered, h.mem_iff⟩ trivial
  | clone => exact iff_of_true ⟨h.ordered, h.mem_iff⟩ trivial

/-- The types of a proposal are exact, and `select` and `equals` consider all its transforms. -/
def TypesExact (this : Proposal) : Prop := Exact this ∧ Considered this

/-- No operation forgets a type. -/
def Start.KeepsAll (start : Start) (ops : List Op) : Prop :=
  start.Keeps ∧ ∀ done op rest, ops = done ++ op :: rest →
    ∀ this, start.run done = some this → op.Keeps this

theorem exact_start_iff (start : Start) :
    (∀ this, start.proposal = some this → Exact this) ↔ start.Keeps := by
  cases start with
  | create protocol number =>
    refine iff_of_true (fun this hthis => ?_) trivial
    cases hthis
    exact exact_create protocol number
  | createFromString protocol tokens => exact createFromString_spec protocol tokens

theorem Start.run_append (start : Start) (done : List Op) (op : Op) :
    start.run (done ++ [op]) = (start.run done).map op.run := by
  unfold Start.run
  cases start.proposal with
  | none => rfl
  | some this => exact congrArg some List.foldl_append

/-- **The types of a proposal are exact in all states of a run** if and only if no operation forgets one:
the proposal is not made of a string for AH with AES-GMAC and no other integrity algorithm, and
`strip_dh` is not told to remove all groups where NONE is one of them. -/
theorem types_exact_iff (start : Start) (ops : List Op) :
    (∀ done, done <+: ops → ∀ this, start.run done = some this → TypesExact this) ↔
      start.KeepsAll ops := by
  constructor
  · intro h
    refine ⟨(exact_start_iff start).mp fun this hthis => ?_, ?_⟩
    · exact (h [] List.nil_prefix this (by rw [Start.run, hthis]; rfl)).1
    · rintro done op rest rfl this hthis
      have hbefore := h done (List.prefix_append _ _) this hthis
      have hrun : start.run (done ++ [op]) = some (op.run this) := by
        rw [Start.run_append, hthis, Option.map_some]
      have hbehind := h (done ++ [op]) ⟨rest, by simp⟩ _ hrun
      exact (exact_run_iff hbefore.1 op).mp hbehind.1
  · rintro ⟨hstart, hops⟩ done hdone
    have hexact : ∀ this, start.run done = some this → Exact this := by
      induction done using List.reverseRecOn with
      | nil =>
        intro this hthis
        refine (exact_start_iff start).mpr hstart this ?_
        rwa [Start.run, show (fun this : Proposal => List.foldl Op.run this []) = id from rfl,
          Option.map_id] at hthis
      | append_singleton done op ih =>
        intro this hthis
        obtain ⟨rest, rfl⟩ := hdone
        rw [Start.run_append] at hthis
        obtain ⟨before, hbefore, rfl⟩ := Option.map_eq_some_iff.mp hthis
        rw [List.append_assoc, List.singleton_append] at hops ih
        exact (exact_run_iff (ih (List.prefix_append _ _) before hbefore) op).mpr
          (hops done op rest rfl before hbefore)
    exact fun this hthis => ⟨hexact this hthis, (hexact this hthis).considered⟩

/-- Two AH proposals read from strings with AES-GMAC of different key sizes, and no other algorithm: the
integrity algorithm is not listed, the proposals are equal, and one is selected. And NONE is still a
transform of an ESP proposal when the DH groups were stripped, but not its type. -/
theorem not_types_exact :
    (∃ this, (Start.createFromString .ah [⟨.encryptionAlgorithm, encrNullAuthAesGmac, 128⟩]).run [] =
        some this ∧ ¬Exact this ∧ ∃ other,
      (Start.createFromString .ah [⟨.encryptionAlgorithm, encrNullAuthAesGmac, 256⟩]).run [] =
        some other ∧ this.equals other = true ∧
      this.getAlgorithm .integrityAlgorithm ≠ other.getAlgorithm .integrityAlgorithm ∧
      (selectProposal this other true false).isSome = true) ∧
    ∃ this, (Start.create .esp 1).run [.addAlgorithm .encryptionAlgorithm 12 128,
        .addAlgorithm .diffieHellmanGroup modpNone 0, .stripDh modpNone] = some this ∧ ¬Exact this := by
  refine ⟨⟨_, rfl, fun h => ?_, _, rfl, by decide, by decide, by decide⟩, _, rfl, fun h => ?_⟩
  · have hlisted := (h.mem_iff .integrityAlgorithm).mpr (by decide)
    revert hlisted
    decide
  · have hlisted := (h.mem_iff .diffieHellmanGroup).mpr (by decide)
    revert hlisted
    decide

end Proposal

end StrongSwan
