import Mathlib.Data.List.Find
import StrongSwan.Crypto.Proposal.Types

/-!
# Selecting a proposal

* `firstCommon`: the algorithm of a type that is preferred by one and offered by the other.
* `Required`: the types for which there has to be one.
* `selectAlgo_eq`, `selectTypes_spec`: one type, and all types in order.
* `Checked`, `Unmixed`: a proposal that was checked has no AEADs, or only these.
* **`selectProposal_exact`**: what is selected, and when.
-/

namespace StrongSwan

namespace Proposal

def HasType (this : Proposal) (type : TransformType) : Prop := ∃ e ∈ this.transforms, e.type = type

instance (this : Proposal) (type : TransformType) : Decidable (this.HasType type) :=
  inferInstanceAs (Decidable (∃ e ∈ this.transforms, e.type = type))

/-- Both offer an algorithm; private use only if requested. -/
def Common (this other : Proposal) (priv : Bool) (e : Entry) : Prop :=
  e ∈ this.transforms ∧ e ∈ other.transforms ∧ (priv = true ∨ e.alg.toNat < 1024)

instance (this other : Proposal) (priv : Bool) (e : Entry) : Decidable (Common this other priv e) :=
  inferInstanceAs (Decidable (_ ∧ _ ∧ _))

/-- The first algorithm of a type in the first proposal that the other offers as well. -/
def firstCommon (this other : Proposal) (priv : Bool) (type : TransformType) : Option Entry :=
  this.transforms.find? fun e => decide (e.type = type ∧ Common this other priv e)

def OffersNone (this : Proposal) : Prop := ∃ e ∈ this.transforms, NoGroup e

instance (this : Proposal) : Decidable this.OffersNone :=
  inferInstanceAs (Decidable (∃ e ∈ this.transforms,
    e.type = .diffieHellmanGroup ∧ e.alg = modpNone))

/-- A DH exchange is optional in ESP and AH: one side has no group, and the other proposes NONE. -/
def Waives (this other : Proposal) : Prop :=
  (this.protocol = .esp ∨ this.protocol = .ah) ∧
    (¬this.HasType .diffieHellmanGroup ∧ other.OffersNone ∨
      ¬other.HasType .diffieHellmanGroup ∧ this.OffersNone)

instance (this other : Proposal) : Decidable (Waives this other) :=
  inferInstanceAs (Decidable (_ ∧ _))

/-- The cipher to be chosen is an AEAD. -/
def ChosenAead (this other : Proposal) (priv : Bool) : Prop :=
  ∃ e, firstCommon this other priv .encryptionAlgorithm = some e ∧
    encryptionAlgorithmIsAead e.alg = true

instance (this other : Proposal) (priv : Bool) : Decidable (ChosenAead this other priv) :=
  decidable_of_iff ((firstCommon this other priv .encryptionAlgorithm).any
    fun e => encryptionAlgorithmIsAead e.alg) (by
      rw [Option.any_eq_true]
      exact Iff.rfl)

/-- An algorithm of the type has to be found. -/
structure Required (this other : Proposal) (priv : Bool) (type : TransformType) : Prop where
  occurs : this.HasType type ∨ other.HasType type
  integrity : type = .integrityAlgorithm → ¬ChosenAead this other priv
  group : type = .diffieHellmanGroup → ¬Waives this other

section Algorithms

variable {this other selected : Proposal} {priv : Bool} {type : TransformType}

theorem mem_createEnumerator {alg keySize : U16} :
    (alg, keySize) ∈ this.createEnumerator type ↔ ⟨type, alg, keySize⟩ ∈ this.transforms := by
  rw [createEnumerator, List.mem_map]
  constructor
  · rintro ⟨⟨t, a, k⟩, hmem, heq⟩
    obtain ⟨hmem, htype⟩ := List.mem_filter.mp hmem
    cases heq
    rwa [← show t = type from of_decide_eq_true htype]
  · exact fun h => ⟨⟨type, alg, keySize⟩, List.mem_filter.mpr ⟨h, decide_eq_true rfl⟩, rfl⟩

theorem createEnumerator_eq_nil : this.createEnumerator type = [] ↔ ¬this.HasType type := by
  rw [createEnumerator, List.map_eq_nil_iff, List.filter_eq_nil_iff]
  exact ⟨fun h ⟨e, he, htype⟩ => h e he (decide_eq_true htype),
    fun h e he htype => h ⟨e, he, of_decide_eq_true htype⟩⟩

theorem offers_iff {alg keySize : U16} {e : List (U16 × U16)} :
    offers priv alg keySize e = true ↔ (alg, keySize) ∈ e ∧ (priv = true ∨ alg.toNat < 1024) := by
  induction e with
  | nil => simp [offers]
  | cons a e ih =>
    have hprivate : (!priv && decide (alg ≥ 1024)) = false ↔ priv = true ∨ alg.toNat < 1024 := by
      rw [Bool.and_eq_false_iff, Bool.not_eq_false', decide_eq_false_iff_not]
      simp [BitVec.le_def]
    obtain ⟨alg2, ks2⟩ := a
    rw [offers]
    by_cases hsame : alg = alg2 ∧ keySize = ks2
    · obtain ⟨rfl, rfl⟩ := hsame
      rw [if_pos (by simp)]
      split_ifs with hskip
      · rw [ih]
        have hnot : ¬(priv = true ∨ alg.toNat < 1024) := fun h => by
          rw [hprivate.mpr h] at hskip
          exact Bool.false_ne_true hskip
        exact iff_of_false (fun h => hnot h.2) fun h => hnot h.2
      · rw [Bool.not_eq_true] at hskip
        exact iff_of_true rfl ⟨List.mem_cons_self, hprivate.mp hskip⟩
    · rw [if_neg (by simpa using hsame), ih, List.mem_cons, Prod.mk.injEq, or_iff_right hsame]

theorem firstMatch_eq (e1 e2 : List (U16 × U16)) :
    firstMatch priv e2 e1 = e1.find? fun a => offers priv a.1 a.2 e2 := by
  induction e1 with
  | nil => rfl
  | cons a e1 ih =>
    rw [firstMatch, List.find?_cons, ih]
    cases offers priv a.1 a.2 e2 <;> rfl

theorem firstMatch_createEnumerator :
    firstMatch priv (other.createEnumerator type) (this.createEnumerator type) =
      (firstCommon this other priv type).map fun e => (e.alg, e.keySize) := by
  have hthis : this.createEnumerator type =
      (this.transforms.filter (·.type = type)).map fun entry => (entry.alg, entry.keySize) := rfl
  rw [firstMatch_eq, hthis, List.find?_map, List.find?_filter, firstCommon]
  congr 1
  refine List.find?_congr fun e he => ?_
  refine decide_eq_decide.mpr (Iff.trans (and_congr_left' decide_eq_true_iff) ?_)
  refine and_congr_right fun htype => ?_
  rw [Function.comp_apply, offers_iff, mem_createEnumerator]
  subst htype
  exact ⟨fun h => ⟨he, h⟩, fun h => h.2⟩

theorem firstCommon_eq_none :
    firstCommon this other priv type = none ↔ ∀ e, Common this other priv e → e.type ≠ type := by
  rw [firstCommon, List.find?_eq_none]
  exact ⟨fun h e hcommon htype => h e hcommon.1 (decide_eq_true ⟨htype, hcommon⟩),
    fun h e _ he => h e (of_decide_eq_true he).2 (of_decide_eq_true he).1⟩

theorem firstCommon_spec {e : Entry} (h : firstCommon this other priv type = some e) :
    e.type = type ∧ Common this other priv e := by
  have hfound := List.find?_some h
  exact of_decide_eq_true hfound

/-- There is nothing to select for a type. -/
def Idle (this other : Proposal) (type : TransformType) : Prop :=
  (¬this.HasType type ∧ ¬other.HasType type) ∨ type = .diffieHellmanGroup ∧ Waives this other

instance (this other : Proposal) (type : TransformType) : Decidable (Idle this other type) :=
  inferInstanceAs (Decidable (_ ∨ _))

theorem proposesNone_iff :
    proposesNone (this.createEnumerator .diffieHellmanGroup) = true ↔ this.OffersNone := by
  rw [proposesNone, List.any_eq_true]
  constructor
  · rintro ⟨⟨alg, keySize⟩, hmem, hnone⟩
    exact ⟨_, mem_createEnumerator.mp hmem, rfl, of_decide_eq_true hnone⟩
  · rintro ⟨⟨t, alg, keySize⟩, hmem, rfl, hnone⟩
    exact ⟨(alg, keySize), mem_createEnumerator.mpr hmem, decide_eq_true hnone⟩

theorem nothingToSelect_iff :
    nothingToSelect (type = .diffieHellmanGroup && (this.protocol = .esp || this.protocol = .ah))
      (this.createEnumerator type) (other.createEnumerator type) = true ↔ Idle this other type := by
  have hoptional : (decide (type = .diffieHellmanGroup) &&
      (decide (this.protocol = .esp) || decide (this.protocol = .ah))) = true ↔
      type = .diffieHellmanGroup ∧ (this.protocol = .esp ∨ this.protocol = .ah) := by simp
  cases h1 : this.createEnumerator type with
  | nil =>
    have hthis := createEnumerator_eq_nil.mp h1
    cases h2 : other.createEnumerator type with
    | nil => exact iff_of_true rfl (.inl ⟨hthis, createEnumerator_eq_nil.mp h2⟩)
    | cons a e2 =>
      have hother : other.HasType type := by
        by_contra hnone
        rw [createEnumerator_eq_nil.mpr hnone] at h2
        cases h2
      rw [nothingToSelect, Bool.and_eq_true, hoptional, ← h2]
      · constructor
        · rintro ⟨⟨rfl, hprotocol⟩, hnone⟩
          exact .inr ⟨rfl, hprotocol, .inl ⟨hthis, proposesNone_iff.mp hnone⟩⟩
        · rintro (⟨-, hnot⟩ | ⟨rfl, hprotocol, ⟨-, hnone⟩ | ⟨hnot, -⟩⟩)
          · exact absurd hother hnot
          · exact ⟨⟨rfl, hprotocol⟩, proposesNone_iff.mpr hnone⟩
          · exact absurd hother hnot
      · nofun
  | cons a e1 =>
    have hthis : this.HasType type := by
      by_contra hnone
      rw [createEnumerator_eq_nil.mpr hnone] at h1
      cases h1
    cases h2 : other.createEnumerator type with
    | nil =>
      have hother := createEnumerator_eq_nil.mp h2
      rw [nothingToSelect, Bool.and_eq_true, hoptional, ← h1]
      · constructor
        · rintro ⟨⟨rfl, hprotocol⟩, hnone⟩
          exact .inr ⟨rfl, hprotocol, .inr ⟨hother, proposesNone_iff.mp hnone⟩⟩
        · rintro (⟨hnot, -⟩ | ⟨rfl, hprotocol, ⟨hnot, -⟩ | ⟨-, hnone⟩⟩)
          · exact absurd hthis hnot
          · exact absurd hthis hnot
          · exact ⟨⟨rfl, hprotocol⟩, proposesNone_iff.mpr hnone⟩
      · nofun
    | cons b e2 =>
      have hother : other.HasType type := by
        by_contra hnone
        rw [createEnumerator_eq_nil.mpr hnone] at h2
        cases h2
      refine iff_of_false Bool.false_ne_true ?_
      rintro (⟨hnot, -⟩ | ⟨rfl, -, ⟨hnot, -⟩ | ⟨hnot, -⟩⟩)
      · exact hnot hthis
      · exact hnot hthis
      · exact hnot hother

/-- **One type**: nothing is to be selected, or the first common algorithm. -/
theorem selectAlgo_eq : selectAlgo this other selected type priv =
    if (type = .integrityAlgorithm ∧ selected.hasAead = true) ∨ Idle this other type then
      (true, selected)
    else
      match firstCommon this other priv type with
      | some e => (true, selected.addAlgorithm e.type e.alg e.keySize)
      | none => (false, selected) := by
  unfold selectAlgo
  by_cases haead : type = .integrityAlgorithm ∧ selected.hasAead = true
  · rw [if_pos (by simpa using haead), if_pos (.inl haead)]
  · rw [if_neg (by simpa using haead)]
    dsimp only
    by_cases hidle : Idle this other type
    · rw [if_pos (nothingToSelect_iff.mpr hidle), if_pos (.inr hidle)]
    · rw [if_neg (fun h => hidle (nothingToSelect_iff.mp h)), if_neg (not_or.mpr ⟨haead, hidle⟩),
        firstMatch_createEnumerator]
      cases hfirst : firstCommon this other priv type with
      | none => rfl
      | some e =>
        obtain ⟨rfl, -⟩ := firstCommon_spec hfirst
        rfl

theorem Idle.firstCommon (h : Idle this other type) : firstCommon this other priv type = none := by
  rw [firstCommon_eq_none]
  rintro e ⟨hthis, hother, -⟩ rfl
  rcases h with ⟨hnone, -⟩ | ⟨htype, -, ⟨hnone, -⟩ | ⟨hnone, -⟩⟩
  · exact hnone ⟨e, hthis, rfl⟩
  · exact hnone ⟨e, hthis, htype⟩
  · exact hnone ⟨e, hother, htype⟩

theorem getAlgorithm_eq_none (h : ¬this.HasType type) : this.getAlgorithm type = none := by
  rw [getAlgorithm, createEnumerator_eq_nil.mpr h, List.head?_nil]

theorem getAlgorithm_addAlgorithm (h : ¬this.HasType type) (alg keySize : U16) :
    (this.addAlgorithm type alg keySize).getAlgorithm type = some (alg, keySize) := by
  have happend : (this.addAlgorithm type alg keySize).createEnumerator type =
      this.createEnumerator type ++ [(alg, keySize)] := by
    simp [createEnumerator, addAlgorithm]
  rw [getAlgorithm, happend, createEnumerator_eq_nil.mpr h]
  rfl

theorem createEnumerator_addAlgorithm_of_ne {t : TransformType} (h : type ≠ t) (alg keySize : U16) :
    (this.addAlgorithm type alg keySize).createEnumerator t = this.createEnumerator t := by
  simp [createEnumerator, addAlgorithm, h]

end Algorithms

/-! ## All types -/

section Types

variable {this other : Proposal} {priv : Bool}

/-- An algorithm is found, or none is needed. -/
def Passes (this other : Proposal) (priv : Bool) (type : TransformType) : Prop :=
  (type = .integrityAlgorithm ∧ ChosenAead this other priv) ∨ Idle this other type ∨
    ∃ e, firstCommon this other priv type = some e

/-- What is selected for a type. -/
def entriesOf (this other : Proposal) (priv : Bool) (type : TransformType) : List Entry :=
  if type = .integrityAlgorithm ∧ ChosenAead this other priv then []
  else (firstCommon this other priv type).toList

/-- The cipher was chosen already, or will be. -/
def CipherKnown (this other : Proposal) (priv : Bool) (types : List TransformType)
    (selected : Proposal) : Prop :=
  (.encryptionAlgorithm ∈ types ∧ ¬selected.HasType .encryptionAlgorithm) ∨
    (.encryptionAlgorithm ∉ types ∧ (selected.hasAead = true ↔ ChosenAead this other priv))

variable {types : List TransformType} {selected : Proposal}

theorem CipherKnown.integrity
    (h : CipherKnown this other priv (.integrityAlgorithm :: types) selected)
    (hordered : Ordered (.integrityAlgorithm :: types)) :
    selected.hasAead = true ↔ ChosenAead this other priv := by
  rcases h with ⟨hmem, -⟩ | ⟨-, haead⟩
  · rcases List.mem_cons.mp hmem with heq | hmem
    · exact absurd heq (by decide)
    · exact absurd (List.rel_of_pairwise_cons hordered hmem) (by decide)
  · exact haead

variable {type : TransformType}

theorem CipherKnown.skip
    (h : CipherKnown this other priv (type :: types) selected) (hordered : Ordered (type :: types))
    (hidle : type = .encryptionAlgorithm → Idle this other type) :
    CipherKnown this other priv types selected := by
  rcases h with ⟨hmem, hnone⟩ | ⟨hmem, haead⟩
  · rcases List.mem_cons.mp hmem with rfl | hmem
    · have hnot : .encryptionAlgorithm ∉ types := (List.nodup_cons.mp hordered.nodup).1
      refine .inr ⟨hnot, iff_of_false ?_ ?_⟩
      · rw [hasAead, getAlgorithm_eq_none hnone]
        exact Bool.false_ne_true
      · rintro ⟨e, he, -⟩
        rw [(hidle rfl).firstCommon] at he
        cases he
    · exact .inl ⟨hmem, hnone⟩
  · exact .inr ⟨fun h => hmem (List.mem_cons_of_mem _ h), haead⟩

theorem CipherKnown.add
    (h : CipherKnown this other priv (type :: types) selected) (hordered : Ordered (type :: types))
    {e : Entry} (he : firstCommon this other priv type = some e) :
    CipherKnown this other priv types (selected.addAlgorithm e.type e.alg e.keySize) := by
  obtain ⟨rfl, -⟩ := firstCommon_spec he
  by_cases htype : e.type = .encryptionAlgorithm
  · rw [htype] at h hordered he
    have hnot : .encryptionAlgorithm ∉ types := (List.nodup_cons.mp hordered.nodup).1
    rcases h with ⟨-, hnone⟩ | ⟨hmem, -⟩
    · refine .inr ⟨hnot, ?_⟩
      rw [htype, hasAead, getAlgorithm_addAlgorithm hnone]
      exact ⟨fun haead => ⟨e, he, haead⟩, fun ⟨e', he', haead⟩ => by
        cases he.symm.trans he'
        exact haead⟩
    · exact absurd List.mem_cons_self hmem
  · have hsame : (selected.addAlgorithm e.type e.alg e.keySize).createEnumerator
        .encryptionAlgorithm = selected.createEnumerator .encryptionAlgorithm :=
      createEnumerator_addAlgorithm_of_ne htype _ _
    rcases h with ⟨hmem, hnone⟩ | ⟨hmem, haead⟩
    · refine .inl ⟨(List.mem_cons.mp hmem).resolve_left (Ne.symm htype), ?_⟩
      rwa [← createEnumerator_eq_nil, hsame, createEnumerator_eq_nil]
    · refine .inr ⟨fun h => hmem (List.mem_cons_of_mem _ h), ?_⟩
      rwa [hasAead, getAlgorithm, hsame]

theorem exists_fails_cons
    (h : Passes this other priv type) : (∃ t ∈ type :: types, ¬Passes this other priv t) ↔
      ∃ t ∈ types, ¬Passes this other priv t := by
  simp only [List.mem_cons, exists_eq_or_imp, not_not.mpr h, false_or]

/-- **All types**: each needs to pass, and what is selected for it is added. -/
theorem selectTypes_spec
    (hordered : Ordered types) (hcipher : CipherKnown this other priv types selected) :
    (selectTypes this other priv types selected = none ↔ ∃ t ∈ types, ¬Passes this other priv t) ∧
      ∀ result, selectTypes this other priv types selected = some result →
        result.transforms = selected.transforms ++ types.flatMap (entriesOf this other priv) := by
  induction types generalizing selected with
  | nil =>
    refine ⟨iff_of_false nofun fun ⟨t, ht, _⟩ => absurd ht List.not_mem_nil, fun result h => ?_⟩
    cases h
    rw [List.flatMap_nil, List.append_nil]
  | cons type types ih =>
    have htail : Ordered types := hordered.of_cons
    have hinteg : type = .integrityAlgorithm →
        (selected.hasAead = true ↔ ChosenAead this other priv) := by
      rintro rfl
      exact hcipher.integrity hordered
    rw [selectTypes, selectAlgo_eq]
    by_cases hskip : (type = .integrityAlgorithm ∧ selected.hasAead = true) ∨ Idle this other type
    · rw [if_pos hskip]
      have hpasses : Passes this other priv type := by
        rcases hskip with ⟨htype, haead⟩ | hidle
        · exact .inl ⟨htype, (hinteg htype).mp haead⟩
        · exact .inr (.inl hidle)
      have hnone : entriesOf this other priv type = [] := by
        unfold entriesOf
        split_ifs with haead
        · rfl
        · rcases hskip with ⟨htype, hselected⟩ | hidle
          · exact absurd ⟨htype, (hinteg htype).mp hselected⟩ haead
          · rw [hidle.firstCommon]
            rfl
      have hrest := ih htail (hcipher.skip hordered fun htype => hskip.resolve_left fun h => by
        rw [htype] at h
        exact absurd h.1 (by decide))
      dsimp only
      rw [exists_fails_cons hpasses, List.flatMap_cons, hnone]
      exact hrest
    · rw [if_neg hskip]
      cases hfirst : firstCommon this other priv type with
      | none =>
        refine ⟨iff_of_true rfl ⟨type, List.mem_cons_self, ?_⟩, nofun⟩
        rintro (⟨htype, haead⟩ | hidle | ⟨e, he⟩)
        · exact hskip (.inl ⟨htype, (hinteg htype).mpr haead⟩)
        · exact hskip (.inr hidle)
        · cases hfirst.symm.trans he
      | some e =>
        have hrest := ih htail (hcipher.add hordered hfirst)
        have hentries : entriesOf this other priv type = [e] := by
          unfold entriesOf
          rw [if_neg fun h => hskip (.inl ⟨h.1, (hinteg h.1).mpr h.2⟩), hfirst]
          rfl
        dsimp only
        rw [exists_fails_cons (.inr (.inr ⟨e, hfirst⟩)), List.flatMap_cons, hentries,
          ← List.append_assoc]
        exact hrest

theorem type_entriesOf {e : Entry} (h : e ∈ entriesOf this other priv type) :
    e.type = type := by
  unfold entriesOf at h
  split_ifs at h
  · cases h
  · exact (firstCommon_spec (Option.mem_toList.mp h)).1

theorem filter_entriesOf (hnodup : types.Nodup) (t : TransformType) :
    (types.flatMap (entriesOf this other priv)).filter (·.type = t) =
      if t ∈ types then entriesOf this other priv t else [] := by
  induction types with
  | nil => rfl
  | cons type types ih =>
    obtain ⟨hnot, hnodup⟩ := List.nodup_cons.mp hnodup
    rw [List.flatMap_cons, List.filter_append, ih hnodup]
    by_cases htype : type = t
    · subst htype
      rw [if_neg hnot, if_pos List.mem_cons_self, List.append_nil, List.filter_eq_self]
      exact fun e he => decide_eq_true (type_entriesOf he)
    · have hnone : (entriesOf this other priv type).filter (·.type = t) = [] := by
        rw [List.filter_eq_nil_iff]
        intro e he heq
        exact htype ((type_entriesOf he).symm.trans (of_decide_eq_true heq))
      rw [hnone, List.nil_append]
      congr 1
      rw [List.mem_cons, or_iff_right (Ne.symm htype)]

theorem passes_iff_or : Passes this other priv type ↔
    (Required this other priv type → ∃ e, firstCommon this other priv type = some e) := by
  constructor
  · rintro (⟨htype, haead⟩ | (⟨hthis, hother⟩ | ⟨htype, hwaives⟩) | hfirst) hrequired
    · exact absurd haead (hrequired.integrity htype)
    · exact absurd hrequired.occurs (not_or.mpr ⟨hthis, hother⟩)
    · exact absurd hwaives (hrequired.group htype)
    · exact hfirst
  · intro h
    by_contra hfails
    obtain ⟨haead, hfails⟩ := not_or.mp hfails
    obtain ⟨hidle, hfirst⟩ := not_or.mp hfails
    obtain ⟨hoccurs, hwaives⟩ := not_or.mp hidle
    refine hfirst (h ⟨?_, fun htype h => haead ⟨htype, h⟩, fun htype h => hwaives ⟨htype, h⟩⟩)
    rwa [not_and_or, not_not, not_not] at hoccurs

end Types

/-! ## Checked proposals -/

/-- A proposal that passed its check. -/
inductive Checked : Proposal → Prop
  | checkProposal {p q : Proposal} : p.checkProposal = some q → Checked q
  | promoteDhGroup {p : Proposal} (group : U16) : Checked p → Checked (p.promoteDhGroup group).2
  | stripDh {p : Proposal} (keep : U16) : Checked p → Checked (p.stripDh keep)

/-- There are no AEADs besides other encryption algorithms. -/
def Unmixed (this : Proposal) : Prop :=
  ∀ e ∈ this.transforms, ∀ e' ∈ this.transforms, e.type = .encryptionAlgorithm →
    e'.type = .encryptionAlgorithm →
    encryptionAlgorithmIsAead e.alg = encryptionAlgorithmIsAead e'.alg

theorem Unmixed.mono {p q : Proposal} (h : Unmixed p)
    (hsub : ∀ e ∈ q.transforms, e.type = .encryptionAlgorithm → e ∈ p.transforms) : Unmixed q :=
  fun e he e' he' htype htype' => h e (hsub e he htype) e' (hsub e' he' htype') htype htype'

theorem unmixed_checkEncryption {p q : Proposal} (h : p.checkEncryption = some q) : Unmixed q := by
  have hunmixed : ¬((p.createEnumerator .encryptionAlgorithm).any
      fun a => encryptionAlgorithmIsAead a.1) = true ∨ ((p.createEnumerator .encryptionAlgorithm).all
      fun a => encryptionAlgorithmIsAead a.1) = true → Unmixed p := by
    have hmem : ∀ e ∈ p.transforms, e.type = .encryptionAlgorithm →
        (e.alg, e.keySize) ∈ p.createEnumerator .encryptionAlgorithm := by
      rintro ⟨t, alg, keySize⟩ he rfl
      exact mem_createEnumerator.mpr he
    rintro (hnone | hall) e he e' he' htype htype'
    · rw [Bool.not_eq_true, List.any_eq_false] at hnone
      rw [Bool.eq_false_iff.mpr (hnone _ (hmem e he htype)),
        Bool.eq_false_iff.mpr (hnone _ (hmem e' he' htype'))]
    · rw [List.all_eq_true] at hall
      rw [hall _ (hmem e he htype), hall _ (hmem e' he' htype')]
  unfold checkEncryption at h
  dsimp only at h
  split_ifs at h with hempty hmixed hall hinteg
  · cases h
    exact (hunmixed (.inr hall)).mono fun e he _ => (List.mem_filter.mp he).1
  · cases h
    refine hunmixed (.inl fun hany => hmixed ?_)
    simpa [hany] using hall

theorem unmixed_checkIntegrity {p q : Proposal} (h : p.checkIntegrity = some q) : Unmixed q := by
  unfold checkIntegrity at h
  dsimp only at h
  split_ifs at h
  cases h
  intro e he _ _ htype
  obtain ⟨e', -, hmap⟩ := List.mem_filterMap.mp he
  unfold mapGmac at hmap
  split_ifs at hmap with hencr
  · cases hmap
    cases htype
  · cases hmap
    cases htype
  · cases hmap
    cases htype
  · cases hmap
    exact absurd htype hencr

theorem Checked.unmixed {p : Proposal} (h : Checked p) : Unmixed p := by
  induction h with
  | checkProposal hq =>
    obtain ⟨q, hcipher, rfl⟩ := Option.map_eq_some_iff.mp hq
    obtain ⟨p, -, hq⟩ := Option.bind_eq_some_iff.mp hcipher
    have hunmixed : Unmixed q := by
      unfold checkCipher at hq
      split_ifs at hq
      · exact unmixed_checkEncryption hq
      · exact unmixed_checkIntegrity hq
    split_ifs
    · refine hunmixed.mono fun e he htype => ?_
      unfold addEsn at he
      split_ifs at he
      · rcases List.mem_append.mp he with he | he
        · exact he
        · rw [List.mem_singleton.mp he] at htype
          exact absurd htype (by decide)
      · exact he
    · exact hunmixed
  | promoteDhGroup group _ ih =>
    refine ih.mono fun e he htype => ?_
    unfold Proposal.promoteDhGroup at he
    dsimp only at he
    split_ifs at he
    · rcases List.mem_cons.mp he with rfl | he
      · exact absurd htype (show (⟨4⟩ : TransformType) ≠ ⟨1⟩ by decide)
      · exact (List.mem_filter.mp he).1
    · exact he
  | stripDh keep _ ih =>
    refine ih.mono fun e he _ => ?_
    unfold Proposal.stripDh at he
    dsimp only at he
    split_ifs at he
    · exact (List.mem_filter.mp he).1
    · exact (List.mem_filter.mp he).1

section Exactness

variable {this other : Proposal} {priv : Bool}

theorem Common.symm {e : Entry} (h : Common this other priv e) : Common other this priv e :=
  ⟨h.2.1, h.1, h.2.2⟩

theorem exists_firstCommon_symm {type : TransformType}
    (h : ∃ e, firstCommon this other priv type = some e) :
    ∃ e, firstCommon other this priv type = some e := by
  obtain ⟨e, he⟩ := h
  obtain ⟨htype, hcommon⟩ := firstCommon_spec he
  rw [← Option.isSome_iff_exists, Option.isSome_iff_ne_none]
  exact fun hnone => firstCommon_eq_none.mp hnone e hcommon.symm htype

theorem ChosenAead.symm (h : ChosenAead this other priv) (hunmixed : Unmixed this ∨ Unmixed other) :
    ChosenAead other this priv := by
  obtain ⟨e, he, haead⟩ := h
  obtain ⟨e', he'⟩ := exists_firstCommon_symm ⟨e, he⟩
  obtain ⟨htype, hcommon⟩ := firstCommon_spec he
  obtain ⟨htype', hcommon'⟩ := firstCommon_spec he'
  refine ⟨e', he', ?_⟩
  rcases hunmixed with hthis | hother
  · rw [← hthis e hcommon.1 e' hcommon'.2.1 htype htype', haead]
  · rw [← hother e hcommon.2.1 e' hcommon'.1 htype htype', haead]

theorem Waives.symm (h : Waives this other) (hprotocol : this.protocol = other.protocol) :
    Waives other this := ⟨hprotocol ▸ h.1, h.2.symm⟩

theorem Passes.symm {type : TransformType} (h : Passes this other priv type)
    (hprotocol : this.protocol = other.protocol) (hunmixed : Unmixed this ∨ Unmixed other) :
    Passes other this priv type := by
  rcases h with ⟨htype, haead⟩ | (⟨hthis, hother⟩ | ⟨htype, hwaives⟩) | hfirst
  · exact .inl ⟨htype, haead.symm hunmixed⟩
  · exact .inr (.inl (.inl ⟨hother, hthis⟩))
  · exact .inr (.inl (.inr ⟨htype, hwaives.symm hprotocol⟩))
  · exact .inr (.inr (exists_firstCommon_symm hfirst))

/-- One of the two proposals lists each type that occurs. -/
def Listed (this other : Proposal) : Prop :=
  ∀ t, this.HasType t ∨ other.HasType t → t ∈ this.types ∨ t ∈ other.types

theorem selectProposal_spec (hprotocol : this.protocol = other.protocol) (hlisted : Listed this other)
    (otherRemote : Bool) :
    (selectProposal this other otherRemote priv = none ↔ ∃ t, ¬Passes this other priv t) ∧
      ∀ selected, selectProposal this other otherRemote priv = some selected →
        ∀ t, selected.transforms.filter (·.type = t) = entriesOf this other priv t := by
  have hmerged : ∀ t, t ∉ mergeTypes this other → ¬this.HasType t ∧ ¬other.HasType t := by
    intro t hnot
    rw [← not_or]
    exact fun hoccurs => hnot (mem_mergeTypes.mpr (hlisted t hoccurs))
  have hstart : ∀ selected : Proposal, selected.transforms = [] →
      CipherKnown this other priv (mergeTypes this other) selected := by
    intro selected hempty
    have hnone : ¬selected.HasType .encryptionAlgorithm := by
      rintro ⟨e, he, -⟩
      rw [hempty] at he
      cases he
    by_cases hmem : .encryptionAlgorithm ∈ mergeTypes this other
    · exact .inl ⟨hmem, hnone⟩
    · refine .inr ⟨hmem, iff_of_false ?_ ?_⟩
      · rw [hasAead, getAlgorithm_eq_none hnone]
        exact Bool.false_ne_true
      · rintro ⟨e, he, -⟩
        rw [Idle.firstCommon (.inl (hmerged _ hmem))] at he
        cases he
  have hspec : ∀ selected : Proposal, selected.transforms = [] →
      (selectTypes this other priv (mergeTypes this other) selected = none ↔
        ∃ t, ¬Passes this other priv t) ∧
      ∀ result, selectTypes this other priv (mergeTypes this other) selected = some result →
        ∀ t, result.transforms.filter (·.type = t) = entriesOf this other priv t := by
    intro selected hempty
    have hordered := ordered_mergeTypes this other
    obtain ⟨hnone, hsome⟩ := selectTypes_spec hordered (hstart selected hempty)
    refine ⟨hnone.trans ⟨fun ⟨t, _, hfails⟩ => ⟨t, hfails⟩, fun ⟨t, hfails⟩ => ⟨t, ?_, hfails⟩⟩,
      fun result hresult t => ?_⟩
    · by_contra hnot
      exact hfails (.inr (.inl (.inl (hmerged t hnot))))
    · rw [hsome result hresult, hempty, List.nil_append, filter_entriesOf hordered.nodup]
      by_cases hmem : t ∈ mergeTypes this other
      · rw [if_pos hmem]
      · rw [if_neg hmem, entriesOf, Idle.firstCommon (.inl (hmerged t hmem))]
        split_ifs <;> rfl
  unfold selectProposal
  rw [if_neg (not_not.mpr hprotocol)]
  cases otherRemote with
  | false => exact hspec _ rfl
  | true => exact hspec _ rfl

/-- **What is selected**: nothing, if for a type that is required there is no common algorithm;
otherwise the first common algorithm of each type that is required. In the other direction there is
something selected in the same cases. -/
theorem selectProposal_exact (hprotocol : this.protocol = other.protocol)
    (hchecked : Checked this ∨ Checked other) (hlisted : Listed this other)
    (otherRemote otherRemote' : Bool) :
    (selectProposal this other otherRemote priv = none ↔
      ∃ t, Required this other priv t ∧ ∀ e, Common this other priv e → e.type ≠ t) ∧
    (∀ selected, selectProposal this other otherRemote priv = some selected → ∀ t,
      (Required this other priv t → ∃ e, firstCommon this other priv t = some e ∧
        selected.transforms.filter (·.type = t) = [e]) ∧
      (¬Required this other priv t → selected.transforms.filter (·.type = t) = [])) ∧
    (selectProposal this other otherRemote priv = none ↔
      selectProposal other this otherRemote' priv = none) := by
  have hunmixed : Unmixed this ∨ Unmixed other := hchecked.imp Checked.unmixed Checked.unmixed
  have hlisted' : Listed other this := fun t h => (hlisted t h.symm).symm
  obtain ⟨hnone, hsome⟩ := @selectProposal_spec this other priv hprotocol hlisted otherRemote
  obtain ⟨hnone', -⟩ := @selectProposal_spec other this priv hprotocol.symm hlisted' otherRemote'
  refine ⟨?_, fun selected hselected t => ⟨fun hrequired => ?_, fun hnot => ?_⟩, ?_⟩
  · rw [hnone]
    refine exists_congr fun t => ?_
    rw [passes_iff_or, Classical.not_imp, ← firstCommon_eq_none, ← Option.not_isSome_iff_eq_none,
      Option.isSome_iff_exists]
  · have hpasses : Passes this other priv t := by
      by_contra hfails
      rw [hnone.mpr ⟨t, hfails⟩] at hselected
      cases hselected
    obtain ⟨e, he⟩ := passes_iff_or.mp hpasses hrequired
    refine ⟨e, he, ?_⟩
    rw [hsome selected hselected, entriesOf, if_neg fun h => hrequired.integrity h.1 h.2, he]
    rfl
  · rw [hsome selected hselected, entriesOf]
    split_ifs with haead
    · rfl
    · have hidle : Idle this other t := by
        by_contra hidle
        obtain ⟨hoccurs, hwaives⟩ := not_or.mp hidle
        rw [not_and_or, not_not, not_not] at hoccurs
        exact hnot ⟨hoccurs, fun htype h => haead ⟨htype, h⟩, fun htype h => hwaives ⟨htype, h⟩⟩
      rw [hidle.firstCommon]
      rfl
  · rw [hnone, hnone']
    exact exists_congr fun t => not_congr ⟨fun h => h.symm hprotocol hunmixed,
      fun h => h.symm hprotocol.symm hunmixed.symm⟩

end Exactness

/-! ## Examples -/

def espString (groups : List U16) : Proposal :=
  groups.foldl (fun p group => p.addAlgorithm .diffieHellmanGroup group 0)
    (((create .esp 1).addAlgorithm .encryptionAlgorithm 12 128).addAlgorithm
      .integrityAlgorithm 12 0)

def ahString (keySize : U16) : Proposal :=
  (create .ah 1).addAlgorithm .encryptionAlgorithm encrNullAuthAesGmac keySize

/-- The proposal, if it is accepted. -/
def checked (p : Proposal) : Proposal := p.checkProposal.getD p

theorem checked_checked {p : Proposal} (h : p.checkProposal.isSome = true) : Checked (checked p) := by
  obtain ⟨q, hq⟩ := Option.isSome_iff_exists.mp h
  refine .checkProposal (p := p) ?_
  rw [checked, hq]
  rfl

theorem listed_of_all {this other : Proposal}
    (h : ∀ e ∈ this.transforms ++ other.transforms, e.type ∈ this.types ∨ e.type ∈ other.types) :
    Listed this other := by
  rintro t (⟨e, he, rfl⟩ | ⟨e, he, rfl⟩)
  · exact h e (List.mem_append_left _ he)
  · exact h e (List.mem_append_right _ he)

theorem selectProposal_exact_esp :
    (selectProposal (checked (espString [14, 19])) (checked (espString [19, 0])) true false = none ↔
      ∃ t, Required (checked (espString [14, 19])) (checked (espString [19, 0])) false t ∧
        ∀ e, Common (checked (espString [14, 19])) (checked (espString [19, 0])) false e →
          e.type ≠ t) := by
  have hlisted : Listed (checked (espString [14, 19])) (checked (espString [19, 0])) :=
    listed_of_all (by decide)
  have hchecked : Checked (checked (espString [14, 19])) := checked_checked (by decide)
  exact (selectProposal_exact (by decide) (.inl hchecked) hlisted true false).1

/-- A DH group on one side, none on the other: nothing is selected. And two AH proposals with different
key sizes for AES-GMAC, that do not list its type: the integrity algorithm is left out. -/
theorem not_selectProposal :
    (Checked (checked (espString [14])) ∧ Checked (checked (espString [])) ∧
      ¬(checked (espString [])).HasType .diffieHellmanGroup ∧
      (∀ e ∈ (checked (espString [14])).transforms, e.type ≠ .diffieHellmanGroup →
        Common (checked (espString [14])) (checked (espString [])) false e) ∧
      (∀ e ∈ (checked (espString [])).transforms, e.type ≠ .diffieHellmanGroup →
        Common (checked (espString [14])) (checked (espString [])) false e) ∧
      selectProposal (checked (espString [14])) (checked (espString [])) true false = none) ∧
    Checked (checked (ahString 128)) ∧ Checked (checked (ahString 256)) ∧
      (checked (ahString 128)).HasType .integrityAlgorithm ∧
      firstCommon (checked (ahString 128)) (checked (ahString 256)) false .integrityAlgorithm = none ∧
      selectProposal (checked (ahString 128)) (checked (ahString 256)) true false ≠ none :=
  ⟨⟨checked_checked (by decide), checked_checked (by decide), by decide, by decide, by decide,
    by decide⟩, checked_checked (by decide), checked_checked (by decide), by decide, by decide,
    by decide⟩

end Proposal

end StrongSwan
