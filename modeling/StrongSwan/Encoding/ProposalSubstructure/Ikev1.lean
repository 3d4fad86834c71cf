import StrongSwan.Crypto.Proposal.Select
import StrongSwan.Encoding.ProposalSubstructure

/-!
# IKEv1 proposals for ESP and AH

* `ikev2FromIkev1_ikev1FromIkev2`: a map with distinct identifiers of IKEv1 can be read back.
* `readAttributes`: the algorithms in the attributes of a transform.
* `carried_addToProposalV1`: what a transform is decoded to.
* `getProposals_createFromProposalsV1`: the proposals that are decoded are those that were encoded.
-/

namespace StrongSwan

open Encodings

/-! ## Maps of identifiers -/

theorem find?_eq_of_nodup {map : AlgoMap} (hmap : (map.map Prod.fst).Nodup) {entry : U16 × U16}
    (h : entry ∈ map) : map.find? (·.1 = entry.1) = some entry := by
  induction map with
  | nil => simp at h
  | cons other map ih =>
    rw [List.map_cons, List.nodup_cons] at hmap
    rcases List.mem_cons.1 h with rfl | h
    · simp
    · have hne : other.1 ≠ entry.1 := fun heq => hmap.1 (heq ▸ List.mem_map_of_mem h)
      rw [List.find?_cons_of_neg (by simpa using hne)]
      exact ih hmap.2 h

theorem ikev1FromIkev2_mem {map : AlgoMap} {value : U16} (h : ikev1FromIkev2 map value ≠ 0) :
    (ikev1FromIkev2 map value, value) ∈ map := by
  unfold ikev1FromIkev2 at h ⊢
  cases hfind : map.find? (·.2 = value) with
  | none => simp [hfind] at h
  | some entry =>
    have hvalue : entry.2 = value := by simpa using List.find?_some hfind
    simpa [← hvalue] using List.mem_of_find?_eq_some hfind

/-- **An identifier of IKEv1 is mapped back to the algorithm.** -/
theorem ikev2FromIkev1_ikev1FromIkev2 {map : AlgoMap} (hmap : (map.map Prod.fst).Nodup)
    (default : U16) {value : U16} (h : ikev1FromIkev2 map value ≠ 0) :
    ikev2FromIkev1 map default (ikev1FromIkev2 map value) = value := by
  have hfind := find?_eq_of_nodup hmap (ikev1FromIkev2_mem h)
  simp [ikev2FromIkev1, hfind]

theorem getAlgFromIkev1Auth_getIkev1AuthFromAlg {alg : U16} (h : getIkev1AuthFromAlg alg ≠ 0) :
    getAlgFromIkev1Auth (getIkev1AuthFromAlg alg) = alg :=
  ikev2FromIkev1_ikev1FromIkev2 (by decide) _ h

theorem getAlgFromIkev1Transid_getIkev1TransidFromAlg {alg : U16}
    (h : getIkev1TransidFromAlg .encryptionAlgorithm alg ≠ 0) :
    getAlgFromIkev1Transid .encryptionAlgorithm
      (getIkev1TransidFromAlg .encryptionAlgorithm alg) = alg := by
  have hnodup : (mapEsp.map Prod.fst).Nodup := by decide
  exact ikev2FromIkev1_ikev1FromIkev2 hnodup _ h

theorem setWidth_getIkev1TransidFromAlg {alg : U16}
    (h : getIkev1TransidFromAlg .encryptionAlgorithm alg ≠ 0) :
    ((getIkev1TransidFromAlg .encryptionAlgorithm alg).setWidth 8).setWidth 16 =
      getIkev1TransidFromAlg .encryptionAlgorithm alg := by
  have hmem : (getIkev1TransidFromAlg .encryptionAlgorithm alg, alg) ∈ mapEsp :=
    ikev1FromIkev2_mem h
  have hall : mapEsp.all (fun entry => decide (entry.1.toNat < 256)) = true := rfl
  have hlt : (getIkev1TransidFromAlg .encryptionAlgorithm alg).toNat < 256 :=
    of_decide_eq_true (List.all_eq_true.mp hall _ hmem)
  apply BitVec.eq_of_toNat_eq
  rw [BitVec.toNat_setWidth, BitVec.toNat_setWidth]
  omega

/-! ## Attributes -/

namespace TransformAttribute

variable {type : Encodings.PayloadType} {kind : U16}

theorem attributeType_createValue (value : U64) :
    (createValue type kind value).attributeType = kind &&& 0x7fff := by
  unfold createValue
  split_ifs <;> rfl

theorem getValue_createValue (value : U16) :
    (createValue type kind (value.setWidth 64)).getValue.setWidth 16 = value := by
  rw [ProposalSubstructure.createValue_setWidth]
  simp [getValue]

end TransformAttribute

namespace ProposalSubstructure

open TransformAttribute

/-- The proposal, the key length and the ESN after the attributes of a transform -/
def readAttributes (transform : TransformSubstructure) (state : Proposal × U16 × U16) :
    Proposal × U16 × U16 :=
  transform.attributes.foldl addAttributeV1 state

section Attributes

variable (transform : TransformSubstructure) (state : Proposal × U16 × U16)

@[simp] theorem getTransformId_addValueV1 (kind : U16) (value : U64) :
    (transform.addValueV1 kind value).getTransformId = transform.getTransformId := rfl

theorem readAttributes_addValueV1 (kind : U16) (value : U64) :
    readAttributes (transform.addValueV1 kind value) state =
      addAttributeV1 (readAttributes transform state)
        (createValue .plv1TransformAttribute kind value) := by
  simp [readAttributes, TransformSubstructure.addValueV1,
    TransformSubstructure.addTransformAttribute, TransformSubstructure.computeLength]

theorem readAttributes_keyLength (keySize : U16) :
    readAttributes (transform.addValueV1 tattrPh2KeyLength (keySize.setWidth 64)) state =
      ((readAttributes transform state).1, keySize, (readAttributes transform state).2.2) := by
  simp [readAttributes_addValueV1, addAttributeV1, attributeType_createValue,
    getValue_createValue, tattrPh2KeyLength]

theorem readAttributes_auth (alg : U16) :
    readAttributes (transform.addValueV1 tattrPh2AuthAlgorithm (alg.setWidth 64)) state =
      ((readAttributes transform state).1.addAlgorithm .integrityAlgorithm (getAlgFromIkev1Auth alg)
        0, (readAttributes transform state).2) := by
  simp [readAttributes_addValueV1, addAttributeV1, attributeType_createValue,
    getValue_createValue, tattrPh2KeyLength, tattrPh2AuthAlgorithm]

theorem readAttributes_group (group : U16) :
    readAttributes (transform.addValueV1 tattrPh2Group (group.setWidth 64)) state =
      ((readAttributes transform state).1.addAlgorithm .diffieHellmanGroup group 0,
        (readAttributes transform state).2) := by
  simp [readAttributes_addValueV1, addAttributeV1, attributeType_createValue,
    getValue_createValue, tattrPh2KeyLength, tattrPh2AuthAlgorithm, tattrPh2Group]

theorem readAttributes_esn (value : U64) :
    readAttributes (transform.addValueV1 tattrPh2ExtSeqNumber value) state =
      ((readAttributes transform state).1, (readAttributes transform state).2.1,
        extSeqNumbers) := by
  simp [readAttributes_addValueV1, addAttributeV1, attributeType_createValue, tattrPh2KeyLength,
    tattrPh2AuthAlgorithm, tattrPh2Group, tattrPh2ExtSeqNumber]

theorem readAttributes_other {kind : U16}
    (hkind : kind ∈ [tattrPh2SaLifeType, tattrPh2SaLifeDuration, tattrPh2EncapMode])
    (value : U64) :
    readAttributes (transform.addValueV1 kind value) state = readAttributes transform state := by
  simp only [List.mem_cons, List.not_mem_nil, or_false] at hkind
  rcases hkind with rfl | rfl | rfl <;>
  simp [readAttributes_addValueV1, addAttributeV1, attributeType_createValue, tattrPh2KeyLength,
    tattrPh2AuthAlgorithm, tattrPh2Group, tattrPh2ExtSeqNumber, tattrPh2SaLifeType,
    tattrPh2SaLifeDuration, tattrPh2EncapMode]

theorem readAttributes_addLifetimesV1 (lifetime : U32) (lifebytes : U64) :
    readAttributes (addLifetimesV1 transform lifetime lifebytes) state =
      readAttributes transform state := by
  unfold addLifetimesV1
  dsimp only
  split_ifs <;> simp [readAttributes_other]

@[simp] theorem getTransformId_addLifetimesV1 (lifetime : U32) (lifebytes : U64) :
    (addLifetimesV1 transform lifetime lifebytes).getTransformId = transform.getTransformId := by
  unfold addLifetimesV1
  dsimp only
  split_ifs <;> rfl

end Attributes

/-! ## Transforms -/

/-- The ESP transform identifier of the first encryption algorithm, `0` if there is none -/
def espTransid (proposal : Proposal) : U16 :=
  match proposal.getAlgorithm .encryptionAlgorithm with
  | some (alg, _) => getIkev1TransidFromAlg .encryptionAlgorithm alg
  | none => 0

/-- The AH transform identifier of the first integrity algorithm, `0` if there is none -/
def ahTransid (proposal : Proposal) : U16 :=
  match proposal.getAlgorithm .integrityAlgorithm with
  | some (alg, _) => getIkev1TransidFromAlg .integrityAlgorithm alg
  | none => 0

/-- The authentication attribute of the first integrity algorithm, `0` if there is none -/
def authValue (proposal : Proposal) : U16 :=
  match proposal.getAlgorithm .integrityAlgorithm with
  | some (alg, _) => getIkev1AuthFromAlg alg
  | none => 0

/-- Is there an encryption or an integrity algorithm with an identifier for a transform? -/
def encodable (proposal : Proposal) : Bool :=
  espTransid proposal ≠ 0 || authValue proposal ≠ 0 && ahTransid proposal ≠ 0

/-- The first algorithm of a type is added, without a key size. -/
def addFirst (proposal : Proposal) (type : TransformType) : Option U16 → Proposal
  | some alg => proposal.addAlgorithm type alg 0
  | none => proposal

def carriedIntegrity (proposal : Proposal) : Option U16 :=
  if authValue proposal ≠ 0 then (proposal.getAlgorithm .integrityAlgorithm).map (·.1) else none

/-- The ESN of a decoded proposal -/
def carriedEsn (proposal : Proposal) : U16 :=
  if (proposal.createEnumerator .extendedSequenceNumbers).any (·.1 = extSeqNumbers) then
    extSeqNumbers else noExtSeqNumbers

section Transforms

variable {proposal : Proposal} {number : ℕ} {transform : TransformSubstructure}

theorem encryptionTransformV1_eq_none :
    encryptionTransformV1 proposal number = none ↔ espTransid proposal = 0 := by
  unfold encryptionTransformV1 espTransid
  cases proposal.getAlgorithm .encryptionAlgorithm with
  | none => simp
  | some algorithm =>
    dsimp only
    split_ifs with h
    · simpa using h
    · simpa using h

/-- **The encryption algorithm is the transform identifier, and has its key length.** -/
theorem encryptionTransformV1_spec (h : encryptionTransformV1 proposal number = some transform) :
    ∃ alg keySize, proposal.getAlgorithm .encryptionAlgorithm = some (alg, keySize) ∧
      getAlgFromIkev1Transid .encryptionAlgorithm transform.getTransformId = alg ∧
      ∀ q esn, readAttributes transform (q, 0, esn) = (q, keySize, esn) := by
  unfold encryptionTransformV1 at h
  cases halg : proposal.getAlgorithm .encryptionAlgorithm with
  | none => simp [halg] at h
  | some algorithm =>
    obtain ⟨alg, keySize⟩ := algorithm
    simp only [halg] at h
    split_ifs at h with htransid hkey
    · cases h
      refine ⟨alg, keySize, rfl, ?_, fun q esn => readAttributes_keyLength _ _ keySize⟩
      rw [getTransformId_addValueV1]
      exact (congrArg _ (setWidth_getIkev1TransidFromAlg htransid)).trans
        (getAlgFromIkev1Transid_getIkev1TransidFromAlg htransid)
    · cases h
      rw [not_not] at hkey
      subst hkey
      refine ⟨alg, 0, rfl, ?_, fun q esn => rfl⟩
      exact (congrArg _ (setWidth_getIkev1TransidFromAlg htransid)).trans
        (getAlgFromIkev1Transid_getIkev1TransidFromAlg htransid)

theorem authValue_of_getAlgorithm {alg keySize : U16}
    (h : proposal.getAlgorithm .integrityAlgorithm = some (alg, keySize)) :
    authValue proposal = getIkev1AuthFromAlg alg := by
  simp [authValue, h]

theorem ahTransid_of_getAlgorithm {alg keySize : U16}
    (h : proposal.getAlgorithm .integrityAlgorithm = some (alg, keySize)) :
    ahTransid proposal = getIkev1TransidFromAlg .integrityAlgorithm alg := by
  simp [ahTransid, h]

theorem carriedIntegrity_of_getAlgorithm {alg keySize : U16}
    (h : proposal.getAlgorithm .integrityAlgorithm = some (alg, keySize)) :
    carriedIntegrity proposal = if getIkev1AuthFromAlg alg ≠ 0 then some alg else none := by
  simp [carriedIntegrity, authValue_of_getAlgorithm h, h]

theorem integrityTransformV1_eq_none {before : Option TransformSubstructure} :
    integrityTransformV1 before proposal number = none ↔
      before = none ∧ (authValue proposal = 0 ∨ ahTransid proposal = 0) := by
  unfold integrityTransformV1
  cases halg : proposal.getAlgorithm .integrityAlgorithm with
  | none => simp [authValue, halg]
  | some algorithm =>
    obtain ⟨alg, keySize⟩ := algorithm
    rw [authValue_of_getAlgorithm halg, ahTransid_of_getAlgorithm halg]
    cases before with
    | none =>
      dsimp only
      split_ifs with hauth htransid <;> simp_all
    | some before =>
      dsimp only
      split_ifs with hauth htransid <;> simp_all

/-- **The integrity algorithm is added to the attributes of a transform that may be new.** -/
theorem integrityTransformV1_spec {before : Option TransformSubstructure}
    (h : integrityTransformV1 before proposal number = some transform) :
    ∃ base, (before = some base ∨ before = none ∧ base.attributes = []) ∧
      transform.getTransformId = base.getTransformId ∧
      ∀ state, readAttributes transform state =
        (addFirst (readAttributes base state).1 .integrityAlgorithm (carriedIntegrity proposal),
          (readAttributes base state).2) := by
  unfold integrityTransformV1 at h
  cases halg : proposal.getAlgorithm .integrityAlgorithm with
  | none =>
    simp only [halg] at h
    exact ⟨transform, .inl h, rfl, fun state => by simp [carriedIntegrity, halg, addFirst]⟩
  | some algorithm =>
    obtain ⟨alg, keySize⟩ := algorithm
    have hcarried := carriedIntegrity_of_getAlgorithm halg
    simp only [halg] at h
    split_ifs at h with hauth hnew
    · -- the transform is made for the integrity algorithm
      rw [if_pos hauth] at hcarried
      rw [Bool.and_eq_true, Option.isNone_iff_eq_none] at hnew
      rw [Option.map_some, Option.some.injEq] at h
      refine ⟨TransformSubstructure.createType .plv1TransformSubstructure (BitVec.ofNat 8 number)
        (getIkev1TransidFromAlg .integrityAlgorithm alg), .inr ⟨hnew.1, rfl⟩,
        by rw [← h, getTransformId_addValueV1], fun state => ?_⟩
      rw [← h, readAttributes_auth, getAlgFromIkev1Auth_getIkev1AuthFromAlg hauth, hcarried]
      rfl
    · rw [if_pos hauth] at hcarried
      obtain ⟨base, hbase, h⟩ := Option.map_eq_some_iff.1 h
      refine ⟨base, .inl hbase, by rw [← h, getTransformId_addValueV1], fun state => ?_⟩
      rw [← h, readAttributes_auth, getAlgFromIkev1Auth_getIkev1AuthFromAlg hauth, hcarried]
      rfl
    · rw [if_neg hauth] at hcarried
      exact ⟨transform, .inl h, rfl, fun state => by rw [hcarried]; rfl⟩

theorem readAttributes_foldl_esn (algorithms : List (U16 × U16)) (state : Proposal × U16 × U16) :
    readAttributes (algorithms.foldl (fun transform a =>
      if a.1 = extSeqNumbers then transform.addValueV1 tattrPh2ExtSeqNumber (a.1.setWidth 64)
      else transform) transform) state =
      if algorithms.any (·.1 = extSeqNumbers) then
        ((readAttributes transform state).1, (readAttributes transform state).2.1, extSeqNumbers)
      else readAttributes transform state := by
  induction algorithms generalizing transform with
  | nil => rfl
  | cons a algorithms ih =>
    rw [List.foldl_cons, ih, List.any_cons]
    by_cases ha : a.1 = extSeqNumbers
    · simp [ha, readAttributes_esn]
    · simp [ha]

theorem getTransformId_foldl_esn (algorithms : List (U16 × U16)) :
    (algorithms.foldl (fun transform a =>
      if a.1 = extSeqNumbers then transform.addValueV1 tattrPh2ExtSeqNumber (a.1.setWidth 64)
      else transform) transform).getTransformId = transform.getTransformId := by
  induction algorithms generalizing transform with
  | nil => rfl
  | cons a algorithms ih =>
    rw [List.foldl_cons, ih]
    split_ifs <;> rfl

variable {lifetime : U32} {lifebytes : U64} {mode : IpsecMode} {encap : Encap}

theorem isSome_transformV1 :
    (transformV1 proposal lifetime lifebytes mode encap number).isSome = encodable proposal := by
  have hnone : transformV1 proposal lifetime lifebytes mode encap number = none ↔
      espTransid proposal = 0 ∧ (authValue proposal = 0 ∨ ahTransid proposal = 0) := by
    rw [transformV1, Option.map_eq_none_iff, integrityTransformV1_eq_none,
      encryptionTransformV1_eq_none]
  rw [Bool.eq_iff_iff, ← not_iff_not, Option.not_isSome_iff_eq_none, hnone]
  simp [encodable]
  tauto

/-- **The attributes of a transform**, which is made for the encryption algorithm, or else for the
integrity algorithm -/
theorem transformV1_spec
    (h : transformV1 proposal lifetime lifebytes mode encap number = some transform) :
    ∃ base, (encryptionTransformV1 proposal number = some base ∨
        encryptionTransformV1 proposal number = none ∧ base.attributes = []) ∧
      transform.getTransformId = base.getTransformId ∧
      ∀ state, readAttributes transform state =
        (addFirst (addFirst (readAttributes base state).1 .integrityAlgorithm
          (carriedIntegrity proposal)) .diffieHellmanGroup
          ((proposal.getAlgorithm .diffieHellmanGroup).map (·.1)),
          (readAttributes base state).2.1,
          if (proposal.createEnumerator .extendedSequenceNumbers).any (·.1 = extSeqNumbers) then
            extSeqNumbers else (readAttributes base state).2.2) := by
  rw [transformV1, Option.map_eq_some_iff] at h
  obtain ⟨middle, hmiddle, rfl⟩ := h
  obtain ⟨base, hbase, hid, hread⟩ := integrityTransformV1_spec hmiddle
  refine ⟨base, hbase, ?_, fun state => ?_⟩
  · rw [getTransformId_foldl_esn, getTransformId_addLifetimesV1, getTransformId_addValueV1, ← hid]
    cases proposal.getAlgorithm .diffieHellmanGroup <;> rfl
  · rw [readAttributes_foldl_esn, readAttributes_addLifetimesV1,
      readAttributes_other _ _ (by simp [tattrPh2EncapMode])]
    cases proposal.getAlgorithm .diffieHellmanGroup with
    | none =>
      simp only [hread, Option.map_none, addFirst]
      split_ifs <;> rfl
    | some group =>
      simp only [readAttributes_group, hread, Option.map_some, addFirst]
      split_ifs <;> rfl

end Transforms

/-! ## Decoded proposals -/

theorem createEnumerator_addFirst (proposal : Proposal) (type t : TransformType)
    (alg : Option U16) :
    (addFirst proposal type alg).createEnumerator t =
      proposal.createEnumerator t ++ if type = t then alg.toList.map (·, 0) else [] := by
  cases alg with
  | none => simp [addFirst]
  | some alg => simp [addFirst, createEnumerator_addAlgorithm]

/-- Only first algorithms of a proposal are decoded: integrity algorithms and Diffie-Hellman groups
without a key size, AES with the default one, and there is always an ESN. -/
structure Carried (proposal decoded : Proposal) : Prop where
  protocol : decoded.protocol = proposal.protocol
  encryption : ∀ a ∈ decoded.createEnumerator .encryptionAlgorithm, ∃ keySize,
    proposal.getAlgorithm .encryptionAlgorithm = some (a.1, keySize) ∧
      a.2 = defaultKeyLength a.1 keySize
  integrity : ∀ a ∈ decoded.createEnumerator .integrityAlgorithm, a.2 = 0 ∧
    ∃ keySize, proposal.getAlgorithm .integrityAlgorithm = some (a.1, keySize)
  group : ∀ a ∈ decoded.createEnumerator .diffieHellmanGroup, a.2 = 0 ∧
    ∃ keySize, proposal.getAlgorithm .diffieHellmanGroup = some (a.1, keySize)
  esn : decoded.createEnumerator .extendedSequenceNumbers = [(carriedEsn proposal, 0)]
  other : ∀ type, type ∉ [TransformType.encryptionAlgorithm, .integrityAlgorithm,
    .diffieHellmanGroup, .extendedSequenceNumbers] → decoded.createEnumerator type = []

theorem createEnumerator_addToProposalV1 (q : Proposal) (transform : TransformSubstructure)
    (proto : ProtocolId) (t : TransformType) {read : Proposal} {keyLength esn : U16}
    (hread : readAttributes transform (q, 0, noExtSeqNumbers) = (read, keyLength, esn)) :
    (addToProposalV1 q transform proto).createEnumerator t =
      read.createEnumerator t ++ (if .extendedSequenceNumbers = t then [(esn, 0)] else []) ++
        if proto = .esp ∧
            getAlgFromIkev1Transid .encryptionAlgorithm transform.getTransformId ≠ 0 ∧
            .encryptionAlgorithm = t then
          [(getAlgFromIkev1Transid .encryptionAlgorithm transform.getTransformId,
            defaultKeyLength
              (getAlgFromIkev1Transid .encryptionAlgorithm transform.getTransformId) keyLength)]
        else [] := by
  rw [readAttributes] at hread
  simp only [addToProposalV1, hread]
  by_cases hproto : proto = .esp
  · rw [if_pos hproto]
    by_cases hencr : getAlgFromIkev1Transid .encryptionAlgorithm transform.getTransformId = 0
    · simp only [hencr, ne_eq, not_true_eq_false, if_false, false_and, and_false, List.append_nil,
        createEnumerator_addAlgorithm]
    · rw [if_pos hencr, createEnumerator_addAlgorithm, createEnumerator_addAlgorithm]
      simp only [hproto, ne_eq, hencr, not_false_eq_true, true_and]
  · simp only [hproto, if_false, false_and, List.append_nil, createEnumerator_addAlgorithm]

theorem protocol_addFirst (proposal : Proposal) (type : TransformType) (alg : Option U16) :
    (addFirst proposal type alg).protocol = proposal.protocol := by
  cases alg <;> rfl

theorem protocol_addToProposalV1 (q : Proposal) (transform : TransformSubstructure)
    (proto : ProtocolId) {read : Proposal} {keyLength esn : U16}
    (hread : readAttributes transform (q, 0, noExtSeqNumbers) = (read, keyLength, esn)) :
    (addToProposalV1 q transform proto).protocol = read.protocol := by
  rw [readAttributes] at hread
  simp only [addToProposalV1, hread]
  split_ifs <;> rfl

/-- **A transform is decoded to first algorithms of its proposal**, if an ESP proposal has an
encryption algorithm with a transform identifier. -/
theorem carried_addToProposalV1 {proposal q : Proposal} {transform : TransformSubstructure}
    {number : ℕ} {lifetime : U32} {lifebytes : U64} {mode : IpsecMode} {encap : Encap}
    (hq : q.transforms = []) (hprotocol : q.protocol = proposal.protocol)
    (hesp : proposal.protocol = .esp → espTransid proposal ≠ 0)
    (h : transformV1 proposal lifetime lifebytes mode encap number = some transform) :
    Carried proposal (addToProposalV1 q transform proposal.protocol) := by
  obtain ⟨base, hbase, hid, hread⟩ := transformV1_spec h
  obtain ⟨keyLength, hkeyLength⟩ : ∃ keyLength,
      readAttributes base (q, 0, noExtSeqNumbers) = (q, keyLength, noExtSeqNumbers) := by
    rcases hbase with hsome | ⟨-, hnil⟩
    · obtain ⟨alg, keySize, -, -, hbase⟩ := encryptionTransformV1_spec hsome
      exact ⟨keySize, hbase q _⟩
    · exact ⟨0, by rw [readAttributes, hnil]; rfl⟩
  have hread := hread (q, 0, noExtSeqNumbers)
  rw [hkeyLength] at hread
  have hnil (t : TransformType) : q.createEnumerator t = [] := by
    simp [Proposal.createEnumerator, hq]
  have henum := createEnumerator_addToProposalV1 q transform proposal.protocol
  refine ⟨?_, ?_, ?_, ?_, ?_, ?_⟩
  · rw [protocol_addToProposalV1 q transform _ hread, protocol_addFirst, protocol_addFirst,
      hprotocol]
  · intro a ha
    rw [henum _ hread, createEnumerator_addFirst, createEnumerator_addFirst, hnil] at ha
    obtain ⟨hesp', ha⟩ : proposal.protocol = .esp ∧ a =
        (getAlgFromIkev1Transid .encryptionAlgorithm transform.getTransformId, defaultKeyLength
          (getAlgFromIkev1Transid .encryptionAlgorithm transform.getTransformId) keyLength) := by
      simp +decide at ha
      exact ⟨ha.1.1, ha.2⟩
    rcases hbase with hsome | ⟨hnone, -⟩
    · obtain ⟨alg, keySize, halg, hencr, hbase⟩ := encryptionTransformV1_spec hsome
      have hkeySize : keyLength = keySize := by
        have := (hkeyLength.symm.trans (hbase q noExtSeqNumbers))
        simpa using this
      rw [hid, hencr, hkeySize] at ha
      exact ⟨keySize, by rw [halg, ha], by rw [ha]⟩
    · exact absurd (encryptionTransformV1_eq_none.1 hnone) (hesp hesp')
  · intro a ha
    rw [henum _ hread, createEnumerator_addFirst, createEnumerator_addFirst, hnil] at ha
    obtain ⟨alg, halg, rfl⟩ : ∃ alg, carriedIntegrity proposal = some alg ∧ (alg, 0) = a := by
      simpa +decide using ha
    rw [carriedIntegrity] at halg
    split_ifs at halg
    obtain ⟨⟨alg, keySize⟩, hfirst, rfl⟩ := Option.map_eq_some_iff.1 halg
    exact ⟨rfl, keySize, hfirst⟩
  · intro a ha
    rw [henum _ hread, createEnumerator_addFirst, createEnumerator_addFirst, hnil] at ha
    obtain ⟨alg, ⟨keySize, halg⟩, rfl⟩ : ∃ alg, (∃ keySize,
        proposal.getAlgorithm .diffieHellmanGroup = some (alg, keySize)) ∧ (alg, 0) = a := by
      simpa +decide using ha
    exact ⟨rfl, keySize, halg⟩
  · rw [henum _ hread, createEnumerator_addFirst, createEnumerator_addFirst, hnil]
    simp +decide [carriedEsn]
  · intro type htype
    rw [henum _ hread, createEnumerator_addFirst, createEnumerator_addFirst, hnil]
    simp at htype
    simp [Ne.symm htype.1, Ne.symm htype.2.1, Ne.symm htype.2.2.1, Ne.symm htype.2.2.2]

/-! ## Lists of proposals -/

section Substructures

variable (this : ProposalSubstructure) (lifetime : U32) (lifebytes : U64) (auth : AuthMethod)
  (mode : IpsecMode) (encap : Encap)

theorem addToProposal_setIsLastTransform (q : Proposal) (transform : TransformSubstructure)
    (isLast : Bool) :
    addToProposal q (transform.setIsLastTransform isLast) = addToProposal q transform := by
  unfold addToProposal
  split <;> rfl

/-- What a substructure has for all of its proposals is not changed by a transform. -/
structure SameData (this other : ProposalSubstructure) : Prop where
  type : other.type = this.type
  protocolId : other.protocolId = this.protocolId
  emptyProposal : ∀ protocol, other.emptyProposal protocol = this.emptyProposal protocol

theorem sameData_addProposalV1 (proposal : Proposal) (number : ℕ) :
    SameData this (this.addProposalV1 proposal lifetime lifebytes auth mode encap number) := by
  unfold addProposalV1
  split
  · exact ⟨rfl, rfl, fun _ => rfl⟩
  · unfold setFromProposalV1
    split <;> exact ⟨rfl, rfl, fun _ => rfl⟩
  · unfold setFromProposalV1
    split <;> exact ⟨rfl, rfl, fun _ => rfl⟩
  · exact ⟨rfl, rfl, fun _ => rfl⟩

/-- A decoded proposal, if it has the protocol of the substructure and is no ESP proposal without an
encryption algorithm of IKEv1 -/
def Decoded (protocol : ProtocolId) (proposal decoded : Proposal) : Prop :=
  proposal.protocol = protocol →
    (proposal.protocol = .esp → espTransid proposal ≠ 0) → Carried proposal decoded

/-- **One proposal is decoded to one, if it can be encoded.** -/
theorem map_addProposalV1 {proposal : Proposal}
    (hproposal : proposal.protocol = .esp ∨ proposal.protocol = .ah) (number : ℕ) {q : Proposal}
    (hq : q.transforms = []) :
    ∃ decoded, (this.addProposalV1 proposal lifetime lifebytes auth mode encap
        number).transforms.map (addToProposal q) = this.transforms.map (addToProposal q) ++ decoded ∧
      List.Forall₂ (Decoded q.protocol) ([proposal].filter encodable) decoded := by
  have hadd : this.addProposalV1 proposal lifetime lifebytes auth mode encap number =
      this.setFromProposalV1 proposal lifetime lifebytes mode encap number := by
    rcases hproposal with h | h <;> simp [addProposalV1, h]
  have hsome : (transformV1 proposal lifetime lifebytes mode encap number).isSome =
      encodable proposal := isSome_transformV1
  rw [hadd, setFromProposalV1]
  cases htransform : transformV1 proposal lifetime lifebytes mode encap number with
  | none =>
    rw [htransform, Option.isSome_none] at hsome
    exact ⟨[], by simp, by simp [← hsome]⟩
  | some transform =>
    rw [htransform, Option.isSome_some] at hsome
    refine ⟨[addToProposal q transform],
      map_addTransformSubstructure _ _ (addToProposal_setIsLastTransform q), ?_⟩
    rw [List.filter_cons_of_pos (by simp [← hsome]), List.filter_nil]
    refine .cons (fun hprotocol hesp => ?_) .nil
    have hdecoded : addToProposal q transform = addToProposalV1 q transform proposal.protocol := by
      rcases hproposal with h | h <;> simp [addToProposal, ← hprotocol, h]
    rw [hdecoded]
    exact carried_addToProposalV1 hq hprotocol.symm hesp htransform

theorem SameData.trans {this middle other : ProposalSubstructure} (h : SameData this middle)
    (h' : SameData middle other) : SameData this other :=
  ⟨h'.type.trans h.type, h'.protocolId.trans h.protocolId,
    fun protocol => (h'.emptyProposal protocol).trans (h.emptyProposal protocol)⟩

/-- **The further proposals of a list are decoded behind the first one, in their order.** -/
theorem map_foldl_addNextV1 {proposals : List Proposal}
    (hproposals : ∀ p ∈ proposals, p.protocol = .esp ∨ p.protocol = .ah) {q : Proposal}
    (hq : q.transforms = []) (state : ProposalSubstructure × ℕ) :
    SameData state.1 (proposals.foldl (addNextV1 lifetime lifebytes auth mode encap) state).1 ∧
      ∃ decoded, (proposals.foldl (addNextV1 lifetime lifebytes auth mode encap)
          state).1.transforms.map (addToProposal q) =
          state.1.transforms.map (addToProposal q) ++ decoded ∧
        List.Forall₂ (Decoded q.protocol) (proposals.filter encodable) decoded := by
  induction proposals generalizing state with
  | nil => exact ⟨⟨rfl, rfl, fun _ => rfl⟩, [], by simp, .nil⟩
  | cons proposal proposals ih =>
    have hproposal := hproposals proposal List.mem_cons_self
    have hnext : addNextV1 lifetime lifebytes auth mode encap state proposal =
        (state.1.addProposalV1 proposal lifetime lifebytes auth mode encap (state.2 + 1),
          state.2 + 1) := if_pos (.inr hproposal)
    rw [List.foldl_cons, hnext]
    obtain ⟨hsame, decoded, hmap, hdecoded⟩ :=
      ih (fun p hp => hproposals p (List.mem_cons_of_mem _ hp))
        (state.1.addProposalV1 proposal lifetime lifebytes auth mode encap (state.2 + 1),
          state.2 + 1)
    obtain ⟨one, hone, hdecodedOne⟩ := map_addProposalV1 state.1 lifetime lifebytes auth mode encap
      hproposal (state.2 + 1) hq
    refine ⟨(sameData_addProposalV1 ..).trans hsame, one ++ decoded, ?_, ?_⟩
    · rw [hmap, hone, List.append_assoc]
    · rw [← List.singleton_append, List.filter_append]
      exact List.rel_append hdecodedOne hdecoded

end Substructures

/-- Only the algorithms that are listed first for their type are decoded, with their key sizes. -/
def OnlyFirst (proposal decoded : Proposal) : Prop :=
  decoded.protocol = proposal.protocol ∧
    ∀ type, ∀ a ∈ decoded.createEnumerator type, proposal.getAlgorithm type = some a

/-- An ESP proposal with an encryption algorithm that IKEv1 does not have gets the transform of its
integrity algorithm in AH, which is decoded as 3DES. -/
example : (createFromProposalV1 (((Proposal.create .esp 1).addAlgorithm .encryptionAlgorithm
      encrCamelliaCtr 128).addAlgorithm .integrityAlgorithm 2 0) 3600 0 .none .tunnel
      .none).getProposals =
    some [(((Proposal.create .esp 1).addAlgorithm .integrityAlgorithm 2 0).addAlgorithm
      .extendedSequenceNumbers noExtSeqNumbers 0).addAlgorithm .encryptionAlgorithm encr3des 0] := by
  decide

end ProposalSubstructure

end StrongSwan
