import StrongSwan.Crypto.Proposal.Exact
import StrongSwan.Encoding.ProposalSubstructure.Layout

/-!
# IKEv2 proposals in an SA payload

* `transformsV2`: the transforms of a proposal, type by type.
* `Created`: what the substructure of a proposal has; `Created.fits`, `Created.verify`.
* `createEnumerator_foldl_addAlgorithms`: the algorithms of each type are decoded in their order.
* **`getProposals_decode_encode`**: the proposal that is decoded is the one that was encoded.
-/

namespace StrongSwan

open Encodings

namespace ProposalSubstructure

/-- The types of transforms in IKEv2 -/
def typesV2 : List TransformType :=
  [.encryptionAlgorithm, .integrityAlgorithm, .pseudoRandomFunction, .diffieHellmanGroup,
    .extendedSequenceNumbers]

def transformsV2 (proposal : Proposal) : List TransformSubstructure :=
  typesV2.flatMap fun type => (proposal.createEnumerator type).map (transformV2 type)

theorem setFromProposalV2_eq (this : ProposalSubstructure) (proposal : Proposal) :
    this.setFromProposalV2 proposal =
      (transformsV2 proposal).foldl addTransformSubstructure this := by
  simp [setFromProposalV2, addTransformsV2, transformsV2, typesV2, List.foldl_map]

/-! ## The substructure of a proposal -/

section Adding

variable (items : List TransformSubstructure) (this : ProposalSubstructure)

theorem map_foldl_addTransformSubstructure {α : Type*} {f : TransformSubstructure → α}
    (hf : ∀ transform isLast, f (transform.setIsLastTransform isLast) = f transform) :
    (items.foldl addTransformSubstructure this).transforms.map f =
      this.transforms.map f ++ items.map f := by
  induction items generalizing this with
  | nil => simp
  | cons transform items ih =>
    rw [List.foldl_cons, ih, map_addTransformSubstructure _ _ hf, List.map_cons, List.append_assoc,
      List.singleton_append]

/-- Is a transform marked as the last one, or as one that others follow? -/
def Marked (transform : TransformSubstructure) : Prop :=
  transform.nextPayload = 0 ∨ transform.nextPayload = 3

theorem marked_setIsLastTransform (transform : TransformSubstructure) (isLast : Bool) :
    Marked (transform.setIsLastTransform isLast) := by
  cases isLast
  · exact .inr rfl
  · exact .inl rfl

theorem marked_addTransformSubstructure (transform : TransformSubstructure)
    (h : ∀ t ∈ this.transforms, Marked t) :
    ∀ t ∈ (this.addTransformSubstructure transform).transforms, Marked t := by
  intro t ht
  unfold addTransformSubstructure computeLength at ht
  dsimp only at ht
  rcases List.mem_append.1 ht with ht | ht
  · split at ht
    · rcases List.mem_append.1 ht with ht | ht
      · exact h t (List.dropLast_subset _ ht)
      · rw [List.mem_singleton.1 ht]
        exact marked_setIsLastTransform _ _
    · exact h t ht
  · rw [List.mem_singleton.1 ht]
    exact marked_setIsLastTransform _ _

/-- The other fields, as they are when a substructure is created -/
structure Fresh (this : ProposalSubstructure) : Prop where
  nextPayload : this.nextPayload = 0
  spi : this.spi = []
  spiSize : this.spiSize = 0
  marked : ∀ t ∈ this.transforms, Marked t

theorem fresh_foldl (h : Fresh this) : Fresh (items.foldl addTransformSubstructure this) := by
  induction items generalizing this with
  | nil => exact h
  | cons transform items ih =>
    exact ih _ ⟨h.nextPayload, h.spi, h.spiSize, marked_addTransformSubstructure _ _ h.marked⟩

end Adding

/-- The SPI of a substructure: 4 bytes for ESP and AH, and 8 bytes or none for IKE -/
def spiOf (proposal : Proposal) : Chunk :=
  match proposal.protocol with
  | .ah | .esp => chunkFromThing (proposal.spi.setWidth 32)
  | .ike => if proposal.spi ≠ 0 then chunkFromThing proposal.spi else []
  | _ => []

/-- What the substructure of a proposal has. -/
structure Created (proposal : Proposal) (this : ProposalSubstructure) : Prop where
  nextPayload : this.nextPayload = 0
  number : this.proposalNumber = BitVec.ofNat 8 proposal.number
  protocolId : this.protocolId = proposal.protocol.toU8
  spi : this.spi = spiOf proposal
  spiSize : this.spiSize = BitVec.ofNat 8 (spiOf proposal).length
  count : this.transformsCount = BitVec.ofNat 8 this.transforms.length
  length : this.proposalLength =
    BitVec.ofNat 16 (8 + this.spiSize.toNat + (this.transforms.map (·.getLength)).sum)
  marked : ∀ t ∈ this.transforms, Marked t
  transforms : ∀ {α : Type} {f : TransformSubstructure → α},
    (∀ transform isLast, f (transform.setIsLastTransform isLast) = f transform) →
    this.transforms.map f = (transformsV2 proposal).map f

theorem created_createFromProposalV2 (proposal : Proposal) :
    Created proposal (createFromProposalV2 proposal) := by
  rw [createFromProposalV2, setFromProposalV2_eq]
  set this := (transformsV2 proposal).foldl addTransformSubstructure
    (create .plv2SecurityAssociation) with hthis
  have hfresh : Fresh this := fresh_foldl _ _ ⟨rfl, rfl, rfl, nofun⟩
  have hmap : ∀ {α : Type} {f : TransformSubstructure → α},
      (∀ transform isLast, f (transform.setIsLastTransform isLast) = f transform) →
      this.transforms.map f = (transformsV2 proposal).map f :=
    fun hf => map_foldl_addTransformSubstructure _ _ hf
  unfold setData
  cases hprotocol : proposal.protocol with
  | ike =>
    dsimp only
    by_cases hspi : proposal.spi = 0
    · rw [if_neg (not_not.2 hspi)]
      have hnone : spiOf proposal = [] := by simp [spiOf, hprotocol, hspi]
      exact ⟨hfresh.nextPayload, rfl, by rw [hprotocol]; rfl, by rw [hnone]; exact hfresh.spi,
        by rw [hnone]; exact hfresh.spiSize, rfl, rfl, hfresh.marked, hmap⟩
    · rw [if_pos hspi]
      have hsome : spiOf proposal = chunkFromThing proposal.spi := by
        rw [spiOf, hprotocol]
        exact if_pos hspi
      exact ⟨hfresh.nextPayload, rfl, by rw [hprotocol]; rfl, hsome.symm, by rw [hsome]; rfl, rfl,
        rfl, hfresh.marked, hmap⟩
  | ah | esp =>
    have hsome : spiOf proposal = chunkFromThing (proposal.spi.setWidth 32) := by
      simp [spiOf, hprotocol]
    exact ⟨hfresh.nextPayload, rfl, by rw [hprotocol]; rfl, hsome.symm, by rw [hsome]; rfl, rfl,
      rfl, hfresh.marked, hmap⟩
  | none | ipcomp =>
    have hnone : spiOf proposal = [] := by simp [spiOf, hprotocol]
    exact ⟨hfresh.nextPayload, rfl, by rw [hprotocol]; rfl, by rw [hnone]; exact hfresh.spi,
      by rw [hnone]; exact hfresh.spiSize, rfl, rfl, hfresh.marked, hmap⟩

/-! ## Encoding -/

/-- Does a transform of IKEv2 fit its layout, in at most 12 bytes? -/
def FitsV2 (transform : TransformSubstructure) : Prop :=
  transform.type = .plv2TransformSubstructure ∧ transform.Fits ∧ transform.bytes.length ≤ 12

theorem bytes_setIsLastTransform (transform : TransformSubstructure) (isLast : Bool) :
    (transform.setIsLastTransform isLast).bytes.length = transform.bytes.length := by
  rw [Encodings.Parser.length_transform, Encodings.Parser.length_transform]
  rfl

theorem fitsV2_setIsLastTransform (transform : TransformSubstructure) (isLast : Bool) :
    FitsV2 (transform.setIsLastTransform isLast) = FitsV2 transform := by
  have hlength := bytes_setIsLastTransform transform isLast
  refine propext ⟨fun ⟨htype, hfits, hle⟩ => ?_, fun ⟨htype, hfits, hle⟩ => ?_⟩
  · exact ⟨htype, ⟨hfits.type, hfits.length.trans hlength, hfits.attributes⟩, hlength ▸ hle⟩
  · exact ⟨htype, ⟨hfits.type, hfits.length.trans hlength.symm, hfits.attributes⟩, hlength ▸ hle⟩

theorem fitsV2_transformV2 (type : TransformType) (algorithm : U16 × U16) :
    FitsV2 (transformV2 type algorithm) := by
  unfold transformV2
  dsimp only
  split_ifs with h
  · rw [createValue_setWidth]
    refine ⟨rfl, ⟨.inl ⟨rfl, rfl⟩, rfl, ?_⟩, le_of_eq rfl⟩
    intro tattr htattr
    rw [List.mem_singleton.1 htattr]
    exact ⟨⟨.inl rfl, show tattrIkev2KeyLength.toNat < _ by decide, rfl⟩, rfl⟩
  · exact ⟨rfl, ⟨.inl ⟨rfl, rfl⟩, rfl, nofun⟩, show 8 ≤ 12 by decide⟩

theorem length_spiOf (proposal : Proposal) : (spiOf proposal).length ≤ 8 := by
  unfold spiOf
  split
  · simp [chunkFromThing]
  · simp [chunkFromThing]
  · split_ifs <;> simp [chunkFromThing]
  · simp

theorem sum_getLength {transforms : List TransformSubstructure}
    (hfits : ∀ t ∈ transforms, FitsV2 t) :
    (transforms.map (·.getLength)).sum = (transforms.flatMap (·.bytes)).length ∧
      (transforms.flatMap (·.bytes)).length ≤ 12 * transforms.length := by
  induction transforms with
  | nil => exact ⟨rfl, le_rfl⟩
  | cons transform transforms ih =>
    obtain ⟨hsum, hle⟩ := ih fun t ht => hfits t (List.mem_cons_of_mem _ ht)
    obtain ⟨-, hfit, hle'⟩ := hfits transform List.mem_cons_self
    rw [List.map_cons, List.sum_cons, List.flatMap_cons, List.length_append, List.length_cons,
      hsum]
    have hlength : transform.getLength = transform.bytes.length := hfit.length
    exact ⟨by rw [hlength], by omega⟩

section Created

variable {proposal : Proposal} {this : ProposalSubstructure}

theorem Created.fitsV2 (h : Created proposal this) : ∀ t ∈ this.transforms, FitsV2 t := by
  intro t ht
  have hmem : FitsV2 t ∈ (transformsV2 proposal).map FitsV2 := by
    rw [← h.transforms fitsV2_setIsLastTransform]
    exact List.mem_map_of_mem ht
  obtain ⟨transform, htransform, heq⟩ := List.mem_map.1 hmem
  rw [← heq]
  obtain ⟨type, -, htype⟩ := List.mem_flatMap.1 htransform
  obtain ⟨algorithm, -, rfl⟩ := List.mem_map.1 htype
  exact fitsV2_transformV2 type algorithm

theorem Created.length_transforms (h : Created proposal this) :
    this.transforms.length = (transformsV2 proposal).length := by
  have hmap := congrArg List.length (h.transforms (f := fun _ => ()) fun _ _ => rfl)
  rwa [List.length_map, List.length_map] at hmap

/-- **A substructure of at most 255 transforms fits its layout.** -/
theorem Created.fits (h : Created proposal this) (hcount : this.transforms.length ≤ 255) :
    this.Fits .plv2ProposalSubstructure := by
  have hspi := length_spiOf proposal
  have hspiSize : this.spiSize.toNat = this.spi.length := by
    rw [h.spiSize, h.spi, BitVec.toNat_ofNat, Nat.mod_eq_of_lt (by omega)]
  obtain ⟨hsum, hle⟩ := sum_getLength h.fitsV2
  refine ⟨.inl rfl, ?_, hspiSize, fun t ht => ?_⟩
  · rw [h.length, Encodings.Parser.length_proposal, BitVec.toNat_ofNat, hsum, hspiSize, h.spi,
      Nat.mod_eq_of_lt (by omega)]
  · obtain ⟨htype, hfit, -⟩ := h.fitsV2 t ht
    exact ⟨hfit, htype⟩

theorem Created.spiLengthValid (h : Created proposal this)
    (hprotocol : proposal.protocol = .ike ∨ proposal.protocol = .esp ∨ proposal.protocol = .ah) :
    ProposalSubstructure.spiLengthValid { this with type := .plv2ProposalSubstructure } = true := by
  have hv1 : Encodings.PayloadType.plv2ProposalSubstructure ≠ .plv1ProposalSubstructure := by decide
  rw [ProposalSubstructure.spiLengthValid]
  simp only [h.protocolId, ofU8_toU8, h.spi, if_neg hv1]
  rcases hprotocol with hprotocol | hprotocol | hprotocol
  · by_cases hspi : proposal.spi = 0
    · simp [hprotocol, spiOf, hspi]
    · simp only [hprotocol, spiOf, if_pos hspi]
      simp [chunkFromThing]
  · simp [hprotocol, spiOf, chunkFromThing]
  · simp [hprotocol, spiOf, chunkFromThing]

theorem Created.verify (h : Created proposal this) (hcount : this.transforms.length ≤ 255)
    (hprotocol : proposal.protocol = .ike ∨ proposal.protocol = .esp ∨ proposal.protocol = .ah) :
    ProposalSubstructure.verify { this with type := .plv2ProposalSubstructure } = .success := by
  have htransforms : (this.transforms.all fun t => t.verify = .success) = true := by
    rw [List.all_eq_true]
    intro t ht
    have hmarked : ¬(t.nextPayload ≠ 0 ∧ t.nextPayload ≠ 3) := by
      rcases h.marked t ht with hzero | hthree
      · exact fun hne => hne.1 hzero
      · exact fun hne => hne.2 hthree
    rw [TransformSubstructure.verify, if_neg hmarked]
    simp [TransformAttribute.verify]
  have hcounted : this.transformsCount.toNat = this.transforms.length := by
    rw [h.count, BitVec.toNat_ofNat, Nat.mod_eq_of_lt (by omega)]
  rw [ProposalSubstructure.verify, if_neg (by simp [h.nextPayload]), if_neg (by simp [hcounted]),
    h.spiLengthValid hprotocol]
  simp only [Bool.not_true, Bool.false_eq_true, if_false, htransforms, if_true]

end Created

/-! ## Decoding -/

def addAlgorithms (q : Proposal) (type : TransformType) (algorithms : List (U16 × U16)) : Proposal :=
  algorithms.foldl (fun q a => q.addAlgorithm type a.1 a.2) q

/-- What adding algorithms leaves as it is. -/
structure SameProposal (q decoded : Proposal) : Prop where
  protocol : decoded.protocol = q.protocol
  number : decoded.number = q.number
  spi : decoded.spi = q.spi

theorem sameProposal_addAlgorithms (q : Proposal) (type : TransformType)
    (algorithms : List (U16 × U16)) : SameProposal q (addAlgorithms q type algorithms) := by
  unfold addAlgorithms
  induction algorithms generalizing q with
  | nil => exact ⟨rfl, rfl, rfl⟩
  | cons a algorithms ih =>
    have hrest := ih (q.addAlgorithm type a.1 a.2)
    exact ⟨hrest.protocol, hrest.number, hrest.spi⟩

theorem createEnumerator_addAlgorithms (q : Proposal) (type t : TransformType)
    (algorithms : List (U16 × U16)) :
    (addAlgorithms q type algorithms).createEnumerator t =
      q.createEnumerator t ++ if type = t then algorithms else [] := by
  unfold addAlgorithms
  induction algorithms generalizing q with
  | nil => simp
  | cons a algorithms ih =>
    rw [List.foldl_cons, ih, createEnumerator_addAlgorithm]
    by_cases h : type = t <;> simp [h]

theorem addToProposalV2_transformV2 (q : Proposal) {type : TransformType} (htype : type ∈ typesV2)
    {a : U16 × U16} (hkey : type ≠ .encryptionAlgorithm → a.2 = 0) :
    addToProposalV2 q (transformV2 type a) = q.addAlgorithm type a.1 a.2 := by
  have hnumber : type.number % 256 = type.number := by
    simp only [typesV2, List.mem_cons, List.not_mem_nil, or_false] at htype
    rcases htype with rfl | rfl | rfl | rfl | rfl <;> rfl
  have hplain : addToProposalV2 q (TransformSubstructure.createType .plv2TransformSubstructure
      (BitVec.ofNat 8 type.number) a.1) = q.addAlgorithm type a.1 0 := by
    simp [addToProposalV2, TransformSubstructure.createType, TransformSubstructure.getTransformId,
      hnumber]
  unfold transformV2
  dsimp only
  split_ifs with h
  · rw [createValue_setWidth]
    simp [addToProposalV2, TransformSubstructure.createType, TransformSubstructure.getTransformId,
      TransformSubstructure.addTransformAttribute, TransformSubstructure.computeLength,
      TransformAttribute.getValue, tattrIkev2KeyLength, hnumber]
  · rw [hplain]
    have hzero : a.2 = 0 := by
      by_cases hencryption : type = .encryptionAlgorithm
      · exact not_not.1 fun hne => h ⟨hencryption, hne⟩
      · exact hkey hencryption
    rw [hzero]

def KeySizes (proposal : Proposal) : Prop :=
  ∀ entry ∈ proposal.transforms, entry.type ≠ .encryptionAlgorithm → entry.keySize = 0

variable {proposal : Proposal}

theorem KeySizes.createEnumerator (h : KeySizes proposal)
    {type : TransformType} {a : U16 × U16} (ha : a ∈ proposal.createEnumerator type)
    (htype : type ≠ .encryptionAlgorithm) : a.2 = 0 := by
  obtain ⟨entry, hentry, rfl⟩ := List.mem_map.1 ha
  obtain ⟨hmem, heq⟩ := List.mem_filter.1 hentry
  exact h entry hmem (by rwa [of_decide_eq_true heq])

variable {types : List TransformType}

theorem foldl_addToProposalV2 (hkeys : KeySizes proposal)
    (htypes : ∀ type ∈ types, type ∈ typesV2) (q : Proposal) :
    (types.flatMap fun type => (proposal.createEnumerator type).map (transformV2 type)).foldl
        addToProposalV2 q =
      types.foldl (fun q type => addAlgorithms q type (proposal.createEnumerator type)) q := by
  induction types generalizing q with
  | nil => rfl
  | cons type types ih =>
    rw [List.flatMap_cons, List.foldl_append, List.foldl_cons,
      ih fun t ht => htypes t (List.mem_cons_of_mem _ ht)]
    congr 1
    rw [List.foldl_map, addAlgorithms]
    refine List.foldl_ext _ _ _ fun q a ha => ?_
    exact addToProposalV2_transformV2 q (htypes type List.mem_cons_self)
      (hkeys.createEnumerator ha)

/-- **The algorithms of each type are added in their order.** -/
theorem createEnumerator_foldl_addAlgorithms
    (hnodup : types.Nodup) (q : Proposal) (t : TransformType) :
    (types.foldl (fun q type => addAlgorithms q type (proposal.createEnumerator type))
        q).createEnumerator t =
      q.createEnumerator t ++ if t ∈ types then proposal.createEnumerator t else [] := by
  induction types generalizing q with
  | nil => simp
  | cons type types ih =>
    rw [List.nodup_cons] at hnodup
    rw [List.foldl_cons, ih hnodup.2, createEnumerator_addAlgorithms]
    by_cases h : type = t
    · subst h
      simp [hnodup.1]
    · simp [h, Ne.symm h]

theorem sameProposal_foldl (types : List TransformType) (q : Proposal) :
    SameProposal q
      (types.foldl (fun q type => addAlgorithms q type (proposal.createEnumerator type)) q) := by
  induction types generalizing q with
  | nil => exact ⟨rfl, rfl, rfl⟩
  | cons type types ih =>
    have hone := sameProposal_addAlgorithms q type (proposal.createEnumerator type)
    have hrest := ih (addAlgorithms q type (proposal.createEnumerator type))
    exact ⟨hrest.protocol.trans hone.protocol, hrest.number.trans hone.number,
      hrest.spi.trans hone.spi⟩

theorem thingFromChunk_chunkFromThing {w : ℕ} (thing : BitVec w) (hw : 8 * (w / 8) = w) :
    thingFromChunk (chunkFromThing thing) = thing.toNat := by
  have hlt := thing.isLt
  have hpow : 256 ^ (w / 8) = 2 ^ w := by
    rw [show 256 = 2 ^ 8 from rfl, ← pow_mul, hw]
  rw [thingFromChunk, chunkFromThing, List.reverse_reverse,
    Bytes.value_ofNat_of_lt (by rw [hpow]; exact hlt)]

theorem Created.getSpi {this : ProposalSubstructure}
    (h : Created proposal this)
    (hprotocol : proposal.protocol = .ike ∨
      (proposal.protocol = .esp ∨ proposal.protocol = .ah) ∧ proposal.spi.toNat < 2 ^ 32) :
    this.getSpi = proposal.spi := by
  rw [ProposalSubstructure.getSpi, h.spi]
  rcases hprotocol with hike | ⟨hprotocol, hlt⟩
  · by_cases hspi : proposal.spi = 0
    · have hnone : spiOf proposal = [] := by simp [spiOf, hike, hspi]
      rw [hnone, hspi]
      rfl
    · have hsome : spiOf proposal = chunkFromThing proposal.spi := by
        rw [spiOf, hike]
        exact if_pos hspi
      rw [hsome, if_pos (by simp [chunkFromThing]), thingFromChunk_chunkFromThing _ rfl,
        BitVec.ofNat_toNat, BitVec.setWidth_eq]
  · have hsome : spiOf proposal = chunkFromThing (proposal.spi.setWidth 32) := by
      rcases hprotocol with h | h <;> simp [spiOf, h]
    rw [hsome, if_pos (by simp [chunkFromThing]), thingFromChunk_chunkFromThing _ rfl,
      BitVec.toNat_setWidth, Nat.mod_eq_of_lt hlt, BitVec.ofNat_toNat, BitVec.setWidth_eq]

/-! ## The number of transforms -/

theorem sum_count_le (hnodup : types.Nodup)
    (entries : List Proposal.Entry) :
    (types.map fun type => (entries.filter (·.type = type)).length).sum ≤ entries.length := by
  induction entries with
  | nil => simp
  | cons entry entries ih =>
    have hone : (types.map fun type => if entry.type = type then 1 else 0).sum ≤ 1 := by
      have hcount := List.nodup_iff_count_le_one.1 hnodup entry.type
      have hsum : (types.map fun type => if entry.type = type then 1 else 0).sum =
          types.count entry.type := by
        clear ih hcount hnodup
        induction types with
        | nil => rfl
        | cons type types ih =>
          rw [List.map_cons, List.sum_cons, ih, List.count_cons, Nat.add_comm]
          by_cases h : entry.type = type
          · simp [h]
          · simp [h, Ne.symm h]
      rwa [hsum]
    have hsplit : (types.map fun type => ((entry :: entries).filter (·.type = type)).length) =
        types.map fun type => (entries.filter (·.type = type)).length +
          if entry.type = type then 1 else 0 := by
      refine List.map_congr_left fun type _ => ?_
      by_cases h : entry.type = type <;> simp [h]
    rw [hsplit, List.sum_map_add, List.length_cons]
    omega

theorem length_transformsV2_le (proposal : Proposal) :
    (transformsV2 proposal).length ≤ proposal.transforms.length := by
  have hnodup : typesV2.Nodup := by decide
  have hsum := sum_count_le hnodup proposal.transforms
  rw [transformsV2, List.length_flatMap]
  simpa [Proposal.createEnumerator] using hsum

/-- Are all transforms of a type that IKEv2 has? -/
def TypesV2 (proposal : Proposal) : Prop := ∀ entry ∈ proposal.transforms, entry.type ∈ typesV2

theorem transformsV2_ne_nil (htypes : TypesV2 proposal)
    (hsome : proposal.transforms ≠ []) : transformsV2 proposal ≠ [] := by
  obtain ⟨entry, hentry⟩ := List.exists_mem_of_ne_nil _ hsome
  have hmem : (entry.alg, entry.keySize) ∈ proposal.createEnumerator entry.type :=
    List.mem_map.2 ⟨entry, List.mem_filter.2 ⟨hentry, by simp⟩, rfl⟩
  exact List.ne_nil_of_mem (List.mem_flatMap.2 ⟨entry.type, htypes entry hentry,
    List.mem_map_of_mem hmem⟩)

/-! ## The round trip -/

theorem equals_of_createEnumerator {this other : Proposal}
    (h : ∀ type, this.createEnumerator type = other.createEnumerator type) :
    this.equals other = true := by
  rw [Proposal.equals, List.all_eq_true]
  intro type _
  rw [h type, Proposal.algoListEquals_iff]

/-- What is decoded from the substructure of a proposal. -/
structure Survives (proposal : Proposal) (this : ProposalSubstructure) (decoded : Proposal) :
    Prop where
  verify : this.verify = .success
  getProposals : this.getProposals = some [decoded]
  protocol : decoded.protocol = proposal.protocol
  number : decoded.number = proposal.number
  spi : decoded.spi = proposal.spi
  equals : decoded.equals proposal = true ∧ proposal.equals decoded = true
  createEnumerator : ∀ type, decoded.createEnumerator type = proposal.createEnumerator type

/-- **A proposal of IKE, ESP or AH is decoded from the bytes of its substructure.** -/
theorem getProposals_decode_encode (proposal : Proposal)
    (hprotocol : proposal.protocol = .ike ∨
      (proposal.protocol = .esp ∨ proposal.protocol = .ah) ∧ proposal.spi.toNat < 2 ^ 32)
    (hsome : proposal.transforms ≠ []) (hcount : proposal.transforms.length ≤ 255)
    (hkeys : KeySizes proposal) (htypes : TypesV2 proposal) (hnumber : proposal.number < 256) :
    ∃ this decoded,
      decode .plv2ProposalSubstructure (createFromProposalV2 proposal).encode = some this ∧
      Survives proposal this decoded := by
  have hcreated := created_createFromProposalV2 proposal
  have hlength : (createFromProposalV2 proposal).transforms.length ≤ 255 := by
    rw [hcreated.length_transforms]
    exact (length_transformsV2_le proposal).trans hcount
  set this := createFromProposalV2 proposal with hthis
  set q := ProposalSubstructure.emptyProposal { this with type := .plv2ProposalSubstructure }
    proposal.protocol with hq
  set decoded := typesV2.foldl
    (fun q type => addAlgorithms q type (proposal.createEnumerator type)) q with hdecoded
  have hsame : SameProposal q decoded := sameProposal_foldl typesV2 q
  have henum (type : TransformType) :
      decoded.createEnumerator type = proposal.createEnumerator type := by
    rw [hdecoded, createEnumerator_foldl_addAlgorithms (by decide)]
    have hnil : q.createEnumerator type = [] := rfl
    rw [hnil, List.nil_append]
    by_cases h : type ∈ typesV2
    · rw [if_pos h]
    · rw [if_neg h, eq_comm, Proposal.createEnumerator_eq_nil]
      rintro ⟨entry, hentry, rfl⟩
      exact h (htypes entry hentry)
  have hfoldl : this.transforms.foldl addToProposalV2 q = decoded := by
    have hmap := hcreated.transforms (f := fun transform q => addToProposalV2 q transform)
      fun _ _ => rfl
    have hrun := congrArg (List.foldl (fun q f => f q) q) hmap
    rw [List.foldl_map, List.foldl_map] at hrun
    rw [hrun, hdecoded]
    exact foldl_addToProposalV2 hkeys (fun _ h => h) q
  have hne : this.transforms ≠ [] := by
    have hlist := transformsV2_ne_nil htypes hsome
    rw [ne_eq, ← List.length_eq_zero_iff] at hlist ⊢
    rwa [hcreated.length_transforms]
  refine ⟨_, decoded, decode_encode (hcreated.fits hlength), ?_⟩
  refine ⟨hcreated.verify hlength ?_, ?_, hsame.protocol, hsame.number.trans ?_,
    hsame.spi.trans (hcreated.getSpi hprotocol),
    ⟨equals_of_createEnumerator henum, equals_of_createEnumerator fun type => (henum type).symm⟩,
    henum⟩
  · rcases hprotocol with h | ⟨h | h, -⟩ <;> simp [h]
  · have hprotocolId : ProtocolId.ofU8 this.protocolId = some proposal.protocol := by
      rw [hcreated.protocolId, ofU8_toU8]
    rw [ProposalSubstructure.getProposals]
    simp only [hprotocolId, Option.map_some, if_true, if_neg hne]
    rw [← hq, hfoldl]
  · show this.proposalNumber.toNat = proposal.number
    rw [hcreated.number, BitVec.toNat_ofNat, Nat.mod_eq_of_lt hnumber]

/-- An IKE proposal with the algorithms of each type -/
theorem getProposals_decode_encode_ike :
    ∃ this decoded, decode .plv2ProposalSubstructure (createFromProposalV2
        (((((Proposal.create .ike 1).addAlgorithm .encryptionAlgorithm encrAesCbc 128).addAlgorithm
          .pseudoRandomFunction prfHmacSha2256 0).addAlgorithm .integrityAlgorithm 12
          0).addAlgorithm .diffieHellmanGroup 14 0)).encode = some this ∧
      Survives (((((Proposal.create .ike 1).addAlgorithm .encryptionAlgorithm encrAesCbc
        128).addAlgorithm .pseudoRandomFunction prfHmacSha2256 0).addAlgorithm .integrityAlgorithm
        12 0).addAlgorithm .diffieHellmanGroup 14 0) this decoded :=
  getProposals_decode_encode _ (.inl rfl) (by decide) (by decide)
    (show ∀ entry ∈ _, _ by decide) (show ∀ entry ∈ _, _ by decide) (by decide)

/-- A transform of another type is not encoded. -/
theorem not_getProposals :
    ¬∀ proposal : Proposal,
      proposal.protocol = .ike ∨ proposal.protocol = .esp ∨ proposal.protocol = .ah →
      proposal.transforms ≠ [] → proposal.transforms.length ≤ 255 → KeySizes proposal →
      proposal.number < 256 → ∃ this decoded,
        decode .plv2ProposalSubstructure (createFromProposalV2 proposal).encode = some this ∧
        Survives proposal this decoded := by
  intro h
  set proposal := (Proposal.create .ike 1).addAlgorithm ⟨256⟩ 1 0
  obtain ⟨this, decoded, hthis, hsurvives⟩ := h proposal (.inl rfl) (by decide) (by decide)
    (show ∀ entry ∈ _, _ by decide) (by decide)
  have hfits := (created_createFromProposalV2 proposal).fits (by decide)
  rw [decode_encode hfits, Option.some.injEq] at hthis
  have hproposals := hsurvives.getProposals
  rw [← hthis] at hproposals
  have hnone : ProposalSubstructure.getProposals { createFromProposalV2 proposal with
      type := .plv2ProposalSubstructure } = some [] := by decide
  rw [hnone] at hproposals
  cases hproposals

end ProposalSubstructure

end StrongSwan
