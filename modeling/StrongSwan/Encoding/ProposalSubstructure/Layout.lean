import StrongSwan.Encoding.Generator
import StrongSwan.Encoding.Parser.Ahead
import StrongSwan.Encoding.ProposalSubstructure

/-!
# The bytes of proposal substructures

* `TransformAttribute.bytes`, …: the layout of a substructure.
* `wrote_attribute`, …: the generator writes it.
* `reads_attribute`, …: the parser reads the substructure from it.
* **`decode_encode`**: what is parsed is what was generated.
-/

namespace StrongSwan

open Encodings

/-! ## Fields -/

namespace TransformAttribute

/-- The fields that rules refer to. -/
def toPayload (this : TransformAttribute) : Encodings.Payload :=
  .mk .transformAttribute this.type
    (fun
      | .attributeFormat => if this.attributeFormat then 1 else 0
      | .attributeType => this.attributeType.toNat
      | .attributeLengthOrValue => this.attributeLengthOrValue.toNat
      | _ => 0)
    (fun
      | .attributeValue => this.attributeValue
      | _ => [])
    []

/-- The attribute with the fields of a payload -/
def ofPayload (pld : Encodings.Payload) : TransformAttribute where
  attributeFormat := pld.num .attributeFormat ≠ 0
  attributeType := BitVec.ofNat 16 (pld.num .attributeType)
  attributeLengthOrValue := BitVec.ofNat 16 (pld.num .attributeLengthOrValue)
  attributeValue := pld.chunk .attributeValue
  type := pld.type

/-- The format is the first bit of the type. -/
def formatAndType (this : TransformAttribute) : U16 :=
  if this.attributeFormat then this.attributeType &&& 0x7fff ||| 0x8000
  else this.attributeType &&& 0x7fff

/-- The layout of an attribute -/
def bytes (this : TransformAttribute) : Chunk :=
  htoun16 this.formatAndType ++ htoun16 this.attributeLengthOrValue ++
    if this.attributeFormat then [] else this.attributeValue

end TransformAttribute

namespace TransformSubstructure

def toPayload (this : TransformSubstructure) : Encodings.Payload :=
  .mk .transformSubstructure this.type
    (fun
      | .nextPayload => this.nextPayload.toNat
      | .payloadLength => this.transformLength.toNat
      | .transformTon => this.transformTon.toNat
      | .transformIdV1 => this.transformIdV1.toNat
      | .transformIdV2 => this.transformIdV2.toNat
      | _ => 0)
    (fun _ => []) (this.attributes.map (·.toPayload))

def ofPayload (pld : Encodings.Payload) : TransformSubstructure where
  nextPayload := BitVec.ofNat 8 (pld.num .nextPayload)
  transformLength := BitVec.ofNat 16 (pld.num .payloadLength)
  transformTon := BitVec.ofNat 8 (pld.num .transformTon)
  transformIdV1 := BitVec.ofNat 8 (pld.num .transformIdV1)
  transformIdV2 := BitVec.ofNat 16 (pld.num .transformIdV2)
  attributes := pld.list.map .ofPayload
  type := pld.type

/-- The identifier, which has one byte in IKEv1 -/
def idBytes (this : TransformSubstructure) : Chunk :=
  if this.type = .plv2TransformSubstructure then [0] ++ htoun16 this.transformIdV2
  else [this.transformIdV1] ++ [0] ++ [0]

/-- The layout of a transform -/
def bytes (this : TransformSubstructure) : Chunk :=
  [this.nextPayload] ++ [0] ++ htoun16 this.transformLength ++ [this.transformTon] ++
    this.idBytes ++ this.attributes.flatMap (·.bytes)

end TransformSubstructure

namespace ProposalSubstructure

def toPayload (this : ProposalSubstructure) : Encodings.Payload :=
  .mk .proposalSubstructure this.type
    (fun
      | .nextPayload => this.nextPayload.toNat
      | .payloadLength => this.proposalLength.toNat
      | .proposalNumber => this.proposalNumber.toNat
      | .protocolId => this.protocolId.toNat
      | .spiSize => this.spiSize.toNat
      | .transformsCount => this.transformsCount.toNat
      | _ => 0)
    (fun
      | .spi => this.spi
      | _ => [])
    (this.transforms.map (·.toPayload))

def ofPayload (pld : Encodings.Payload) : ProposalSubstructure where
  nextPayload := BitVec.ofNat 8 (pld.num .nextPayload)
  proposalLength := BitVec.ofNat 16 (pld.num .payloadLength)
  proposalNumber := BitVec.ofNat 8 (pld.num .proposalNumber)
  protocolId := BitVec.ofNat 8 (pld.num .protocolId)
  spiSize := BitVec.ofNat 8 (pld.num .spiSize)
  transformsCount := BitVec.ofNat 8 (pld.num .transformsCount)
  spi := pld.chunk .spi
  transforms := pld.list.map .ofPayload
  type := pld.type

/-- The layout of a proposal -/
def bytes (this : ProposalSubstructure) : Chunk :=
  [this.nextPayload] ++ [0] ++ htoun16 this.proposalLength ++ [this.proposalNumber] ++
    [this.protocolId] ++ [this.spiSize] ++ [this.transformsCount] ++ this.spi ++
    this.transforms.flatMap (·.bytes)

end ProposalSubstructure

/-! ## Generating -/

namespace Encodings.Generator

/-- A generator wrote some bytes, and is aligned. -/
structure Wrote (this next : Generator) (bytes : Chunk) : Prop where
  buffer : next.buffer = this.buffer ++ bytes
  currentBit : next.currentBit = 0

variable {this : Generator}

theorem wrote_generateUInt (h : this.currentBit = 0) (size n : ℕ) :
    Wrote this (this.generateUInt size n) (Bytes.ofNat size n) := by
  rw [generateUInt, if_neg (by simp [h])]
  exact ⟨rfl, h⟩

theorem wrote_generateFromChunk (h : this.currentBit = 0) (value : Chunk) :
    Wrote this (this.generateFromChunk value) value := by
  rw [generateFromChunk, if_neg (by simp [h])]
  exact ⟨rfl, h⟩

theorem Wrote.trans {this next end_ : Generator} {bytes bytes' : Chunk} (h : Wrote this next bytes)
    (h' : Wrote next end_ bytes') : Wrote this end_ (bytes ++ bytes') where
  buffer := by rw [h'.buffer, h.buffer, List.append_assoc]
  currentBit := h'.currentBit

theorem ofNat_one (b : U8) : Bytes.ofNat 1 b.toNat = [b] := by
  simp [Bytes.ofNat]

theorem wrote_generateList {α : Type} {toPayload : α → Payload} {bytes : α → Chunk}
    (hwrote : ∀ x this, this.currentBit = 0 →
      Wrote this (generatePayload (toPayload x) this) (bytes x))
    (items : List α) (h : this.currentBit = 0) :
    Wrote this (generateList (items.map toPayload) this) (items.flatMap bytes) := by
  induction items generalizing this with
  | nil => exact ⟨(List.append_nil _).symm, h⟩
  | cons x items ih =>
    have hx := hwrote x this h
    exact hx.trans (ih hx.currentBit)

theorem attributeFormat_generateUInt (this : Generator) (size n : ℕ) :
    (this.generateUInt size n).attributeFormat = this.attributeFormat := by
  unfold generateUInt
  split_ifs <;> rfl

theorem attributeFormat_generateAttributeType (this : Generator) (n : ℕ) :
    (this.generateAttributeType n).attributeFormat = this.attributeFormat := by
  unfold generateAttributeType
  split_ifs <;> rfl

theorem wrote_attributeType (h : this.currentBit = 0)
    (tattr : TransformAttribute) :
    Wrote this (generateAttributeType { this.generateFlag tattr.attributeFormat with
      attributeFormat := tattr.attributeFormat } tattr.attributeType.toNat)
      (htoun16 tattr.formatAndType) := by
  have hflag : this.generateFlag tattr.attributeFormat =
      { this with outByte := if tattr.attributeFormat then 0x80 else 0, currentBit := 1 } := by
    cases tattr.attributeFormat <;> simp [generateFlag, h]
  rw [hflag, generateAttributeType, if_neg (by simp)]
  refine ⟨?_, rfl⟩
  cases hformat : tattr.attributeFormat <;>
    simp [writeBytesToBuffer, TransformAttribute.formatAndType, hformat]

theorem wrote_attribute (tattr : TransformAttribute) (this : Generator) (h : this.currentBit = 0) :
    Wrote this (generatePayload tattr.toPayload this) tattr.bytes := by
  set typed := generateAttributeType { this.generateFlag tattr.attributeFormat with
    attributeFormat := tattr.attributeFormat } tattr.attributeType.toNat with htyped
  have htype : Wrote this typed _ := wrote_attributeType h tattr
  have hlength := htype.trans (wrote_generateUInt htype.currentBit 2
    tattr.attributeLengthOrValue.toNat)
  have hformat : (typed.generateUInt 2 tattr.attributeLengthOrValue.toNat).attributeFormat =
      tattr.attributeFormat := by
    rw [attributeFormat_generateUInt, htyped, attributeFormat_generateAttributeType]
  have hrun : generatePayload tattr.toPayload this =
      if !(typed.generateUInt 2 tattr.attributeLengthOrValue.toNat).attributeFormat then
        (typed.generateUInt 2 tattr.attributeLengthOrValue.toNat).generateFromChunk
          tattr.attributeValue
      else typed.generateUInt 2 tattr.attributeLengthOrValue.toNat := by
    have hnum : decide ((if tattr.attributeFormat then 1 else 0) ≠ 0) = tattr.attributeFormat := by
      cases tattr.attributeFormat <;> rfl
    simp only [TransformAttribute.toPayload, generatePayload, getEncodingRules, List.foldl_cons,
      List.foldl_nil, generateRule, hnum, htyped]
  rw [hrun, hformat, TransformAttribute.bytes]
  cases tattr.attributeFormat with
  | true => simpa [htoun16] using hlength
  | false =>
    exact hlength.trans (wrote_generateFromChunk hlength.currentBit tattr.attributeValue)

theorem wrote_byte (h : this.currentBit = 0) (b : U8) :
    Wrote this (this.generateUInt 1 b.toNat) [b] := by
  have hwrote := wrote_generateUInt h 1 b.toNat
  rwa [ofNat_one] at hwrote

theorem wrote_transform (transform : TransformSubstructure) (this : Generator)
    (h : this.currentBit = 0) :
    Wrote this (generatePayload transform.toPayload this) transform.bytes := by
  have hnext := wrote_byte h transform.nextPayload
  have hreserved := hnext.trans (wrote_byte hnext.currentBit 0)
  have hlength := hreserved.trans (wrote_generateUInt hreserved.currentBit 2
    transform.transformLength.toNat)
  have hton := hlength.trans (wrote_byte hlength.currentBit transform.transformTon)
  by_cases htype : transform.type = .plv2TransformSubstructure
  · have hpad := hton.trans (wrote_byte hton.currentBit 0)
    have hid := hpad.trans (wrote_generateUInt hpad.currentBit 2 transform.transformIdV2.toNat)
    have hlist := hid.trans (wrote_generateList wrote_attribute
      transform.attributes hid.currentBit)
    have hrun : generatePayload transform.toPayload this = generateList
        (transform.attributes.map (·.toPayload)) (((((((this.generateUInt 1
          transform.nextPayload.toNat).generateUInt 1 0).generateUInt 2
          transform.transformLength.toNat).generateUInt 1 transform.transformTon.toNat).generateUInt
          1 0).generateUInt 2 transform.transformIdV2.toNat)) := by
      simp only [TransformSubstructure.toPayload, generatePayload, getEncodingRules, if_pos htype]
      rfl
    rw [hrun, TransformSubstructure.bytes, TransformSubstructure.idBytes, if_pos htype]
    simpa [htoun16] using hlist
  · have hid := hton.trans (wrote_byte hton.currentBit transform.transformIdV1)
    have hpad := hid.trans (wrote_byte hid.currentBit 0)
    have hpad' := hpad.trans (wrote_byte hpad.currentBit 0)
    have hlist := hpad'.trans (wrote_generateList wrote_attribute
      transform.attributes hpad'.currentBit)
    have hrun : generatePayload transform.toPayload this = generateList
        (transform.attributes.map (·.toPayload)) (((((((this.generateUInt 1
          transform.nextPayload.toNat).generateUInt 1 0).generateUInt 2
          transform.transformLength.toNat).generateUInt 1 transform.transformTon.toNat).generateUInt
          1 transform.transformIdV1.toNat).generateUInt 1 0).generateUInt 1 0) := by
      simp only [TransformSubstructure.toPayload, generatePayload, getEncodingRules, if_neg htype]
      rfl
    rw [hrun, TransformSubstructure.bytes, TransformSubstructure.idBytes, if_neg htype]
    simpa [htoun16] using hlist

theorem wrote_proposal (proposal : ProposalSubstructure) (this : Generator)
    (h : this.currentBit = 0) :
    Wrote this (generatePayload proposal.toPayload this) proposal.bytes := by
  have hnext := wrote_byte h proposal.nextPayload
  have hreserved := hnext.trans (wrote_byte hnext.currentBit 0)
  have hlength := hreserved.trans (wrote_generateUInt hreserved.currentBit 2
    proposal.proposalLength.toNat)
  have hnumber := hlength.trans (wrote_byte hlength.currentBit proposal.proposalNumber)
  have hprotocol := hnumber.trans (wrote_byte hnumber.currentBit proposal.protocolId)
  have hspiSize := hprotocol.trans (wrote_byte hprotocol.currentBit proposal.spiSize)
  have hcount := hspiSize.trans (wrote_byte hspiSize.currentBit proposal.transformsCount)
  have hspi := hcount.trans (wrote_generateFromChunk hcount.currentBit proposal.spi)
  have hlist := hspi.trans (wrote_generateList wrote_transform
    proposal.transforms hspi.currentBit)
  have hrun : generatePayload proposal.toPayload this = generateList
      (proposal.transforms.map (·.toPayload)) ((((((((this.generateUInt 1
        proposal.nextPayload.toNat).generateUInt 1 0).generateUInt 2
        proposal.proposalLength.toNat).generateUInt 1 proposal.proposalNumber.toNat).generateUInt 1
        proposal.protocolId.toNat).generateUInt 1 proposal.spiSize.toNat).generateUInt 1
        proposal.transformsCount.toNat).generateFromChunk proposal.spi) := by
    simp only [ProposalSubstructure.toPayload, generatePayload, getEncodingRules]
    rfl
  rw [hrun, ProposalSubstructure.bytes]
  simpa [htoun16] using hlist

end Encodings.Generator

/-! ## Parsing -/

/-- The layout of an attribute has its fields. -/
structure TransformAttribute.Fits (this : TransformAttribute) : Prop where
  type : this.type = .plv2TransformAttribute ∨ this.type = .plv1TransformAttribute
  attributeType : this.attributeType.toNat < 2 ^ 15
  value : this.attributeValue.length =
    if this.attributeFormat then 0 else this.attributeLengthOrValue.toNat

structure TransformSubstructure.Fits (this : TransformSubstructure) : Prop where
  type : this.type = .plv2TransformSubstructure ∧ this.transformIdV1 = 0 ∨
    this.type = .plv1TransformSubstructure ∧ this.transformIdV2 = 0
  length : this.transformLength.toNat = this.bytes.length
  attributes : ∀ tattr ∈ this.attributes, tattr.Fits ∧
    tattr.type = if this.type = .plv2TransformSubstructure then .plv2TransformAttribute
      else .plv1TransformAttribute

/-- The layout of a proposal has its fields, and its lengths are those of the layout. -/
structure ProposalSubstructure.Fits (this : ProposalSubstructure) (type : Encodings.PayloadType) :
    Prop where
  version : type = .plv2ProposalSubstructure ∨ type = .plv1ProposalSubstructure
  length : this.proposalLength.toNat = this.bytes.length
  spiSize : this.spiSize.toNat = this.spi.length
  transforms : ∀ transform ∈ this.transforms, transform.Fits ∧
    transform.type = if type = .plv2ProposalSubstructure then .plv2TransformSubstructure
      else .plv1TransformSubstructure

namespace Encodings.Parser

section Empty

variable (cls : PayloadClass) (type : Encodings.PayloadType)

@[simp] theorem num_empty : (Encodings.Payload.empty cls type).num = fun _ => 0 := rfl
@[simp] theorem chunk_empty : (Encodings.Payload.empty cls type).chunk = fun _ => [] := rfl
@[simp] theorem cls_empty : (Encodings.Payload.empty cls type).cls = cls := rfl
@[simp] theorem type_empty : (Encodings.Payload.empty cls type).type = type := rfl

end Empty

theorem value_htoun16 (n : U16) : Bytes.value (htoun16 n) = n.toNat :=
  Bytes.value_ofNat_of_lt (by have := n.isLt; omega)

theorem value_singleton (b : U8) : Bytes.value [b] = b.toNat := by simp [Bytes.value]

/-- The local variables at the start -/
def noLocals : Locals := ⟨0, 0, 0, 0, false⟩

/-- **A payload is read** if its rules read it, from the fields that are there before. -/
theorem reads_of_readsAll {depth : ℕ} {type : Encodings.PayloadType} {bytes : Chunk}
    {good : Encodings.Payload → Prop}
    {start : Payload} (hcreate : ∀ version, payloadCreate type version = start)
    (h : ReadsAll (parsePayload depth) (getEncodingRules start.cls start.type) (start, noLocals)
      bytes good) :
    Reads (parsePayload (depth + 1)) type bytes good := by
  intro this ys hahead
  have hbit : this.bitPos < 8 := by simp [hahead.bitPos]
  have hsucc := parsePayload_succ depth hbit type
  simp only [hcreate] at hsucc
  obtain ⟨part, next, hpart, htook, hgood⟩ :=
    h { this with rules := getEncodingRules start.cls start.type } ys
      ⟨hahead.bitPos, hahead.isPrefix, hahead.roof⟩
  refine ⟨part.1, next, ?_, ⟨htook.input, htook.inputRoof, htook.majorVersion, htook.bitPos,
    htook.bytePos⟩, hgood⟩
  unfold noLocals at hpart
  rw [hsucc, hpart]
  rfl

theorem toNat_formatAndType {tattr : TransformAttribute} (h : tattr.Fits) :
    tattr.formatAndType.toNat =
      tattr.attributeType.toNat + if tattr.attributeFormat then 2 ^ 15 else 0 := by
  have hlt := h.attributeType
  have hmask : (tattr.attributeType &&& 0x7fff).toNat = tattr.attributeType.toNat := by
    have hones : (0x7fff : U16).toNat = 2 ^ 15 - 1 := rfl
    rw [BitVec.toNat_and, hones, Nat.and_two_pow_sub_one_eq_mod, Nat.mod_eq_of_lt hlt]
  unfold TransformAttribute.formatAndType
  cases tattr.attributeFormat with
  | true =>
    have hbit : (0x8000 : U16).toNat = 2 ^ 15 * 1 := rfl
    rw [if_pos rfl, if_pos rfl, BitVec.toNat_or, hmask, hbit, Nat.or_comm,
      ← Nat.two_pow_add_eq_or_of_lt hlt]
    omega
  | false => rw [if_neg Bool.false_ne_true, if_neg Bool.false_ne_true, hmask, Nat.add_zero]

theorem reads_attribute {tattr : TransformAttribute} (depth : ℕ) (h : tattr.Fits) :
    Reads (parsePayload (depth + 1)) tattr.type tattr.bytes
      fun pld => TransformAttribute.ofPayload pld = tattr := by
  have hcreate : ∀ version, payloadCreate tattr.type version =
      (Encodings.Payload.empty .transformAttribute tattr.type).setNum .payloadLength 0 := by
    intro version
    rcases h.type with htype | htype <;> rw [htype] <;> rfl
  have hnat := toNat_formatAndType h
  have hlt := h.attributeType
  have hlength := h.value
  have hdiv : tattr.formatAndType.toNat / 2 ^ 15 = if tattr.attributeFormat then 1 else 0 := by
    rw [hnat]
    split_ifs <;> omega
  have hmod : tattr.formatAndType.toNat % 2 ^ 15 = tattr.attributeType.toNat := by
    rw [hnat]
    split_ifs <;> omega
  refine reads_of_readsAll hcreate ?_
  rw [TransformAttribute.bytes, List.append_assoc, ← List.append_nil (_ ++ (_ ++ _)),
    List.append_assoc, List.append_assoc]
  refine readsAll_attributeType (length_htoun16 _) ?_
  refine readsAll_lengthOrValue (length_htoun16 _) ?_
  refine readsAll_attributeValue ?_ (readsAll_nil ?_)
  · simp only [value_htoun16, hdiv]
    cases hformat : tattr.attributeFormat with
    | true => simp
    | false => simpa [hformat] using hlength
  · simp only [value_htoun16, hdiv, hmod]
    obtain ⟨format, kind, lengthOrValue, value, type⟩ := tattr
    cases format with
    | true =>
      have hnil : value = [] := by simpa using hlength
      simp [TransformAttribute.ofPayload, hnil]
    | false => simp [TransformAttribute.ofPayload]

theorem map_eq_of_forall₂ {α : Type} {ofPayload : Encodings.Payload → α} {items : List α}
    {plds : List Payload} (h : List.Forall₂ (fun x pld => ofPayload pld = x) items plds) :
    plds.map ofPayload = items := by
  induction h with
  | nil => rfl
  | cons hx _ ih => rw [List.map_cons, hx, ih]

theorem length_attribute_pos (tattr : TransformAttribute) : 0 < tattr.bytes.length := by
  simp [TransformAttribute.bytes]

theorem length_transform (transform : TransformSubstructure) :
    transform.bytes.length = 8 + (transform.attributes.flatMap (·.bytes)).length := by
  unfold TransformSubstructure.bytes TransformSubstructure.idBytes
  split_ifs <;> simp <;> omega

theorem length_proposal (proposal : ProposalSubstructure) :
    proposal.bytes.length =
      8 + proposal.spi.length + (proposal.transforms.flatMap (·.bytes)).length := by
  simp [ProposalSubstructure.bytes]
  omega

theorem reads_transform {transform : TransformSubstructure} (depth : ℕ) (h : transform.Fits) :
    Reads (parsePayload (depth + 2)) transform.type transform.bytes
      fun pld => TransformSubstructure.ofPayload pld = transform := by
  have hcreate : ∀ version, payloadCreate transform.type version =
      (Encodings.Payload.empty .transformSubstructure transform.type).setNum .payloadLength 8 := by
    intro version
    rcases h.type with ⟨htype, -⟩ | ⟨htype, -⟩ <;> rw [htype] <;> rfl
  have hlength := h.length
  rw [length_transform] at hlength
  have hfour : 4 ≤ Bytes.value (htoun16 transform.transformLength) := by
    rw [value_htoun16]
    omega
  have hitems (type : Encodings.PayloadType)
      (htype : ∀ tattr ∈ transform.attributes, tattr.type = type) :
      ∀ tattr ∈ transform.attributes, 0 < tattr.bytes.length ∧
        Reads (parsePayload (depth + 1)) type tattr.bytes
          fun pld => TransformAttribute.ofPayload pld = tattr := by
    intro tattr htattr
    have hreads := reads_attribute depth (h.attributes tattr htattr).1
    rw [htype tattr htattr] at hreads
    exact ⟨length_attribute_pos tattr, hreads⟩
  refine reads_of_readsAll hcreate ?_
  obtain ⟨next, length, ton, idV1, idV2, attributes, type⟩ := transform
  rcases h.type with ⟨htype, hid⟩ | ⟨htype, hid⟩
  · dsimp only at htype hid
    subst htype hid
    have hrules : getEncodingRules .transformSubstructure .plv2TransformSubstructure =
        [⟨.uInt8, .nextPayload⟩, ⟨.reservedByte, .reservedByte 0⟩, ⟨.payloadLength, .payloadLength⟩,
          ⟨.uInt8, .transformTon⟩, ⟨.reservedByte, .reservedByte 1⟩, ⟨.uInt16, .transformIdV2⟩,
          ⟨.payloadList .plv2TransformAttribute, .attributes⟩] := rfl
    simp only [Encodings.Payload.cls_setNum, Encodings.Payload.type_setNum, cls_empty, type_empty, hrules,
      TransformSubstructure.bytes, TransformSubstructure.idBytes, if_true, List.append_assoc]
    refine readsAll_num rfl rfl (readsAll_num rfl rfl ?_)
    refine readsAll_payloadLength (length_htoun16 _) hfour ?_
    refine readsAll_num rfl rfl (readsAll_num rfl rfl ?_)
    refine readsAll_num rfl (length_htoun16 _) ?_
    refine readsAll_payloadList (hitems _ fun tattr htattr => (h.attributes tattr htattr).2) ?_ ?_
    · simpa [value_htoun16, Encodings.Payload.getHeaderLength, fixedHeaderLength] using hlength
    · intro plds hplds
      simp [TransformSubstructure.ofPayload, map_eq_of_forall₂ hplds, value_htoun16,
        value_singleton]
  · dsimp only at htype hid
    subst htype hid
    have hrules : getEncodingRules .transformSubstructure .plv1TransformSubstructure =
        [⟨.uInt8, .nextPayload⟩, ⟨.reservedByte, .reservedByte 0⟩, ⟨.payloadLength, .payloadLength⟩,
          ⟨.uInt8, .transformTon⟩, ⟨.uInt8, .transformIdV1⟩, ⟨.reservedByte, .reservedByte 1⟩,
          ⟨.reservedByte, .reservedByte 2⟩,
          ⟨.payloadList .plv1TransformAttribute, .attributes⟩] := rfl
    have hv1 : Encodings.PayloadType.plv1TransformSubstructure ≠ .plv2TransformSubstructure := by
      decide
    simp only [Encodings.Payload.cls_setNum, Encodings.Payload.type_setNum, cls_empty, type_empty, hrules,
      TransformSubstructure.bytes, TransformSubstructure.idBytes, if_neg hv1, List.append_assoc]
    refine readsAll_num rfl rfl (readsAll_num rfl rfl ?_)
    refine readsAll_payloadLength (length_htoun16 _) hfour ?_
    refine readsAll_num rfl rfl (readsAll_num rfl rfl ?_)
    refine readsAll_num rfl rfl (readsAll_num rfl rfl ?_)
    refine readsAll_payloadList (hitems _ fun tattr htattr => (h.attributes tattr htattr).2) ?_ ?_
    · simpa [value_htoun16, Encodings.Payload.getHeaderLength, fixedHeaderLength] using hlength
    · intro plds hplds
      simp [TransformSubstructure.ofPayload, map_eq_of_forall₂ hplds, value_htoun16,
        value_singleton]

/-- **A proposal is read from its layout.** -/
theorem reads_proposal {proposal : ProposalSubstructure} {type : Encodings.PayloadType} (depth : ℕ)
    (h : proposal.Fits type) :
    Reads (parsePayload (depth + 3)) type proposal.bytes
      fun pld => ProposalSubstructure.ofPayload pld = { proposal with type := type } := by
  have hcreate : ∀ version, payloadCreate type version =
      (Encodings.Payload.empty .proposalSubstructure type).setNum .payloadLength 8 := by
    intro version
    rcases h.version with htype | htype <;> rw [htype] <;> rfl
  have hlength := h.length
  rw [length_proposal] at hlength
  have hfour : 4 ≤ Bytes.value (htoun16 proposal.proposalLength) := by
    rw [value_htoun16]
    omega
  set element : Encodings.PayloadType :=
    if type = .plv2ProposalSubstructure then .plv2TransformSubstructure
    else .plv1TransformSubstructure with helement
  have hitems : ∀ transform ∈ proposal.transforms, 0 < transform.bytes.length ∧
      Reads (parsePayload (depth + 2)) element transform.bytes
        fun pld => TransformSubstructure.ofPayload pld = transform := by
    intro transform htransform
    obtain ⟨hfits, htype⟩ := h.transforms transform htransform
    have hreads := reads_transform depth hfits
    rw [htype] at hreads
    refine ⟨?_, hreads⟩
    rw [length_transform]
    omega
  refine reads_of_readsAll hcreate ?_
  have hrules : getEncodingRules .proposalSubstructure type =
      [⟨.uInt8, .nextPayload⟩, ⟨.reservedByte, .reservedByte 0⟩, ⟨.payloadLength, .payloadLength⟩,
        ⟨.uInt8, .proposalNumber⟩, ⟨.uInt8, .protocolId⟩, ⟨.spiSize, .spiSize⟩,
        ⟨.uInt8, .transformsCount⟩, ⟨.spi, .spi⟩, ⟨.payloadList element, .transforms⟩] := rfl
  simp only [Encodings.Payload.cls_setNum, Encodings.Payload.type_setNum, cls_empty, type_empty, hrules,
    ProposalSubstructure.bytes, List.append_assoc]
  refine readsAll_num rfl rfl (readsAll_num rfl rfl ?_)
  refine readsAll_payloadLength (length_htoun16 _) hfour ?_
  refine readsAll_num rfl rfl (readsAll_num rfl rfl ?_)
  refine readsAll_spiSize rfl (readsAll_num rfl rfl ?_)
  refine readsAll_spi ?_ ?_
  · rw [value_singleton, h.spiSize]
  refine readsAll_payloadList hitems ?_ ?_
  · simp only [value_htoun16, value_singleton, hlength, Encodings.Payload.getHeaderLength]
    simp [fixedHeaderLength, h.spiSize]
  · intro plds hplds
    simp [ProposalSubstructure.ofPayload, map_eq_of_forall₂ hplds, value_htoun16, value_singleton]

end Encodings.Parser

/-! ## Encoding and decoding -/

namespace ProposalSubstructure

/-- The bytes that a new generator writes -/
def encode (this : ProposalSubstructure) : Chunk :=
  (Generator.generatePayload this.toPayload {}).getChunk

/-- The substructure that a new parser reads from some bytes -/
def decode (type : Encodings.PayloadType) (bytes : Chunk) : Option ProposalSubstructure :=
  match Parser.parsePayload 4 (Parser.create bytes) type with
  | some (some pld, _) => some (ofPayload pld)
  | _ => none

/-- **What is parsed is what was generated.** -/
theorem decode_encode {this : ProposalSubstructure} {type : Encodings.PayloadType} (h : this.Fits type) :
    decode type this.encode = some { this with type := type } := by
  have hencode : this.encode = this.bytes := by
    have hwrote := (Generator.wrote_proposal this {} rfl).buffer
    exact hwrote.trans (List.nil_append _)
  have hahead : Parser.Ahead (Parser.create this.bytes) (this.bytes ++ []) :=
    ⟨rfl, by simp [Parser.create], by simp [Parser.create]⟩
  obtain ⟨pld, next, hparse, -, hpld⟩ := Parser.reads_proposal 1 h _ _ hahead
  rw [decode, hencode, hparse]
  exact congrArg some hpld

end ProposalSubstructure

end StrongSwan
