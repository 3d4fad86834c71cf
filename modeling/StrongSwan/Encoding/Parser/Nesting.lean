import StrongSwan.Encoding.Parser.Rules

/-!
# Nested payloads

A payload takes the bytes that its length field says, as its header and the data or the list behind it
do, and a list fills the rest of its parent. The exception is the substructure of a traffic selector: its
addresses have the length of its type, and nothing compares its length field with them.

* `width`, **`parseAll_taken`**: how far each structure goes, by its fields.
* `parseRules_eq`: the pointer to the rules stays where it is up to the list of a structure.
* `rank`, `parsePayload_extends`: structures are nested to a depth of four.
* **`parsePayload_spec`**: how far a payload goes.
* `extent`, **`nests_exactly`**: a payload takes the bytes that its length field says, unless it is the
  substructure of a traffic selector whose length field is not that of its addresses.
-/

namespace StrongSwan

namespace Encodings

namespace Parser

variable {α β : Type} {this next : Parser} {element : Element} {pld : Payload} {locals : Locals}

/-! ## Payloads -/

open PayloadType in
/-- The bytes a payload takes, by its fields. -/
def width (p : Payload) : ℕ :=
  match p.cls with
  | .ikeHeader => 28
  | .trafficSelectorSubstructure => 8 + 2 * addressLength (p.num .tsType)
  | .transformAttribute =>
    if p.num .attributeFormat ≠ 0 then 4 else 4 + p.num .attributeLengthOrValue
  | .configurationAttribute =>
    if p.type ≠ plv2ConfigurationAttribute ∧ p.num .afFlag ≠ 0 then 4 else 4 + p.num .lengthOrValue
  | _ => p.num .payloadLength

def listType (cls : PayloadClass) (type : PayloadType) : Option PayloadType :=
  (getEncodingRules cls type).getLast?.bind elementType?

/-- A payload that ends before the input does: not an encrypted one of IKEv1. -/
def HasEnd (p : Payload) : Prop := p.cls = .encrypted → p.type = .plv2Encrypted

/-- A payload was read, with its list between its header and its end. -/
structure Taken (element : Element) (start : Parser) (pld p : Payload) (next : Parser) : Prop where
  cls : p.cls = pld.cls
  type : p.type = pld.type
  pos : HasEnd p → next.pos = start.pos + 8 * width p
  four_le : HasEnd p → 4 ≤ width p
  elements : ∀ type, listType p.cls p.type = some type → ∃ first, Goes start first ∧
    first.pos = start.pos + 8 * p.getHeaderLength ∧ Elements element type first p.list next
  selector : p.cls = .trafficSelectorSubstructure →
    p.num .tsType = start.wire 0 1 ∧ p.num .payloadLength = start.wire 2 2

variable {cls : PayloadClass} {type : PayloadType}

theorem listType_concat {head : List Rule} {last : Rule}
    (h : getEncodingRules cls type = head ++ [last]) : listType cls type = elementType? last := by
  rw [listType, h, List.getLast?_concat, Option.bind_some]

theorem width_eq {p : Payload} (h : p.cls ∉ [.ikeHeader, .trafficSelectorSubstructure,
    .transformAttribute, .configurationAttribute]) : width p = p.num .payloadLength := by
  simp only [List.mem_cons, not_or] at h
  unfold width
  split <;> tauto

theorem Whole.taken {last : Rule} {part : Partial} (h : Whole element last this pld part next)
    (hlist : listType pld.cls pld.type = elementType? last)
    (hcls : pld.cls ∉ [.ikeHeader, .trafficSelectorSubstructure, .transformAttribute,
      .configurationAttribute]) : Taken element this pld part.1 next where
  cls := h.cls
  type := h.type
  pos _ := by
    rw [width_eq (h.cls.symm ▸ hcls)]
    exact h.pos
  four_le _ := by
    rw [width_eq (h.cls.symm ▸ hcls)]
    exact h.four_le
  elements type htype := by
    rw [h.cls, h.type, hlist] at htype
    exact h.elements type htype
  selector hselector := by
    rw [← h.cls, hselector] at hcls
    exact absurd hcls (by decide)

/-- The data or the list behind a header. -/
def FillsRest (last : Rule) : Prop := last.type = .chunkData ∨ ∃ type, last.type = .payloadList type

section Tables

variable {cls : PayloadClass} {type : PayloadType} (h : this.bitPos < 8)
  (helement : ∀ t, listType cls type = some t → Parses element t) {num : Field → ℕ}
  {chunk : Field → Chunk} {list : List Payload} (pre mid mid' : List Rule) {last : Rule}
  {bits bits' : ℕ}

include helement in
theorem parses_last {head : List Rule} (hrules : getEncodingRules cls type = head ++ [last])
    (hlast : FillsRest last) :
    last.type = .chunkData ∨ ∃ t, last.type = .payloadList t ∧ Parses element t := by
  refine hlast.imp_right fun ⟨t, ht⟩ => ⟨t, ht, helement t ?_⟩
  rw [listType_concat hrules, elementType?, ht]

include h helement

theorem taken_of_header
    (hrules : getEncodingRules cls type = (pre ++ ⟨.payloadLength, .payloadLength⟩ :: mid) ++ [last])
    (hlast : FillsRest last) (hmid : plainTotal mid = some bits)
    (hfixed : 8 * fixedHeaderLength cls type = 32 + bits) (hpre : plainTotal pre = some 16)
    (hplain : Field.payloadLength ∉ mid.map Rule.field ∧ cls ∉ [.ikeHeader,
      .trafficSelectorSubstructure, .transformAttribute, .configurationAttribute] ∧
      cls ≠ .notify ∧ cls ≠ .proposalSubstructure) :
    Spec this (parseAll element (getEncodingRules cls type) this
      (.mk cls type num chunk list, ⟨0, 0, 0, 0, false⟩)) fun part next =>
        Taken element this (.mk cls type num chunk list) part.1 next := by
  obtain ⟨hfield, hcls, hcls'⟩ := hplain
  have hheader : (Payload.mk cls type num chunk list).getHeaderLength = fixedHeaderLength cls type := by
    unfold Payload.getHeaderLength
    simp [Payload.cls, Payload.type, hcls'.1, hcls'.2]
  rw [hrules]
  have hhead : Spec this (parseAll element (pre ++ ⟨.payloadLength, .payloadLength⟩ :: mid) this
      (.mk cls type num chunk list, ⟨0, 0, 0, 0, false⟩))
      (HeaderRead this (.mk cls type num chunk list)) :=
    parseAll_header hpre hmid hfield h _ (hheader ▸ hfixed) hcls'
  exact (parseAll_whole hhead (parses_last helement hrules hlast)).mono fun part next _ hwhole =>
    hwhole.taken (listType_concat hrules) hcls

theorem taken_of_headerSpi
    (hrules : getEncodingRules cls type = (pre ++ ⟨.payloadLength, .payloadLength⟩ :: (mid ++
      ⟨.spiSize, .spiSize⟩ :: (mid' ++ [⟨.spi, .spi⟩]))) ++ [last])
    (hlast : FillsRest last) (hmid : plainTotal mid = some bits)
    (hmid' : plainTotal mid' = some bits') (hfixed : 8 * fixedHeaderLength cls type = 40 + bits + bits')
    (hpre : plainTotal pre = some 16) (hspi : (cls = .notify ∨ cls = .proposalSubstructure) ∧
      Field.payloadLength ∉ mid.map Rule.field ∧ Field.payloadLength ∉ mid'.map Rule.field ∧
        Field.spiSize ∉ mid'.map Rule.field) :
    Spec this (parseAll element (getEncodingRules cls type) this
      (.mk cls type num chunk list, ⟨0, 0, 0, 0, false⟩)) fun part next =>
        Taken element this (.mk cls type num chunk list) part.1 next := by
  obtain ⟨hcls, hfield, hfield'⟩ := hspi
  rw [hrules]
  have hhead : Spec this (parseAll element (pre ++ ⟨.payloadLength, .payloadLength⟩ :: (mid ++
      ⟨.spiSize, .spiSize⟩ :: (mid' ++ [⟨.spi, .spi⟩]))) this
      (.mk cls type num chunk list, ⟨0, 0, 0, 0, false⟩))
      (HeaderRead this (.mk cls type num chunk list)) :=
    parseAll_headerSpi hpre hmid hmid' hfield hfield' h _ hfixed hcls
  have hcls' : cls ∉ [.ikeHeader, .trafficSelectorSubstructure, .transformAttribute,
      .configurationAttribute] := by
    obtain rfl | rfl := hcls
    · decide
    · decide
  exact (parseAll_whole hhead (parses_last helement hrules hlast)).mono fun part next _ hwhole =>
    hwhole.taken (listType_concat hrules) hcls'

omit helement in
theorem taken_of_attribute {format length : Rule} {typeField valueField : Field}
    (hrules : getEncodingRules cls type =
      [format, ⟨.attributeType, typeField⟩, length, ⟨.attributeValue, valueField⟩])
    (hformat : format.type = .attributeFormat ∨ format.type = .reservedBit)
    (hlength : length.type = .attributeLengthOrValue ∨ length.type = .attributeLength)
    (hfields : format.field ≠ length.field)
    (htypes : typeField ≠ format.field ∧ typeField ≠ length.field)
    (hwidth : ∀ p : Payload, p.cls = cls → p.type = type → width p =
      if format.type = .attributeFormat ∧ p.num format.field ≠ 0 then 4 else 4 + p.num length.field)
    (hcls : cls ≠ .trafficSelectorSubstructure) :
    Spec this (parseAll element (getEncodingRules cls type) this
      (.mk cls type num chunk list, ⟨0, 0, 0, 0, false⟩)) fun part next =>
        Taken element this (.mk cls type num chunk list) part.1 next := by
  have hnone : listType cls type = none := by rw [listType, hrules]; rfl
  rw [hrules]
  refine (parseAll_attribute hformat hlength hfields htypes h _).mono
    fun part next _ ⟨⟨hcls', htype'⟩, hpos⟩ => ?_
  have hwidth := hwidth part.1 hcls' htype'
  refine ⟨hcls', htype', fun _ => ?_, fun _ => ?_, fun t ht => ?_, fun hselector => ?_⟩
  · rw [hwidth]
    exact hpos
  · rw [hwidth]
    split_ifs <;> omega
  · rw [hcls', htype'] at ht
    exact nomatch hnone.symm.trans ht
  · exact absurd (hcls'.symm.trans hselector) hcls

end Tables

/-- **All the tables**: a payload takes the bytes its fields say. -/
theorem parseAll_taken (h : this.bitPos < 8) (pld : Payload)
    (helement : ∀ type, listType pld.cls pld.type = some type → Parses element type) :
    Spec this (parseAll element (getEncodingRules pld.cls pld.type) this (pld, ⟨0, 0, 0, 0, false⟩))
      fun part next => Taken element this pld part.1 next := by
  obtain ⟨cls, type, num, chunk, list⟩ := pld
  replace helement : ∀ t, listType cls type = some t → Parses element t := helement
  have isData : ∀ {field}, FillsRest ⟨.chunkData, field⟩ := .inl rfl
  have isList : ∀ {t field}, FillsRest ⟨.payloadList t, field⟩ := .inr ⟨_, rfl⟩
  let critical : List Rule := ⟨.uInt8, .nextPayload⟩ :: ⟨.flag, .critical⟩ :: reservedBits 0 7
  let reserved : List Rule := ⟨.uInt8, .nextPayload⟩ :: reservedBits 0 8
  let reservedByte : List Rule := [⟨.uInt8, .nextPayload⟩, ⟨.reservedByte, .reservedByte 0⟩]
  show Spec this (parseAll element (getEncodingRules cls type) this _) _
  cases cls with
  | ikeHeader =>
    have htotal : plainTotal (getEncodingRules .ikeHeader type) = some 224 := rfl
    refine (parseAll_plain htotal h _).mono fun part next _ ⟨hpos, _, _, hupdated⟩ => ?_
    have hwidth : width part.1 = 28 := by
      unfold width
      rw [hupdated.cls]
      rfl
    refine ⟨hupdated.cls, hupdated.type, fun _ => ?_, fun _ => ?_, fun t ht => ?_, fun hcls => ?_⟩
    · rw [hwidth]
      exact hpos
    · rw [hwidth]
      decide
    · rw [hupdated.cls] at ht
      cases ht
    · rw [hupdated.cls] at hcls
      cases hcls
  | sa =>
    by_cases htype : type = .plv1SecurityAssociation
    · exact taken_of_header h helement reserved [⟨.uInt32, .doi⟩, ⟨.uInt32, .situation⟩]
        (if_pos htype) isList rfl (by simp [fixedHeaderLength, htype]) rfl (by decide)
    · exact taken_of_header h helement critical [] (if_neg htype) isList rfl
        (by simp [fixedHeaderLength, htype]) rfl (by decide)
  | proposalSubstructure =>
    exact taken_of_headerSpi h helement reservedByte
      [⟨.uInt8, .proposalNumber⟩, ⟨.uInt8, .protocolId⟩] [⟨.uInt8, .transformsCount⟩] rfl isList rfl
      rfl rfl rfl (by decide)
  | transformSubstructure =>
    by_cases htype : type = .plv2TransformSubstructure
    · exact taken_of_header h helement reservedByte
        [⟨.uInt8, .transformTon⟩, ⟨.reservedByte, .reservedByte 1⟩, ⟨.uInt16, .transformIdV2⟩]
        (if_pos htype) isList rfl rfl rfl (by decide)
    · exact taken_of_header h helement reservedByte
        (⟨.uInt8, .transformTon⟩ :: ⟨.uInt8, .transformIdV1⟩ :: reservedBytes 1 2) (if_neg htype)
        isList rfl rfl rfl (by decide)
  | nonce =>
    exact taken_of_header h helement critical [] rfl isData rfl rfl rfl (by decide)
  | id =>
    by_cases htype : type ∈ [PayloadType.plv1Id, .plv1NatOa, .plv1NatOaDraft0003]
    · exact taken_of_header h helement reservedByte
        [⟨.uInt8, .idType⟩, ⟨.uInt8, .protocolId⟩, ⟨.uInt16, .port⟩] (if_pos htype) isData rfl rfl rfl
        (by decide)
    · exact taken_of_header h helement critical (⟨.uInt8, .idType⟩ :: reservedBytes 0 3)
        (if_neg htype) isData rfl rfl rfl (by decide)
  | auth =>
    exact taken_of_header h helement critical (⟨.uInt8, .authMethod⟩ :: reservedBytes 0 3) rfl isData
      rfl rfl rfl (by decide)
  | cert =>
    exact taken_of_header h helement critical [⟨.uInt8, .encoding⟩] rfl isData rfl rfl rfl (by decide)
  | certreq =>
    exact taken_of_header h helement critical [⟨.uInt8, .encoding⟩] rfl isData rfl rfl rfl (by decide)
  | ts =>
    exact taken_of_header h helement critical (⟨.uInt8, .tsNum⟩ :: reservedBytes 0 3) rfl isList rfl
      rfl rfl (by decide)
  | ke =>
    by_cases htype : type = .plv2KeyExchange
    · exact taken_of_header h helement critical (⟨.uInt16, .dhGroupNumber⟩ :: reservedBytes 0 2)
        (if_pos htype) isData rfl (by simp [fixedHeaderLength, htype]) rfl (by decide)
    · exact taken_of_header h helement reservedByte [] (if_neg htype) isData rfl
        (by simp [fixedHeaderLength, htype]) rfl (by decide)
  | notify =>
    by_cases htype : type = .plv2Notify
    · exact taken_of_headerSpi h helement critical [⟨.uInt8, .protocolId⟩] [⟨.uInt16, .notifyType⟩]
        (if_pos htype) isData rfl rfl (by simp [fixedHeaderLength, htype]) rfl (by decide)
    · exact taken_of_headerSpi h helement reserved [⟨.uInt32, .doi⟩, ⟨.uInt8, .protocolId⟩]
        [⟨.uInt16, .notifyType⟩] (if_neg htype) isData rfl rfl (by simp [fixedHeaderLength, htype])
        rfl (by decide)
  | delete =>
    by_cases htype : type = .plv2Delete
    · exact taken_of_header h helement critical
        [⟨.uInt8, .protocolId⟩, ⟨.uInt8, .spiSize⟩, ⟨.uInt16, .spiCount⟩] (if_pos htype) isData rfl
        (by simp [fixedHeaderLength, htype]) rfl (by decide)
    · exact taken_of_header h helement reserved
        [⟨.uInt32, .doi⟩, ⟨.uInt8, .protocolId⟩, ⟨.uInt8, .spiSize⟩, ⟨.uInt16, .spiCount⟩]
        (if_neg htype) isData rfl (by simp [fixedHeaderLength, htype]) rfl (by decide)
  | vendorId =>
    exact taken_of_header h helement critical [] rfl isData rfl rfl rfl (by decide)
  | hash =>
    exact taken_of_header h helement reservedByte [] rfl isData rfl rfl rfl (by decide)
  | cp =>
    by_cases htype : type = .plv2Configuration
    · exact taken_of_header h helement critical (⟨.uInt8, .cfgType⟩ :: reservedBytes 0 3)
        (if_pos htype) isList rfl rfl rfl (by decide)
    · exact taken_of_header h helement critical
        [⟨.uInt8, .cfgType⟩, ⟨.reservedByte, .reservedByte 0⟩, ⟨.uInt16, .identifier⟩] (if_neg htype)
        isList rfl rfl rfl (by decide)
  | eap =>
    exact taken_of_header h helement critical [] rfl isData rfl rfl rfl (by decide)
  | encryptedFragment =>
    exact taken_of_header h helement [⟨.uInt8, .nextPayload⟩, ⟨.uInt8, .flags⟩]
      [⟨.uInt16, .fragmentNumber⟩, ⟨.uInt16, .totalFragments⟩] rfl isData rfl rfl rfl (by decide)
  | fragment =>
    exact taken_of_header h helement reservedByte
      [⟨.uInt16, .fragmentId⟩, ⟨.uInt8, .fragmentNumber⟩, ⟨.uInt8, .flags⟩] rfl isData rfl rfl rfl
      (by decide)
  | unknown =>
    exact taken_of_header h helement critical [] rfl isData rfl rfl rfl (by decide)
  | trafficSelectorSubstructure =>
    refine (parseAll_selector type h _).mono fun part next _ ⟨⟨hcls, htype⟩, hpos, htsType, hlength⟩ => ?_
    have hwidth : width part.1 = 8 + 2 * addressLength (part.1.num .tsType) := by
      unfold width
      rw [hcls]
      rfl
    refine ⟨hcls, htype, fun _ => ?_, fun _ => ?_, fun t ht => ?_, fun _ => ⟨htsType, hlength⟩⟩
    · rw [hwidth]
      exact hpos
    · rw [hwidth]
      omega
    · rw [hcls] at ht
      cases ht
  | transformAttribute =>
    refine taken_of_attribute h rfl (.inl rfl) (.inl rfl) (by decide) (by decide)
      (fun p hcls _ => ?_) (by decide)
    unfold width
    rw [hcls]
    simp
  | configurationAttribute =>
    by_cases htype : type = .plv2ConfigurationAttribute
    · refine taken_of_attribute h (if_pos htype) (.inr rfl) (.inr rfl) (by decide)
        (by decide) (fun p hcls htype' => ?_) (by decide)
      unfold width
      rw [hcls, htype', htype]
      simp
    · refine taken_of_attribute h (if_neg htype) (.inl rfl) (.inl rfl) (by decide)
        (by decide) (fun p hcls htype' => ?_) (by decide)
      unfold width
      rw [hcls, htype']
      simp [htype]
  | encrypted =>
    by_cases htype : type = .plv2Encrypted
    · exact taken_of_header h helement [⟨.uInt8, .nextPayload⟩, ⟨.uInt8, .flags⟩] [] (if_pos htype)
        isData rfl (by simp [fixedHeaderLength, htype]) rfl (by decide)
    · have hrules : getEncodingRules .encrypted type = [⟨.encryptedData, .encrypted⟩] := if_neg htype
      have hnone : listType .encrypted type = none := by rw [listType, hrules]; rfl
      rw [hrules, parseAll_singleton]
      refine (spec_storeChunk (moves_parseChunk h _) .encrypted).mono
        fun part next _ ⟨_, _, _, hupdated⟩ => ?_
      have hnot : ¬HasEnd part.1 := fun hend => htype (hupdated.type.symm.trans (hend hupdated.cls))
      refine ⟨hupdated.cls, hupdated.type, fun hend => absurd hend hnot,
        fun hend => absurd hend hnot, fun t ht => ?_, fun hselector => ?_⟩
      · rw [hupdated.cls, hupdated.type] at ht
        exact nomatch hnone.symm.trans ht
      · exact nomatch hupdated.cls.symm.trans hselector

/-! ## The pointer to the rules -/

/-- All rules but those of lists leave the rules where they are. -/
theorem parseRule_rules (h : this.bitPos < 8) {rule : Rule} (hrule : elementType? rule = none) :
    Spec this (parseRule element this pld locals rule) fun _ next => next.rules = this.rules := by
  have hplain : ∀ {bits}, plainBits rule.type = some bits →
      Spec this (parseRule element this pld locals rule) fun _ next => next.rules = this.rules :=
    fun hbits => (parseRule_plain h hbits).mono fun _ _ _ hpost => hpost.2.1
  have hlocal : ∀ {keep : ℕ → Locals} {run : Option ℕ × Parser} {bits : ℕ}, Moves this bits run →
      Spec this (some (storeLocal pld keep rule.field run)) fun _ next => next.rules = this.rules :=
    fun hmoves => (spec_storeLocal hmoves _ _).mono fun _ _ _ hpost => hpost.2.1
  have hchunk : ∀ {run : Option Chunk × Parser} {bits : ℕ}, Moves this bits run →
      Spec this (some (storeChunk pld locals rule.field run)) fun _ next => next.rules = this.rules :=
    fun hmoves => (spec_storeChunk hmoves _).mono fun _ _ _ hpost => hpost.2.1
  obtain ⟨type, field⟩ := rule
  cases type with
  | uInt4 | uInt8 | uInt16 | uInt32 | reservedBit | reservedByte | flag | headerLength | attributeType
    | ikeSpi => exact hplain rfl
  | payloadLength => exact (parseRule_payloadLength h field).mono fun _ _ _ hpost => hpost.1.2.1
  | spiSize | tsType => exact hlocal (moves_parseUint h 1)
  | attributeFormat => exact hlocal (moves_parseBit h)
  | attributeLength | attributeLengthOrValue => exact hlocal (moves_parseUint h 2)
  | spi | address | encryptedData => exact hchunk (moves_parseChunk h _)
  | chunkData => exact (parseRule_chunkData h field).mono fun _ _ _ hpost => hpost.2.2.1
  | attributeValue =>
    unfold parseRule
    dsimp only
    by_cases hvalue : locals.attributeFormat = true
    · rw [if_pos hvalue]
      exact .returns (.refl h) rfl
    · rw [if_neg hvalue]
      exact hchunk (moves_parseChunk h _)
  | payloadList type => cases hrule

theorem parseRules_eq (rules : List Rule) (index : ℕ) (this : Parser) (h : this.bitPos < 8)
    (part : Partial) (hrules : this.rules.drop index = rules)
    (hlast : ∀ rule ∈ rules.dropLast, elementType? rule = none) :
    parseRules element rules.length index this part.1 part.2 =
      andThen (parseAll element rules this part) fun part this => some (some part.1, this) := by
  induction rules generalizing index this part with
  | nil => rfl
  | cons rule rest ih =>
    have hrule : this.rules[index]? = some rule := by
      rw [← List.head?_drop, hrules]
      rfl
    rw [List.length_cons, parseRules, hrule, parseAll]
    dsimp only
    cases hrun : parseRule element this part.1 part.2 rule with
    | none => rfl
    | some run =>
      obtain ⟨result, next⟩ := run
      cases result with
      | none => rfl
      | some part' =>
        cases rest with
        | nil => rfl
        | cons rule' rest =>
          have hkeeps : Spec this (parseRule element this part.1 part.2 rule)
              fun _ next => next.rules = this.rules :=
            parseRule_rules h (hlast rule List.mem_cons_self)
          rw [hrun] at hkeeps
          obtain ⟨_, _, heq, hgoes, hpost⟩ := hkeeps
          cases heq
          refine ih (index + 1) next hgoes.bitPos part' ?_ fun r hr =>
            hlast r (List.mem_cons_of_mem _ hr)
          rw [hpost part' rfl, ← List.drop_drop, hrules]
          rfl

theorem elementType?_dropLast (cls : PayloadClass) (type : PayloadType) :
    ∀ rule ∈ (getEncodingRules cls type).dropLast, elementType? rule = none := by
  have hall : (getEncodingRules cls type).dropLast.all (fun rule => (elementType? rule).isNone) =
      true := by
    unfold getEncodingRules
    cases cls <;> dsimp only <;> (try split_ifs) <;> rfl
  intro rule hrule
  exact Option.isNone_iff_eq_none.mp (List.all_eq_true.mp hall rule hrule)

/-! ## Depth -/

/-- How deep structures are nested. -/
def rank : PayloadClass → ℕ
  | .sa => 4
  | .proposalSubstructure => 3
  | .transformSubstructure | .cp | .ts => 2
  | _ => 1

theorem rank_le (cls : PayloadClass) : rank cls ≤ 4 := by cases cls <;> decide

theorem rank_pos (cls : PayloadClass) : 0 < rank cls := by cases cls <;> decide

theorem cls_payloadCreate (type : PayloadType) (majVer : ℕ) : (payloadCreate type majVer).cls =
    if payloadIsKnown type majVer then payloadClass type else .unknown := by
  unfold payloadCreate
  dsimp only
  split <;> simp only [Payload.cls_setNum] <;> rfl

theorem rank_listType {type t : PayloadType} (h : listType cls type = some t)
    (majVer : ℕ) : rank (payloadCreate t majVer).cls < rank cls ∧
      (payloadCreate t majVer).cls ≠ .encrypted := by
  have htable : PayloadType.plHeader.number ≤ t.number ∧ rank (payloadClass t) < rank cls ∧
      payloadClass t ≠ .encrypted := by
    unfold listType getEncodingRules at h
    cases cls <;> dsimp only at h <;> (try split_ifs at h) <;> cases h <;> decide
  have hknown : payloadIsKnown t majVer = true := if_pos htable.1
  rw [cls_payloadCreate, if_pos hknown]
  exact htable.2

/-- What an element parses, another one parses as well. -/
def Extends (element element' : Element) : Prop :=
  ∀ this type run, element this type = some run → element' this type = some run

variable {element' : Element}

theorem parseList_extends (h : Extends element element')
    {fuel : ℕ} {list : List Payload} {length : ℤ} {run : Option (List Payload) × Parser}
    (hrun : parseList element type fuel this list length = some run) :
    parseList element' type fuel this list length = some run := by
  induction fuel generalizing this list length with
  | zero =>
    unfold parseList at hrun ⊢
    split_ifs at hrun ⊢ with hle hzero
    · exact hrun
    · exact hrun
  | succ fuel ih =>
    unfold parseList at hrun ⊢
    split_ifs at hrun ⊢ with hle hzero
    · exact hrun
    · exact hrun
    · cases helement : element this type with
      | none =>
        rw [helement] at hrun
        cases hrun
      | some result =>
        rw [helement] at hrun
        dsimp only at hrun ⊢
        rw [h this type result helement]
        obtain ⟨payload, next⟩ := result
        cases payload with
        | none => exact hrun
        | some payload => exact ih hrun

theorem parseRule_extends (h : Extends element element') {rule : Rule}
    {run : Option Partial × Parser} (hrun : parseRule element this pld locals rule = some run) :
    parseRule element' this pld locals rule = some run := by
  obtain ⟨type, field⟩ := rule
  cases type with
  | payloadList type =>
    unfold parseRule at hrun ⊢
    dsimp only at hrun ⊢
    split_ifs at hrun ⊢
    · exact hrun
    · exact hrun
    · cases hlist : parseList element type (locals.payloadLength - pld.getHeaderLength) this []
          ((locals.payloadLength - pld.getHeaderLength : ℕ) : ℤ) with
      | none =>
        rw [hlist] at hrun
        cases hrun
      | some result =>
        rw [hlist] at hrun
        rw [parseList_extends h hlist]
        exact hrun
  | _ => exact hrun

theorem parseRules_extends (h : Extends element element') {count index : ℕ}
    {run : Option Payload × Parser} (hrun : parseRules element count index this pld locals = some run) :
    parseRules element' count index this pld locals = some run := by
  induction count generalizing index this pld locals with
  | zero => exact hrun
  | succ count ih =>
    unfold parseRules at hrun ⊢
    cases hrule : this.rules[index]? with
    | none =>
      rw [hrule] at hrun
      exact hrun
    | some rule =>
      rw [hrule] at hrun
      dsimp only at hrun ⊢
      cases hresult : parseRule element this pld locals rule with
      | none =>
        rw [hresult] at hrun
        cases hrun
      | some result =>
        rw [hresult] at hrun
        rw [parseRule_extends h hresult]
        obtain ⟨part, next⟩ := result
        cases part with
        | none => exact hrun
        | some part => exact ih hrun

theorem parsePayload_extends {depth depth' : ℕ} (h : depth ≤ depth') :
    Extends (parsePayload depth) (parsePayload depth') := by
  induction depth generalizing depth' with
  | zero => exact fun _ _ _ hrun => nomatch hrun
  | succ depth ih =>
    obtain ⟨depth', rfl⟩ := Nat.exists_eq_add_of_le' (Nat.lt_of_lt_of_le (Nat.succ_pos depth) h)
    intro this type run hrun
    exact parseRules_extends (ih (Nat.le_of_succ_le_succ h)) hrun

/-! ## Runs -/

theorem Elements.extends (h : Extends element element')
    {start end_ : Parser} {list : List Payload} (helements : Elements element type start list end_) :
    Elements element' type start list end_ := by
  induction helements with
  | nil => exact .nil _
  | cons goes lt parsed _ ih => exact .cons goes lt (h _ _ _ parsed) ih

theorem parsePayload_succ (depth : ℕ) (h : this.bitPos < 8) (type : PayloadType) :
    let pld := payloadCreate type this.majorVersion
    let rules := getEncodingRules pld.cls pld.type
    parsePayload (depth + 1) this type = andThen (parseAll (parsePayload depth) rules
      { this with rules := rules } (pld, ⟨0, 0, 0, 0, false⟩)) fun part this => some (some part.1, this) := by
  intro pld rules
  exact parseRules_eq rules 0 { this with rules := rules } h (pld, ⟨0, 0, 0, 0, false⟩) rfl
    (elementType?_dropLast _ _)

theorem parses_of_taken {element element' : Element} {t : PayloadType}
    (hcls : ∀ majVer, (payloadCreate t majVer).cls ≠ .encrypted)
    (h : ∀ this : Parser, this.bitPos < 8 → Spec this (element this t) fun p next =>
      Taken element' this (payloadCreate t this.majorVersion) p next) : Parses element t := by
  intro this hbit
  refine (h this hbit).mono fun p next hgoes htaken => ?_
  have hend : HasEnd p := fun hp => absurd (htaken.cls.symm.trans hp) (hcls _)
  have hpos := htaken.pos hend
  have hfour := htaken.four_le hend
  have hbit' := hgoes.bitPos
  unfold pos at hpos
  omega

/-- **A run of the parser** ends, and takes the bytes that the fields of the payload say. -/
theorem parsePayload_spec (depth : ℕ) (hdepth : depth ≤ 4) (this : Parser) (h : this.bitPos < 8)
    (type : PayloadType) (hrank : rank (payloadCreate type this.majorVersion).cls ≤ depth) :
    Spec this (parsePayload depth this type)
      fun p next => Taken (parsePayload 4) this (payloadCreate type this.majorVersion) p next := by
  induction depth generalizing this type with
  | zero =>
    have hpos := rank_pos (payloadCreate type this.majorVersion).cls
    omega
  | succ depth ih =>
    have hparses : ∀ t, listType (payloadCreate type this.majorVersion).cls
        (payloadCreate type this.majorVersion).type = some t → Parses (parsePayload depth) t := by
      intro t ht
      have hlower := rank_listType ht
      refine parses_of_taken (fun majVer => (hlower majVer).2) fun mid hmid =>
        ih (by omega) mid hmid t ?_
      have := (hlower mid.majorVersion).1
      omega
    rw [parsePayload_succ depth h type]
    let start : Parser := { this with
      rules := getEncodingRules (payloadCreate type this.majorVersion).cls
        (payloadCreate type this.majorVersion).type }
    have hstart : start.bitPos < 8 := h
    obtain ⟨result, next, hrun, hgoes, hpost⟩ :=
      parseAll_taken hstart (payloadCreate type this.majorVersion) hparses
    rw [hrun]
    have hgoes' : Goes this next :=
      ⟨hgoes.input, hgoes.inputRoof, hgoes.majorVersion, hgoes.bitPos, hgoes.readEnd⟩
    cases result with
    | none => exact .fails hgoes'
    | some part =>
      have htaken := hpost part rfl
      refine .returns hgoes' ⟨htaken.cls, htaken.type, htaken.pos, htaken.four_le, fun t ht => ?_,
        htaken.selector⟩
      obtain ⟨first, hfirst, hpos, helements⟩ := htaken.elements t ht
      exact ⟨first, ⟨hfirst.input, hfirst.inputRoof, hfirst.majorVersion, hfirst.bitPos,
        hfirst.readEnd⟩, hpos, helements.extends (parsePayload_extends (by omega))⟩

/-! ## Nesting -/

/-- A parser of some data, as it is created and as it is left behind a payload. -/
structure Valid (data : Chunk) (this : Parser) : Prop where
  input : this.input = data
  inputRoof : this.inputRoof = data.length
  bitPos : this.bitPos < 8
  readEnd : this.readEnd ≤ data.length

theorem valid_create (data : Chunk) : (create data).Valid data :=
  ⟨rfl, rfl, by show 0 < 8; decide, Nat.zero_le _⟩

theorem Goes.valid {data : Chunk} (h : Goes this next) (hvalid : this.Valid data) :
    next.Valid data where
  input := h.input.trans hvalid.input
  inputRoof := h.inputRoof.trans hvalid.inputRoof
  bitPos := h.bitPos
  readEnd := by
    refine h.readEnd.trans (max_le hvalid.readEnd ?_)
    rw [hvalid.inputRoof]

/-- The end of a payload by its length field, if it has one. The length in the header of IKE is that of
the message. -/
def extent (p : Payload) : Option ℕ :=
  match p.cls with
  | .ikeHeader => none
  | .transformAttribute =>
    if p.num .attributeFormat ≠ 0 then none else some (4 + p.num .attributeLengthOrValue)
  | .configurationAttribute =>
    if p.type ≠ .plv2ConfigurationAttribute ∧ p.num .afFlag ≠ 0 then none
    else some (4 + p.num .lengthOrValue)
  | .encrypted => if p.type = .plv2Encrypted then some (p.num .payloadLength) else none
  | _ => some (p.num .payloadLength)

theorem hasEnd_of_extent {p : Payload} {n : ℕ} (h : extent p = some n) : HasEnd p := by
  intro hcls
  unfold extent at h
  rw [hcls] at h
  dsimp only at h
  split_ifs at h with htype
  exact htype

/-- Only the length of a selector's substructure may be another one than the parser took. -/
theorem width_of_extent {p : Payload} {n : ℕ} (h : extent p = some n)
    (hcls : p.cls ≠ .trafficSelectorSubstructure) : width p = n := by
  unfold extent at h
  unfold width
  cases hp : p.cls with
  | ikeHeader =>
    rw [hp] at h
    cases h
  | trafficSelectorSubstructure => exact absurd hp hcls
  | transformAttribute | configurationAttribute =>
    rw [hp] at h
    dsimp only at h ⊢
    split_ifs at h with hvalue
    rw [if_neg hvalue]
    exact Option.some.inj h
  | encrypted =>
    rw [hp] at h
    dsimp only at h ⊢
    split_ifs at h
    exact Option.some.inj h
  | _ =>
    rw [hp] at h
    exact Option.some.inj h

theorem cls_of_listType {type t : PayloadType} (h : listType cls type = some t) :
    cls ∉ [.ikeHeader, .trafficSelectorSubstructure, .transformAttribute, .configurationAttribute] ∧
      cls ≠ .encrypted := by
  have hlower := lt_of_le_of_lt (Nat.succ_le_of_lt (rank_pos _)) (rank_listType h 0).1
  clear h
  revert hlower
  cases cls <;> decide

/-- **Payloads nest exactly.** The parser ends and reads nothing behind the roof. A payload takes the
bytes that its length field says, unless it is the substructure of a traffic selector whose length
field is not that of its header and its addresses, and the elements of a list are behind each other
between the header and the end of the payload. -/
theorem nests_exactly {data : Chunk} (h : this.Valid data) (type : PayloadType) :
    ∃ result next, (∀ depth ≥ 4, parsePayload depth this type = some (result, next)) ∧
      next.Valid data ∧ ∀ p, result = some p →
        (∀ n, extent p = some n → (next.bytePos = this.bytePos + n ↔
          (p.cls = .trafficSelectorSubstructure →
            this.wire 2 2 = 8 + 2 * addressLength (this.wire 0 1)))) ∧
        ∀ t, listType p.cls p.type = some t → ∃ first, first.Valid data ∧
          first.bytePos = this.bytePos + p.getHeaderLength ∧
          next.bytePos = this.bytePos + p.num .payloadLength ∧
          Elements (parsePayload 4) t first p.list next := by
  obtain ⟨result, next, hrun, hgoes, hpost⟩ := parsePayload_spec 4 le_rfl this h.bitPos type (rank_le _)
  refine ⟨result, next, fun depth hdepth => parsePayload_extends hdepth _ _ _ hrun, hgoes.valid h,
    fun p hp => ?_⟩
  have htaken := hpost p hp
  have hends : ∀ {n end_}, Goes this end_ → end_.pos = this.pos + 8 * n →
      end_.bytePos = this.bytePos + n := by
    intro n end_ hend hpos
    have hbit := h.bitPos
    have hbit' := hend.bitPos
    unfold pos at hpos
    omega
  refine ⟨fun n hn => ?_, fun t ht => ?_⟩
  · have hend := hasEnd_of_extent hn
    have hpos := hends hgoes (htaken.pos hend)
    by_cases hcls : p.cls = .trafficSelectorSubstructure
    · have hwidth : width p = 8 + 2 * addressLength (this.wire 0 1) := by
        unfold width
        rw [hcls, ← (htaken.selector hcls).1]
      have hlength : n = this.wire 2 2 := by
        unfold extent at hn
        rw [hcls] at hn
        rw [← (htaken.selector hcls).2]
        exact (Option.some.inj hn).symm
      rw [hpos, hwidth, hlength, imp_iff_right hcls]
      omega
    · rw [hpos, width_of_extent hn hcls]
      exact iff_of_true rfl fun h => absurd h hcls
  · obtain ⟨first, hfirst, hpos, helements⟩ := htaken.elements t ht
    obtain ⟨hcls, hencrypted⟩ := cls_of_listType ht
    have hwidth := htaken.pos fun hp => absurd hp hencrypted
    rw [width_eq hcls] at hwidth
    exact ⟨first, hfirst.valid h, hends hfirst hpos, hends hgoes hwidth, helements⟩

/-- A selector with IPv4 addresses, whose length field says 16. -/
theorem nests_exactly_selector :
    let data : Chunk := [7, 0, 0, 16, 0, 0, 255, 255, 10, 0, 0, 0, 10, 0, 0, 255]
    ∃ result next, parsePayload 4 (create data) .plv2TrafficSelectorSubstructure =
      some (result, next) ∧ next.readEnd ≤ data.length ∧
      ∀ p, result = some p → ∀ n, extent p = some n → next.bytePos = n := by
  intro data
  obtain ⟨result, next, hrun, hvalid, hnests⟩ :=
    nests_exactly (valid_create data) .plv2TrafficSelectorSubstructure
  refine ⟨result, next, hrun 4 le_rfl, hvalid.readEnd, fun p hp n hn => ?_⟩
  exact (((hnests p hp).1 n hn).mpr fun _ => by decide).trans (Nat.zero_add n)

/-- A selector with IPv4 addresses takes 16 bytes, though its length field says 99. -/
theorem not_nests_exactly :
    ¬ ∀ (data : Chunk) (type : PayloadType) (p : Payload) (next : Parser),
      parsePayload 4 (create data) type = some (some p, next) →
        ∀ n, extent p = some n → next.bytePos = n := by
  intro h
  let data : Chunk := [7, 0, 0, 99, 0, 0, 255, 255, 10, 0, 0, 0, 10, 0, 0, 255]
  have hrun : ∃ p next, parsePayload 4 (create data) .plv2TrafficSelectorSubstructure =
      some (some p, next) ∧ extent p = some 99 ∧ next.bytePos = 16 := ⟨_, _, rfl, rfl, rfl⟩
  obtain ⟨p, next, hrun, hextent, hbyte⟩ := hrun
  have := h data _ p next hrun 99 hextent
  omega

end Parser

end Encodings

end StrongSwan
