import StrongSwan.Basic

/-!
# Encoding rules

Payloads and their substructures are parsed and generated by rules, which say how each field is encoded.

* `PayloadType`, `PayloadClass`: the types, and the structures for them.
* `EncodingType`, `Field`, `Rule`.
* `getEncodingRules`, `getHeaderLength`: the rules of each structure.
* `Payload`, `payloadCreate`: the fields of a structure.
-/

namespace StrongSwan

namespace Encodings

structure PayloadType where
  number : ℕ
  deriving DecidableEq, Repr

namespace PayloadType

def plv1SecurityAssociation : PayloadType := ⟨1⟩
def plv1KeyExchange : PayloadType := ⟨4⟩
def plv1Id : PayloadType := ⟨5⟩
def plv1Certificate : PayloadType := ⟨6⟩
def plv1Certreq : PayloadType := ⟨7⟩
def plv1Hash : PayloadType := ⟨8⟩
def plv1Signature : PayloadType := ⟨9⟩
def plv1Nonce : PayloadType := ⟨10⟩
def plv1Notify : PayloadType := ⟨11⟩
def plv1Delete : PayloadType := ⟨12⟩
def plv1VendorId : PayloadType := ⟨13⟩
def plv1Configuration : PayloadType := ⟨14⟩
def plv1NatD : PayloadType := ⟨20⟩
def plv1NatOa : PayloadType := ⟨21⟩
def plv2SecurityAssociation : PayloadType := ⟨33⟩
def plv2KeyExchange : PayloadType := ⟨34⟩
def plv2IdInitiator : PayloadType := ⟨35⟩
def plv2IdResponder : PayloadType := ⟨36⟩
def plv2Certificate : PayloadType := ⟨37⟩
def plv2Certreq : PayloadType := ⟨38⟩
def plv2Auth : PayloadType := ⟨39⟩
def plv2Nonce : PayloadType := ⟨40⟩
def plv2Notify : PayloadType := ⟨41⟩
def plv2Delete : PayloadType := ⟨42⟩
def plv2VendorId : PayloadType := ⟨43⟩
def plv2TsInitiator : PayloadType := ⟨44⟩
def plv2TsResponder : PayloadType := ⟨45⟩
def plv2Encrypted : PayloadType := ⟨46⟩
def plv2Configuration : PayloadType := ⟨47⟩
def plv2Eap : PayloadType := ⟨48⟩
def plv2Fragment : PayloadType := ⟨53⟩
def plv1NatDDraft0003 : PayloadType := ⟨130⟩
def plv1NatOaDraft0003 : PayloadType := ⟨131⟩
def plv1Fragment : PayloadType := ⟨132⟩
def plHeader : PayloadType := ⟨256⟩
def plv2ProposalSubstructure : PayloadType := ⟨258⟩
def plv1ProposalSubstructure : PayloadType := ⟨259⟩
def plv2TransformSubstructure : PayloadType := ⟨260⟩
def plv1TransformSubstructure : PayloadType := ⟨261⟩
def plv2TransformAttribute : PayloadType := ⟨262⟩
def plv1TransformAttribute : PayloadType := ⟨263⟩
def plv2TrafficSelectorSubstructure : PayloadType := ⟨264⟩
def plv2ConfigurationAttribute : PayloadType := ⟨265⟩
def plv1ConfigurationAttribute : PayloadType := ⟨266⟩
def plv1Encrypted : PayloadType := ⟨267⟩

end PayloadType

/-- The structures that implement `payload_t`. -/
inductive PayloadClass
  | ikeHeader
  | sa
  | proposalSubstructure
  | transformSubstructure
  | transformAttribute
  | nonce
  | id
  | auth
  | cert
  | certreq
  | trafficSelectorSubstructure
  | ts
  | ke
  | notify
  | delete
  | vendorId
  | hash
  | cp
  | configurationAttribute
  | eap
  | encrypted
  | encryptedFragment
  | fragment
  | unknown
  deriving DecidableEq, Repr

open PayloadType in
/-- The structure that `payload_create` creates. -/
def payloadClass (type : PayloadType) : PayloadClass :=
  if type = plHeader then .ikeHeader
  else if type ∈ [plv2SecurityAssociation, plv1SecurityAssociation] then .sa
  else if type ∈ [plv2ProposalSubstructure, plv1ProposalSubstructure] then .proposalSubstructure
  else if type ∈ [plv2TransformSubstructure, plv1TransformSubstructure] then .transformSubstructure
  else if type ∈ [plv2TransformAttribute, plv1TransformAttribute] then .transformAttribute
  else if type ∈ [plv2Nonce, plv1Nonce] then .nonce
  else if type ∈ [plv2IdInitiator, plv2IdResponder, plv1Id, plv1NatOa, plv1NatOaDraft0003] then .id
  else if type = plv2Auth then .auth
  else if type ∈ [plv2Certificate, plv1Certificate] then .cert
  else if type ∈ [plv2Certreq, plv1Certreq] then .certreq
  else if type = plv2TrafficSelectorSubstructure then .trafficSelectorSubstructure
  else if type ∈ [plv2TsInitiator, plv2TsResponder] then .ts
  else if type ∈ [plv2KeyExchange, plv1KeyExchange] then .ke
  else if type ∈ [plv2Notify, plv1Notify] then .notify
  else if type ∈ [plv2Delete, plv1Delete] then .delete
  else if type ∈ [plv2VendorId, plv1VendorId] then .vendorId
  else if type ∈ [plv1Hash, plv1Signature, plv1NatD, plv1NatDDraft0003] then .hash
  else if type ∈ [plv2Configuration, plv1Configuration] then .cp
  else if type ∈ [plv2ConfigurationAttribute, plv1ConfigurationAttribute] then .configurationAttribute
  else if type = plv2Eap then .eap
  else if type ∈ [plv2Encrypted, plv1Encrypted] then .encrypted
  else if type = plv1Fragment then .fragment
  else if type = plv2Fragment then .encryptedFragment
  else .unknown

open PayloadType in
/-- `payload_is_known`, for a major version of IKE; without mediation -/
def payloadIsKnown (type : PayloadType) (majVer : ℕ) : Bool :=
  let n := type.number
  let v1 := (plv1SecurityAssociation.number ≤ n && n ≤ plv1Configuration.number) ||
    (plv1NatD.number ≤ n && n ≤ plv1NatOa.number) ||
    (plv1NatDDraft0003.number ≤ n && n ≤ plv1Fragment.number)
  let v2 := (plv2SecurityAssociation.number ≤ n && n ≤ plv2Eap.number) || type = plv2Fragment
  if n ≥ plHeader.number then true
  else
    match majVer with
    | 0 => v1 || v2
    | 1 => v1
    | 2 => v2
    | _ => false

inductive EncodingType
  | uInt4
  | uInt8
  | uInt16
  | uInt32
  | reservedBit
  | reservedByte
  | flag
  | payloadLength
  | headerLength
  | spiSize
  | spi
  | attributeFormat
  | attributeType
  | attributeLengthOrValue
  | attributeLength
  | attributeValue
  | tsType
  | address
  | chunkData
  | ikeSpi
  | encryptedData
  | payloadList (element : PayloadType)
  deriving DecidableEq, Repr

/-- Fields of the structures, which rules refer to by their offsets. The lengths of proposals and of
transforms are called as those of payloads. -/
inductive Field
  | nextPayload
  | critical
  | flags
  | reserved (index : ℕ)
  | reservedByte (index : ℕ)
  | payloadLength
  | initiatorSpi
  | responderSpi
  | majVersion
  | minVersion
  | exchangeType
  | response
  | version
  | initiator
  | authonly
  | commit
  | encryption
  | messageId
  | length
  | doi
  | situation
  | proposals
  | proposalNumber
  | protocolId
  | spiSize
  | spi
  | transformsCount
  | transforms
  | transformTon
  | transformIdV1
  | transformIdV2
  | attributes
  | attributeFormat
  | attributeType
  | attributeLengthOrValue
  | attributeValue
  | dhGroupNumber
  | keyExchangeData
  | nonce
  | idType
  | port
  | idData
  | authMethod
  | authData
  | encoding
  | data
  | hash
  | notifyType
  | notifyData
  | spiCount
  | spis
  | tsNum
  | substrs
  | tsType
  | ipProtocolId
  | startPort
  | endPort
  | startingAddress
  | endingAddress
  | cfgType
  | identifier
  | afFlag
  | attrType
  | lengthOrValue
  | value
  | encrypted
  | fragmentNumber
  | totalFragments
  | fragmentId
  deriving DecidableEq, Repr

structure Rule where
  type : EncodingType
  field : Field
  deriving DecidableEq, Repr

/-! ## Payloads -/

/-- The fields of a structure: integers and flags, chunks, and the list, if there is one. -/
inductive Payload
  | mk (cls : PayloadClass) (type : PayloadType) (num : Field → ℕ) (chunk : Field → Chunk)
    (list : List Payload)

namespace Payload

def cls : Payload → PayloadClass
  | mk cls _ _ _ _ => cls

def type : Payload → PayloadType
  | mk _ type _ _ _ => type

def num : Payload → Field → ℕ
  | mk _ _ num _ _ => num

def chunk : Payload → Field → Chunk
  | mk _ _ _ chunk _ => chunk

def list : Payload → List Payload
  | mk _ _ _ _ list => list

def setNum : Payload → Field → ℕ → Payload
  | mk cls type num chunk list, field, n => mk cls type (Function.update num field n) chunk list

def setChunk : Payload → Field → Chunk → Payload
  | mk cls type num chunk list, field, data => mk cls type num (Function.update chunk field data) list

def setList : Payload → List Payload → Payload
  | mk cls type num chunk _, list => mk cls type num chunk list

section Fields

variable (this : Payload) (field : Field) (n : ℕ) (data : Chunk) (elements : List Payload)

@[simp] theorem cls_setNum : (this.setNum field n).cls = this.cls := by cases this; rfl
@[simp] theorem type_setNum : (this.setNum field n).type = this.type := by cases this; rfl
@[simp] theorem num_setNum : (this.setNum field n).num = Function.update this.num field n := by
  cases this; rfl
@[simp] theorem chunk_setNum : (this.setNum field n).chunk = this.chunk := by cases this; rfl
@[simp] theorem cls_setChunk : (this.setChunk field data).cls = this.cls := by cases this; rfl
@[simp] theorem type_setChunk : (this.setChunk field data).type = this.type := by cases this; rfl
@[simp] theorem num_setChunk : (this.setChunk field data).num = this.num := by cases this; rfl
@[simp] theorem chunk_setChunk :
    (this.setChunk field data).chunk = Function.update this.chunk field data := by cases this; rfl
@[simp] theorem cls_setList : (this.setList elements).cls = this.cls := by cases this; rfl
@[simp] theorem type_setList : (this.setList elements).type = this.type := by cases this; rfl
@[simp] theorem num_setList : (this.setList elements).num = this.num := by cases this; rfl
@[simp] theorem chunk_setList : (this.setList elements).chunk = this.chunk := by cases this; rfl
@[simp] theorem list_setList : (this.setList elements).list = elements := by cases this; rfl

end Fields

end Payload

/-! ## Rules -/

/-- Reserved fields from an index on. -/
def reservedBits (first count : ℕ) : List Rule :=
  (List.range count).map fun i => ⟨.reservedBit, .reserved (first + i)⟩

def headerV2 : List Rule :=
  [⟨.uInt8, .nextPayload⟩, ⟨.flag, .critical⟩] ++ reservedBits 0 7 ++
    [⟨.payloadLength, .payloadLength⟩]

/-- The generic header with eight reserved bits. -/
def headerV1 : List Rule :=
  ⟨.uInt8, .nextPayload⟩ :: reservedBits 0 8 ++ [⟨.payloadLength, .payloadLength⟩]

def headerByte : List Rule :=
  [⟨.uInt8, .nextPayload⟩, ⟨.reservedByte, .reservedByte 0⟩, ⟨.payloadLength, .payloadLength⟩]

/-- Reserved bytes from an index on. -/
def reservedBytes (first count : ℕ) : List Rule :=
  (List.range count).map fun i => ⟨.reservedByte, .reservedByte (first + i)⟩

open PayloadType in
def getEncodingRules (cls : PayloadClass) (type : PayloadType) : List Rule :=
  match cls with
  | .ikeHeader => [⟨.ikeSpi, .initiatorSpi⟩, ⟨.ikeSpi, .responderSpi⟩, ⟨.uInt8, .nextPayload⟩,
      ⟨.uInt4, .majVersion⟩, ⟨.uInt4, .minVersion⟩, ⟨.uInt8, .exchangeType⟩] ++ reservedBits 0 2 ++
      [⟨.flag, .response⟩, ⟨.flag, .version⟩, ⟨.flag, .initiator⟩, ⟨.flag, .authonly⟩,
      ⟨.flag, .commit⟩, ⟨.flag, .encryption⟩, ⟨.uInt32, .messageId⟩, ⟨.headerLength, .length⟩]
  | .sa =>
    if type = plv1SecurityAssociation then headerV1 ++ [⟨.uInt32, .doi⟩, ⟨.uInt32, .situation⟩,
      ⟨.payloadList plv1ProposalSubstructure, .proposals⟩]
    else headerV2 ++ [⟨.payloadList plv2ProposalSubstructure, .proposals⟩]
  | .proposalSubstructure => headerByte ++ [⟨.uInt8, .proposalNumber⟩, ⟨.uInt8, .protocolId⟩,
      ⟨.spiSize, .spiSize⟩, ⟨.uInt8, .transformsCount⟩, ⟨.spi, .spi⟩,
      ⟨.payloadList (if type = plv2ProposalSubstructure then plv2TransformSubstructure
        else plv1TransformSubstructure), .transforms⟩]
  | .transformSubstructure =>
    if type = plv2TransformSubstructure then headerByte ++ [⟨.uInt8, .transformTon⟩] ++
      reservedBytes 1 1 ++ [⟨.uInt16, .transformIdV2⟩,
      ⟨.payloadList plv2TransformAttribute, .attributes⟩]
    else headerByte ++ [⟨.uInt8, .transformTon⟩, ⟨.uInt8, .transformIdV1⟩] ++ reservedBytes 1 2 ++
      [⟨.payloadList plv1TransformAttribute, .attributes⟩]
  | .transformAttribute => [⟨.attributeFormat, .attributeFormat⟩, ⟨.attributeType, .attributeType⟩,
      ⟨.attributeLengthOrValue, .attributeLengthOrValue⟩, ⟨.attributeValue, .attributeValue⟩]
  | .nonce => headerV2 ++ [⟨.chunkData, .nonce⟩]
  | .id =>
    if type ∈ [plv1Id, plv1NatOa, plv1NatOaDraft0003] then headerByte ++ [⟨.uInt8, .idType⟩,
      ⟨.uInt8, .protocolId⟩, ⟨.uInt16, .port⟩, ⟨.chunkData, .idData⟩]
    else headerV2 ++ [⟨.uInt8, .idType⟩] ++ reservedBytes 0 3 ++ [⟨.chunkData, .idData⟩]
  | .auth => headerV2 ++ [⟨.uInt8, .authMethod⟩] ++ reservedBytes 0 3 ++ [⟨.chunkData, .authData⟩]
  | .cert => headerV2 ++ [⟨.uInt8, .encoding⟩, ⟨.chunkData, .data⟩]
  | .certreq => headerV2 ++ [⟨.uInt8, .encoding⟩, ⟨.chunkData, .data⟩]
  | .trafficSelectorSubstructure => [⟨.tsType, .tsType⟩, ⟨.uInt8, .ipProtocolId⟩,
      ⟨.payloadLength, .payloadLength⟩, ⟨.uInt16, .startPort⟩, ⟨.uInt16, .endPort⟩,
      ⟨.address, .startingAddress⟩, ⟨.address, .endingAddress⟩]
  | .ts => headerV2 ++ [⟨.uInt8, .tsNum⟩] ++ reservedBytes 0 3 ++
      [⟨.payloadList plv2TrafficSelectorSubstructure, .substrs⟩]
  | .ke =>
    if type = plv2KeyExchange then headerV2 ++ [⟨.uInt16, .dhGroupNumber⟩] ++ reservedBytes 0 2 ++
      [⟨.chunkData, .keyExchangeData⟩]
    else headerByte ++ [⟨.chunkData, .keyExchangeData⟩]
  | .notify =>
    if type = plv2Notify then headerV2 ++ [⟨.uInt8, .protocolId⟩, ⟨.spiSize, .spiSize⟩,
      ⟨.uInt16, .notifyType⟩, ⟨.spi, .spi⟩, ⟨.chunkData, .notifyData⟩]
    else headerV1 ++ [⟨.uInt32, .doi⟩, ⟨.uInt8, .protocolId⟩, ⟨.spiSize, .spiSize⟩,
      ⟨.uInt16, .notifyType⟩, ⟨.spi, .spi⟩, ⟨.chunkData, .notifyData⟩]
  | .delete =>
    if type = plv2Delete then headerV2 ++ [⟨.uInt8, .protocolId⟩, ⟨.uInt8, .spiSize⟩,
      ⟨.uInt16, .spiCount⟩, ⟨.chunkData, .spis⟩]
    else headerV1 ++ [⟨.uInt32, .doi⟩, ⟨.uInt8, .protocolId⟩, ⟨.uInt8, .spiSize⟩,
      ⟨.uInt16, .spiCount⟩, ⟨.chunkData, .spis⟩]
  | .vendorId => headerV2 ++ [⟨.chunkData, .data⟩]
  | .hash => headerByte ++ [⟨.chunkData, .hash⟩]
  | .cp =>
    if type = plv2Configuration then headerV2 ++ [⟨.uInt8, .cfgType⟩] ++ reservedBytes 0 3 ++
      [⟨.payloadList plv2ConfigurationAttribute, .attributes⟩]
    else headerV2 ++ [⟨.uInt8, .cfgType⟩] ++ reservedBytes 0 1 ++ [⟨.uInt16, .identifier⟩,
      ⟨.payloadList plv1ConfigurationAttribute, .attributes⟩]
  | .configurationAttribute =>
    if type = plv2ConfigurationAttribute then [⟨.reservedBit, .reserved 0⟩,
      ⟨.attributeType, .attrType⟩, ⟨.attributeLength, .lengthOrValue⟩, ⟨.attributeValue, .value⟩]
    else [⟨.attributeFormat, .afFlag⟩, ⟨.attributeType, .attrType⟩,
      ⟨.attributeLengthOrValue, .lengthOrValue⟩, ⟨.attributeValue, .value⟩]
  | .eap => headerV2 ++ [⟨.chunkData, .data⟩]
  | .encrypted =>
    if type = plv2Encrypted then [⟨.uInt8, .nextPayload⟩, ⟨.uInt8, .flags⟩,
      ⟨.payloadLength, .payloadLength⟩, ⟨.chunkData, .encrypted⟩]
    else [⟨.encryptedData, .encrypted⟩]
  | .encryptedFragment => [⟨.uInt8, .nextPayload⟩, ⟨.uInt8, .flags⟩,
      ⟨.payloadLength, .payloadLength⟩, ⟨.uInt16, .fragmentNumber⟩, ⟨.uInt16, .totalFragments⟩,
      ⟨.chunkData, .encrypted⟩]
  | .fragment => headerByte ++ [⟨.uInt16, .fragmentId⟩, ⟨.uInt8, .fragmentNumber⟩, ⟨.uInt8, .flags⟩,
      ⟨.chunkData, .data⟩]
  | .unknown => headerV2 ++ [⟨.chunkData, .data⟩]

open PayloadType in
/-- The part of `get_header_length` that is fixed. -/
def fixedHeaderLength (cls : PayloadClass) (type : PayloadType) : ℕ :=
  match cls with
  | .ikeHeader => 28
  | .sa => if type = plv1SecurityAssociation then 12 else 4
  | .ke => if type = plv2KeyExchange then 8 else 4
  | .notify => if type = plv2Notify then 8 else 12
  | .delete => if type = plv2Delete then 8 else 12
  | .encrypted => if type = plv2Encrypted then 4 else 0
  | .transformAttribute => 0
  | .cert | .certreq => 5
  | .nonce | .vendorId | .hash | .eap | .unknown | .configurationAttribute => 4
  | _ => 8

def Payload.getHeaderLength (this : Payload) : ℕ :=
  if this.cls = .notify || this.cls = .proposalSubstructure then
    fixedHeaderLength this.cls this.type + this.num .spiSize
  else fixedHeaderLength this.cls this.type

/-- The structure before anything is parsed: all fields are zero or empty. -/
def Payload.empty (cls : PayloadClass) (type : PayloadType) : Payload :=
  .mk cls type (fun _ => 0) (fun _ => []) []

/-- `payload_create`, or `unknown_payload_create` for types that are not known; with those defaults that
rules refer to -/
def payloadCreate (type : PayloadType) (majVer : ℕ) : Payload :=
  let cls := if payloadIsKnown type majVer then payloadClass type else .unknown
  let this := (Payload.empty cls type).setNum .payloadLength (fixedHeaderLength cls type)
  match cls with
  | .ikeHeader => (this.setNum .length 28).setNum .exchangeType 255
  | .cp => this.setNum .cfgType 1
  | .delete => (this.setNum .doi 1).setNum .spiSize 4
  | .notify => this.setNum .doi 1
  | .sa => (this.setNum .doi 1).setNum .situation 1
  | .trafficSelectorSubstructure => this.setNum .tsType 7
  | _ => this

end Encodings

end StrongSwan
