import StrongSwan.Encoding.Message

/-!
# Parsing the body of a message

The body of an IKEv2 message is a chain of payloads, and an Encrypted or an Encrypted Fragment payload
ends it.

* `messageRules`: how often each payload may be in a message, and whether encrypted.
* `parseChain`: a chain of payloads; `parsePayloads`: the one of a message.
* `decryptPayloads`: decrypt the payload at the end, and check the others.
* `parseBody`: parse, decrypt and verify against the rules.
-/

namespace StrongSwan

/-! ## Rules -/

structure PayloadRule where
  type : PayloadType
  /-- minimal occurrence of this payload -/
  minOccurence : ℕ
  /-- max occurrence of this payload -/
  maxOccurence : ℕ
  /-- payload must be encrypted -/
  encrypted : Bool
  /-- if the payload occurs, the message rule is fulfilled -/
  sufficient : Bool
  deriving DecidableEq, Repr

structure MessageRule where
  exchangeType : ExchangeType
  isRequest : Bool
  /-- message contains encrypted payloads -/
  encrypted : Bool
  rules : List PayloadRule
  deriving DecidableEq, Repr

def maxNotifyPayloads : ℕ := 20

def maxDeletePayloads : ℕ := 20

def maxCertPayloads : ℕ := 8

def maxVidPayloads : ℕ := 20

def maxCertreqPayloads : ℕ := 20

def ikeSaInitIRules : List PayloadRule := [
  ⟨.notify, 0, maxNotifyPayloads, false, false⟩,
  ⟨.securityAssociation, 1, 1, false, false⟩,
  ⟨.keyExchange, 1, 1, false, false⟩,
  ⟨.nonce, 1, 1, false, false⟩,
  ⟨.vendorId, 0, maxVidPayloads, false, false⟩]

def ikeSaInitRRules : List PayloadRule := [
  ⟨.notify, 0, maxNotifyPayloads, false, true⟩,
  ⟨.securityAssociation, 1, 1, false, false⟩,
  ⟨.keyExchange, 1, 1, false, false⟩,
  ⟨.nonce, 1, 1, false, false⟩,
  ⟨.certreq, 0, maxCertreqPayloads, false, false⟩,
  ⟨.vendorId, 0, maxVidPayloads, false, false⟩]

def ikeAuthIRules : List PayloadRule := [
  ⟨.fragment, 0, 1, true, true⟩,
  ⟨.notify, 0, maxNotifyPayloads, true, false⟩,
  ⟨.eap, 0, 1, true, true⟩,
  ⟨.auth, 0, 1, true, true⟩,
  ⟨.idInitiator, 0, 1, true, false⟩,
  ⟨.certificate, 0, maxCertPayloads, true, false⟩,
  ⟨.certreq, 0, maxCertreqPayloads, true, false⟩,
  ⟨.idResponder, 0, 1, true, false⟩,
  ⟨.securityAssociation, 0, 1, true, false⟩,
  ⟨.tsInitiator, 0, 1, true, false⟩,
  ⟨.tsResponder, 0, 1, true, false⟩,
  ⟨.configuration, 0, 1, true, false⟩,
  ⟨.vendorId, 0, maxVidPayloads, true, false⟩]

def ikeAuthRRules : List PayloadRule := [
  ⟨.fragment, 0, 1, true, true⟩,
  ⟨.notify, 0, maxNotifyPayloads, true, true⟩,
  ⟨.eap, 0, 1, true, true⟩,
  ⟨.auth, 0, 1, true, true⟩,
  ⟨.certificate, 0, maxCertPayloads, true, false⟩,
  ⟨.idResponder, 0, 1, true, false⟩,
  ⟨.securityAssociation, 0, 1, true, false⟩,
  ⟨.tsInitiator, 0, 1, true, false⟩,
  ⟨.tsResponder, 0, 1, true, false⟩,
  ⟨.configuration, 0, 1, true, false⟩,
  ⟨.vendorId, 0, maxVidPayloads, true, false⟩]

def informationalIRules : List PayloadRule := [
  ⟨.fragment, 0, 1, true, true⟩,
  ⟨.notify, 0, maxNotifyPayloads, true, false⟩,
  ⟨.configuration, 0, 1, true, false⟩,
  ⟨.delete, 0, maxDeletePayloads, true, false⟩,
  ⟨.vendorId, 0, maxVidPayloads, true, false⟩]

def informationalRRules : List PayloadRule := [
  ⟨.fragment, 0, 1, true, true⟩,
  ⟨.notify, 0, maxNotifyPayloads, true, false⟩,
  ⟨.configuration, 0, 1, true, false⟩,
  ⟨.delete, 0, maxDeletePayloads, true, false⟩,
  ⟨.vendorId, 0, maxVidPayloads, true, false⟩]

def createChildSaIRules : List PayloadRule := [
  ⟨.fragment, 0, 1, true, true⟩,
  ⟨.notify, 0, maxNotifyPayloads, true, false⟩,
  ⟨.securityAssociation, 1, 1, true, false⟩,
  ⟨.nonce, 1, 1, true, false⟩,
  ⟨.keyExchange, 0, 1, true, false⟩,
  ⟨.tsInitiator, 0, 1, true, false⟩,
  ⟨.tsResponder, 0, 1, true, false⟩,
  ⟨.configuration, 0, 1, true, false⟩,
  ⟨.vendorId, 0, maxVidPayloads, true, false⟩]

def createChildSaRRules : List PayloadRule := [
  ⟨.fragment, 0, 1, true, true⟩,
  ⟨.notify, 0, maxNotifyPayloads, true, true⟩,
  ⟨.securityAssociation, 1, 1, true, false⟩,
  ⟨.nonce, 1, 1, true, false⟩,
  ⟨.keyExchange, 0, 1, true, false⟩,
  ⟨.tsInitiator, 0, 1, true, false⟩,
  ⟨.tsResponder, 0, 1, true, false⟩,
  ⟨.configuration, 0, 1, true, false⟩,
  ⟨.vendorId, 0, maxVidPayloads, true, false⟩]

/-- Message rules of IKEv2, which define allowed payloads. -/
def messageRules : List MessageRule := [
  ⟨.ikeSaInit, true, false, ikeSaInitIRules⟩,
  ⟨.ikeSaInit, false, false, ikeSaInitRRules⟩,
  ⟨.ikeAuth, true, true, ikeAuthIRules⟩,
  ⟨.ikeAuth, false, true, ikeAuthRRules⟩,
  ⟨.informational, true, true, informationalIRules⟩,
  ⟨.informational, false, true, informationalRRules⟩,
  ⟨.createChildSa, true, true, createChildSaIRules⟩,
  ⟨.createChildSa, false, true, createChildSaRRules⟩]

/-- In a message with encrypted payloads, all payloads with a rule must be encrypted. -/
theorem encrypted_of_rule : ∀ rule ∈ messageRules, rule.encrypted = true →
    ∀ payloadRule ∈ rule.rules, payloadRule.encrypted = true := by decide

/-- Look up a payload rule. -/
def MessageRule.getPayloadRule (this : MessageRule) (type : PayloadType) : Option PayloadRule :=
  this.rules.find? (·.type = type)

/-! ## Chains of payloads -/

theorem length_parsePayload {internals : Internals} {type : PayloadType} {data rest : Chunk}
    {payload : Payload} (h : parsePayload internals type data = some (payload, rest)) :
    rest.length < data.length := by
  simp only [parsePayload, Option.bind_eq_bind, Option.bind_eq_some_iff] at h
  obtain ⟨⟨nextPayload, rest₁⟩, h₁, ⟨flags, rest₂⟩, h₂, ⟨length, rest₃⟩, h₃, h⟩ := h
  split_ifs at h
  obtain ⟨⟨body, rest₄⟩, h₄, h⟩ := Option.bind_eq_some_iff.mp h
  have hrest : rest = rest₄ := by
    split at h
    · cases h
      rfl
    · simp only [Option.bind_eq_some_iff] at h
      obtain ⟨_, _, _, _, heq⟩ := h
      cases heq
      rfl
    · split_ifs at h
      cases h
      rfl
  have hlength₁ := BioReader.length_readUint8 h₁
  have hlength₄ := BioReader.length_readData h₄
  have hlength₂ := BioReader.length_readUint8 h₂
  have hlength₃ := BioReader.length_readUint16 h₃
  dsimp only at hlength₂ hlength₃ hlength₄
  rw [hrest]
  omega

/-- Parse and verify payloads until one has no next payload, or is of a type to stop after. -/
def parseChain (internals : Internals) (stop : PayloadType → Bool) (type : PayloadType)
    (data : Chunk) : Status × List Payload :=
  if type = .none then (.success, [])
  else
    match _h : parsePayload internals type data with
    | none => (.parseError, [])
    | some (parsed, rest) =>
      match verifyPayload internals parsed with
      | none => (.verifyError, [])
      | some payload =>
        if stop type then (.success, [payload])
        else
          let (status, payloads) := parseChain internals stop payload.getNextType rest
          (status, payload :: payloads)
  termination_by data.length
  decreasing_by exact length_parsePayload _h

section Chain

variable {internals : Internals} {stop : PayloadType → Bool} {type : PayloadType} {data rest : Chunk}
  {parsed payload : Payload}

@[simp] theorem parseChain_none : parseChain internals stop .none data = (.success, []) := by
  unfold parseChain
  rfl

theorem parseChain_cons (hne : type ≠ .none)
    (hparse : parsePayload internals type data = some (parsed, rest))
    (hverify : verifyPayload internals parsed = some payload) :
    parseChain internals stop type data = if stop type then (.success, [payload])
      else ((parseChain internals stop payload.getNextType rest).1,
        payload :: (parseChain internals stop payload.getNextType rest).2) := by
  rw [parseChain, if_neg hne]
  split
  · rename_i hnone
    rw [hparse] at hnone
    cases hnone
  · rename_i parsed' rest' hsome
    obtain ⟨rfl, rfl⟩ := Prod.mk.inj (Option.some.inj (hparse.symm.trans hsome))
    simp only [hverify]

end Chain

/-- Parse the payloads after decryption. -/
def parseContent (internals : Internals) (type : PayloadType) (plain : Chunk) :
    Status × List Payload :=
  if type ≠ .none ∧ (plain.length < 4 ∨ (untoh16 (plain.drop 2)).toNat > plain.length) then
    (.parseError, [])
  else parseChain internals (fun _ => false) type plain

@[simp] theorem parseContent_none (internals : Internals) (plain : Chunk) :
    parseContent internals .none plain = (.success, []) := by
  rw [parseContent, if_neg (by simp), parseChain_none]

/-! ## Decryption -/

/-- The inbound transform of an IKEv2 `keymat_t`, if there is one. -/
structure Keymat where
  getAead : Option Aead

namespace EncryptedPayload

def getLength (this : EncryptedPayload) (aead : Option Aead) : U16 :=
  let length := if this.encrypted.length ≠ 0 then this.encrypted.length
    else (aead.map (computeOverhead · 0)).getD 0
  BitVec.ofNat 16 (length + 4)

def appendHeader (this : EncryptedPayload) (aead : Aead) (assoc : Chunk) : Chunk :=
  assoc ++ [this.nextPayload.toWire, this.flags] ++ htoun16 (this.getLength (some aead))

/-- `decrypt`; no transform is needed for what is plain. -/
def decrypt (this : EncryptedPayload) (internals : Internals) (aead : Option Aead)
    (assoc : Chunk) : Status × List Payload :=
  if this.plain then parseContent internals this.nextPayload this.encrypted
  else
    match aead with
    | none => (.invalidState, [])
    | some aead =>
      match decryptContent aead this.encrypted (this.appendHeader aead assoc) with
      | (.success, plain) => parseContent internals this.nextPayload plain
      | (status, _) => (status, [])

end EncryptedPayload

namespace EncryptedFragmentPayload

def getLength (this : EncryptedFragmentPayload) (aead : Option Aead) : U16 :=
  let length := if this.encrypted.length ≠ 0 then this.encrypted.length
    else this.plain.length + (aead.map (computeOverhead · this.plain.length)).getD 0
  BitVec.ofNat 16 (length + 8)

def appendHeader (this : EncryptedFragmentPayload) (aead : Aead) (assoc : Chunk) : Chunk :=
  assoc ++ [this.nextPayload.toWire, this.flags] ++ htoun16 (this.getLength (some aead)) ++
    htoun16 this.fragmentNumber ++ htoun16 this.totalFragments

def decrypt (this : EncryptedFragmentPayload) (aead : Aead) (assoc : Chunk) :
    Status × EncryptedFragmentPayload :=
  let (status, plain) := decryptContent aead this.encrypted (this.appendHeader aead assoc)
  (status, { this with plain })

end EncryptedFragmentPayload

/-- Set the next type of each payload to the type of the one after it. -/
def relink : List Payload → List Payload
  | payload :: next :: payloads => payload.setNextType next.getType :: relink (next :: payloads)
  | payloads => payloads

namespace Message

def getMessageRule (this : Message) : Option MessageRule :=
  messageRules.find? fun rule =>
    rule.exchangeType = this.exchangeType ∧ rule.isRequest = this.isRequest

/-- Parses and verifies the unencrypted payloads contained in the message. An encrypted (fragment)
payload must be the last one. -/
def parsePayloads (this : Message) (internals : Internals) (rest : Chunk) : Status × Message :=
  let (status, payloads) := parseChain internals (fun type => type = .encrypted || type = .fragment)
    this.firstPayload rest
  (status, { this with payloads := this.payloads ++ payloads })

def insertDecrypted (this : Message) (decrypted : List Payload) : Message :=
  match this.payloads.getLast? with
  | some previous => { this with
      payloads := this.payloads.dropLast ++ relink (previous :: decrypted) }
  | none => { this with
      firstPayload := (decrypted.head?.map Payload.getType).getD this.firstPayload
      payloads := relink decrypted }

/-- The data in front of a payload, which is associated with what it encrypts. -/
def associated (this : Message) (length : U16) : Chunk :=
  this.packet.data.take (this.packet.data.length - length.toNat)

def decryptAndExtract (this : Message) (internals : Internals) (keymat : Option Keymat)
    (encryption : EncryptedPayload) : Status × Message :=
  match keymat.bind Keymat.getAead with
  | none => (.invalidArg, this)
  | some aead =>
    if this.parser.isSome ∧
        (this.packet.data.length < (encryption.getLength (some aead)).toNat ∨
          this.packet.data.length < aead.blockSize) then (.verifyError, this)
    else
      let result :=
        -- reassembled messages are already decrypted, this parses the contained payloads
        if this.parser.isNone then encryption.decrypt internals none []
        else encryption.decrypt internals (some aead)
          (this.associated (encryption.getLength (some aead)))
      match result with
      | (.success, decrypted) => (.success, this.insertDecrypted decrypted)
      | (status, _) => (status, this)

def decryptFragment (this : Message) (keymat : Option Keymat)
    (fragment : EncryptedFragmentPayload) : Status × EncryptedFragmentPayload :=
  match keymat.bind Keymat.getAead with
  | none => (.invalidArg, fragment)
  | some aead =>
    if this.packet.data.length < (fragment.getLength (some aead)).toNat ∨
        this.packet.data.length < aead.blockSize then (.verifyError, fragment)
    else fragment.decrypt aead (this.associated (fragment.getLength (some aead)))

def mustEncrypt (this : Message) (rule : MessageRule) (type : PayloadType) : Bool :=
  type ≠ .unknown && this.exchangeType ≠ .aggressive &&
    (rule.getPayloadRule type).all PayloadRule.encrypted

/-- Decrypt the payloads after the first ones, which were passed. -/
def decryptFrom (this : Message) (internals : Internals) (keymat : Option Keymat)
    (rule : MessageRule) (passed : List Payload) : List Payload → Status × Message
  | [] => (.success, { this with payloads := passed })
  | .encrypted encryption :: payloads =>
    if payloads ≠ [] then (.verifyError, { this with payloads := passed ++ payloads })
    else { this with payloads := passed }.decryptAndExtract internals keymat encryption
  | .fragment fragment :: payloads =>
    if payloads ≠ [] then
      (.verifyError, { this with payloads := passed ++ .fragment fragment :: payloads })
    else
      let (status, fragment) := this.decryptFragment keymat fragment
      (status, { this with payloads := passed ++ [.fragment fragment] })
  | payload :: payloads =>
    if this.mustEncrypt rule payload.getType then
      (.failed, { this with payloads := passed ++ payload :: payloads })
    else this.decryptFrom internals keymat rule (passed ++ [payload]) payloads

def decryptPayloads (this : Message) (internals : Internals) (keymat : Option Keymat)
    (rule : MessageRule) : Status × Message :=
  this.decryptFrom internals keymat rule [] this.payloads

/-- Check how often payloads of each type occur. -/
def verifyRules (payloads : List Payload) (complete : Bool) : List PayloadRule → Status
  | [] => .success
  | rule :: rules =>
    let found := payloads.countP (·.getType = rule.type)
    if found > rule.maxOccurence then .verifyError
    else if !complete ∧ found < rule.minOccurence then .verifyError
    else verifyRules payloads (complete || (found ≠ 0 && rule.sufficient)) rules

def verify (this : Message) (rule : MessageRule) : Status :=
  verifyRules this.payloads false rule.rules

/-- `parse_body`; reassembled messages are already parsed, except for what is in the encrypted
payload. -/
def parseBody (this : Message) (internals : Internals) (keymat : Option Keymat) :
    Status × Message :=
  match this.getMessageRule with
  | none => (.notSupported, this)
  | some rule =>
    let parsed := match this.parser with
      | some rest => this.parsePayloads internals rest
      | none => (.success, this)
    match parsed with
    | (.success, this) =>
      match this.decryptPayloads internals keymat rule with
      | (.success, this) => (this.verify rule, this)
      | (status, this) => (status, this)
    | (status, this) => (status, this)

end Message

end StrongSwan
