import StrongSwan.Encoding.Message.Defrag
import StrongSwan.Encoding.Message.Parse
import StrongSwan.Lib.System

/-!
# Protected exchanges

In exchanges whose payloads must be encrypted, a message with a payload of a known type needs an
Encrypted or an Encrypted Fragment payload.

* `Opens`: the integrity of an encrypted payload was checked.
* `decryptFrom_success`: payloads of unknown types may be in front of the encrypted one.
* **`parseBody_protected`**: all payloads of known types were encrypted, also if the message was put
  together from fragments; `not_parseBody_protected`: others need not be.
-/

namespace StrongSwan

/-- The integrity of ciphertext and associated data was checked, and the ciphertext decrypted. -/
def Opens (aead : Aead) (encrypted assoc plain : Chunk) : Prop :=
  ∃ crypt, aead.decrypt (encrypted.drop aead.ivSize) assoc (encrypted.take aead.ivSize) =
    some crypt ∧ plain <+: crypt

theorem opens_of_decryptContent {aead : Aead} {encrypted assoc plain : Chunk}
    (h : decryptContent aead encrypted assoc = (.success, plain)) :
    Opens aead encrypted assoc plain := by
  unfold decryptContent at h
  split_ifs at h
  · simp at h
  · split at h
    · simp at h
    · rename_i crypt hcrypt
      dsimp only at h
      split_ifs at h
      · simp at h
      · cases h
        exact ⟨crypt, hcrypt, List.take_prefix _ _⟩

/-! ## Next types -/

namespace Payload

/-- One payload, whatever is next. -/
def SameButNext (payload payload' : Payload) : Prop :=
  payload = payload' ∨ ∃ type, payload = payload'.setNextType type

theorem SameButNext.getType_eq {payload payload' : Payload} (h : SameButNext payload payload') :
    payload.getType = payload'.getType := by
  obtain rfl | ⟨type, rfl⟩ := h
  · rfl
  · exact getType_setNextType type payload'

end Payload

theorem mem_relink {payloads : List Payload} {payload : Payload} (h : payload ∈ relink payloads) :
    ∃ payload' ∈ payloads, payload.SameButNext payload' := by
  fun_induction relink payloads with
  | case1 first next payloads ih =>
    obtain rfl | h := List.mem_cons.mp h
    · exact ⟨first, List.mem_cons_self, .inr ⟨_, rfl⟩⟩
    · obtain ⟨payload', hmem, hsame⟩ := ih h
      exact ⟨payload', List.mem_cons_of_mem _ hmem, hsame⟩
  | case2 payloads => exact ⟨payload, h, .inl rfl⟩

namespace Message

variable {this this' : Message} {internals : Internals} {keymat : Option Keymat} {rule : MessageRule}

/-! ## Decryption -/

/-- The payloads must be encrypted, those of known types. -/
theorem mustEncrypt_eq (hrule : this.getMessageRule = some rule) (hencrypted : rule.encrypted = true)
    (type : PayloadType) : this.mustEncrypt rule type = (type ≠ .unknown : Bool) := by
  have hmem := List.mem_of_find?_eq_some hrule
  have hsame := List.find?_some hrule
  have hexchange : this.exchangeType ≠ .aggressive := by
    have hall : ∀ rule ∈ messageRules, rule.exchangeType ≠ .aggressive := by decide
    have hne := hall rule hmem
    simp only [Bool.decide_and, Bool.and_eq_true, decide_eq_true_eq] at hsame
    rw [← hsame.1]
    exact hne
  have hall : (rule.getPayloadRule type).all PayloadRule.encrypted = true := by
    cases hfind : rule.getPayloadRule type with
    | none => rfl
    | some payloadRule =>
      exact encrypted_of_rule rule hmem hencrypted payloadRule (List.mem_of_find?_eq_some hfind)
  simp [mustEncrypt, hexchange, hall]

/-- **What decryption lets pass**: payloads of unknown types, and at the end an encrypted one. -/
theorem decryptFrom_success (hmust : ∀ type, this.mustEncrypt rule type = (type ≠ .unknown : Bool))
    {passed payloads : List Payload}
    (h : this.decryptFrom internals keymat rule passed payloads = (.success, this')) :
    ∃ before, (∀ payload ∈ before, payload.getType = .unknown) ∧
      ((payloads = before ∧ this' = { this with payloads := passed ++ before }) ∨
        (∃ encryption, payloads = before ++ [.encrypted encryption] ∧
          { this with payloads := passed ++ before }.decryptAndExtract internals keymat encryption =
            (.success, this')) ∨
        ∃ fragment fragment', payloads = before ++ [.fragment fragment] ∧
          this.decryptFragment keymat fragment = (.success, fragment') ∧
          this' = { this with payloads := passed ++ before ++ [.fragment fragment'] }) := by
  induction payloads generalizing passed with
  | nil =>
    cases h
    exact ⟨[], by simp, .inl ⟨rfl, by rw [List.append_nil]⟩⟩
  | cons payload payloads ih =>
    by_cases hkind : (∃ encryption, payload = .encrypted encryption) ∨
        ∃ fragment, payload = .fragment fragment
    · obtain ⟨encryption, rfl⟩ | ⟨fragment, rfl⟩ := hkind
      · unfold decryptFrom at h
        split_ifs at h with hlast
        · simp at h
        · rw [not_not] at hlast
          subst hlast
          exact ⟨[], by simp, .inr (.inl ⟨encryption, rfl, by simpa using h⟩)⟩
      · unfold decryptFrom at h
        split_ifs at h with hlast
        · simp at h
        · rw [not_not] at hlast
          subst hlast
          rcases hfragment : this.decryptFragment keymat fragment with ⟨status, fragment'⟩
          rw [hfragment] at h
          obtain ⟨rfl, rfl⟩ := Prod.mk.inj h
          exact ⟨[], by simp, .inr (.inr ⟨fragment, fragment', rfl, hfragment,
            by rw [List.append_nil]⟩)⟩
    · have hother : this.decryptFrom internals keymat rule passed (payload :: payloads) =
          if this.mustEncrypt rule payload.getType then
            (.failed, { this with payloads := passed ++ payload :: payloads })
          else this.decryptFrom internals keymat rule (passed ++ [payload]) payloads := by
        cases payload with
        | encrypted encryption => exact absurd (.inl ⟨encryption, rfl⟩) hkind
        | fragment fragment => exact absurd (.inr ⟨fragment, rfl⟩) hkind
        | fragmentV1 payload => rfl
        | plain type nextPayload flags body => rfl
      rw [hother] at h
      split_ifs at h with hmust'
      · simp at h
      · have hunknown : payload.getType = .unknown := by
          rw [hmust] at hmust'
          simpa using hmust'
        obtain ⟨before, hbefore, hcases⟩ := ih h
        refine ⟨payload :: before, ?_, ?_⟩
        · intro payload' hmem
          obtain rfl | hmem := List.mem_cons.mp hmem
          · exact hunknown
          · exact hbefore _ hmem
        · simp only [List.append_assoc, List.singleton_append] at hcases
          obtain ⟨rfl, hthis⟩ | ⟨encryption, rfl, hextract⟩ |
            ⟨fragment, fragment', rfl, hfragment, hthis⟩ := hcases
          · exact .inl ⟨rfl, hthis⟩
          · exact .inr (.inl ⟨encryption, rfl, hextract⟩)
          · exact .inr (.inr ⟨fragment, fragment', rfl, hfragment, by simpa using hthis⟩)

def Decoded (internals : Internals) (plain : Chunk) (payload : Payload) : Prop :=
  ∃ type decrypted, parseContent internals type plain = (.success, decrypted) ∧
    ∃ payload' ∈ decrypted, payload.SameButNext payload'

theorem insertDecrypted_payloads {decrypted : List Payload}
    (hpassed : ∀ payload ∈ this.payloads, payload.getType = .unknown) :
    ∀ payload ∈ (this.insertDecrypted decrypted).payloads, payload.getType = .unknown ∨
      ∃ payload' ∈ decrypted, payload.SameButNext payload' := by
  intro payload hmem
  unfold insertDecrypted at hmem
  split at hmem
  · rename_i previous hprevious
    obtain hmem | hmem := List.mem_append.mp hmem
    · exact .inl (hpassed payload (List.mem_of_mem_dropLast hmem))
    · obtain ⟨payload', hmem', hsame⟩ := mem_relink hmem
      obtain rfl | hmem' := List.mem_cons.mp hmem'
      · left
        rw [hsame.getType_eq]
        exact hpassed _ (List.mem_of_getLast? hprevious)
      · exact .inr ⟨payload', hmem', hsame⟩
  · exact .inr (mem_relink hmem)

def OpensEncrypted (this : Message) (aead : Aead) (encryption : EncryptedPayload) (plain : Chunk) :
    Prop :=
  Opens aead encryption.encrypted (encryption.appendHeader aead
    (this.associated (encryption.getLength (some aead)))) plain

def OpensFragment (this : Message) (aead : Aead) (fragment : EncryptedFragmentPayload)
    (plain : Chunk) : Prop :=
  Opens aead fragment.encrypted (fragment.appendHeader aead
    (this.associated (fragment.getLength (some aead)))) plain

variable {aead : Aead} {encryption : EncryptedPayload}

theorem EncryptedPayload.decrypt_success
    {assoc : Chunk} {decrypted : List Payload} (hplain : encryption.plain = false)
    (h : encryption.decrypt internals (some aead) assoc = (.success, decrypted)) :
    ∃ plain, Opens aead encryption.encrypted (encryption.appendHeader aead assoc) plain ∧
      parseContent internals encryption.nextPayload plain = (.success, decrypted) := by
  unfold EncryptedPayload.decrypt at h
  rw [if_neg (by simp [hplain])] at h
  dsimp only at h
  split at h
  · rename_i plain hdecrypt
    exact ⟨plain, opens_of_decryptContent hdecrypt, h⟩
  · rename_i hstatus _
    obtain ⟨rfl, -⟩ := Prod.mk.inj h
    exact (hstatus rfl).elim

theorem decryptAndExtract_received {rest : Chunk}
    (h : this.decryptAndExtract internals (some ⟨some aead⟩) encryption = (.success, this'))
    (hparser : this.parser = some rest) (hplain : encryption.plain = false)
    (hpassed : ∀ payload ∈ this.payloads, payload.getType = .unknown) :
    ∃ plain, this.OpensEncrypted aead encryption plain ∧
      ∀ payload ∈ this'.payloads, payload.getType = .unknown ∨ Decoded internals plain payload := by
  unfold decryptAndExtract at h
  simp only [Option.bind_some, hparser, Option.isSome_some, true_and, Option.isNone_some,
    Bool.false_eq_true, if_false] at h
  split_ifs at h
  · simp at h
  · split at h
    · rename_i decrypted hdecrypt
      obtain ⟨plain, hopens, hcontent⟩ := EncryptedPayload.decrypt_success hplain hdecrypt
      cases h
      refine ⟨plain, hopens, fun payload hmem => ?_⟩
      exact (insertDecrypted_payloads hpassed payload hmem).imp_right
        fun hsame => ⟨_, decrypted, hcontent, hsame⟩
    · rename_i hstatus _
      obtain ⟨rfl, -⟩ := Prod.mk.inj h
      exact (hstatus rfl).elim

theorem decryptAndExtract_reassembled
    (h : this.decryptAndExtract internals (some ⟨some aead⟩) encryption = (.success, this'))
    (hparser : this.parser = none) (hplain : encryption.plain = true)
    (hpassed : ∀ payload ∈ this.payloads, payload.getType = .unknown) :
    ∀ payload ∈ this'.payloads, payload.getType = .unknown ∨
      Decoded internals encryption.encrypted payload := by
  unfold decryptAndExtract at h
  simp only [Option.bind_some, hparser, Option.isSome_none, Bool.false_eq_true, false_and, if_false,
    Option.isNone_none, if_true, EncryptedPayload.decrypt, hplain] at h
  split at h
  · rename_i decrypted hcontent
    cases h
    exact fun payload hmem => (insertDecrypted_payloads hpassed payload hmem).imp_right
      fun hsame => ⟨_, decrypted, hcontent, hsame⟩
  · rename_i hstatus _
    obtain ⟨rfl, -⟩ := Prod.mk.inj h
    exact (hstatus rfl).elim

theorem decryptFragment_success {fragment fragment' : EncryptedFragmentPayload}
    (h : this.decryptFragment (some ⟨some aead⟩) fragment = (.success, fragment')) :
    ∃ plain, fragment' = { fragment with plain } ∧ this.OpensFragment aead fragment plain := by
  unfold decryptFragment at h
  simp only [Option.bind_some] at h
  split_ifs at h
  · simp at h
  · unfold EncryptedFragmentPayload.decrypt at h
    rcases hdecrypt : decryptContent aead fragment.encrypted (fragment.appendHeader aead
      (this.associated (fragment.getLength (some aead)))) with ⟨status, plain⟩
    rw [hdecrypt] at h
    obtain ⟨rfl, rfl⟩ := Prod.mk.inj h
    exact ⟨plain, rfl, opens_of_decryptContent hdecrypt⟩

/-! ## Received messages -/

/-- Nothing is decrypted in the payload. -/
def StillEncrypted : Payload → Prop
  | .encrypted encryption => encryption.plain = false
  | .fragment fragment => fragment.plain = []
  | _ => True

theorem stillEncrypted_of_parsePayload {type : PayloadType} {data rest : Chunk} {payload : Payload}
    (h : parsePayload internals type data = some (payload, rest)) : StillEncrypted payload := by
  simp only [parsePayload, Option.bind_eq_bind, Option.bind_eq_some_iff] at h
  obtain ⟨_, _, _, _, _, _, h⟩ := h
  split_ifs at h
  obtain ⟨_, _, h⟩ := Option.bind_eq_some_iff.mp h
  split at h
  · cases h
    rfl
  · simp only [Option.bind_eq_some_iff] at h
    obtain ⟨_, _, _, _, heq⟩ := h
    cases heq
    rfl
  · split_ifs at h
    cases h
    trivial

theorem stillEncrypted_of_verifyPayload {parsed payload : Payload}
    (h : verifyPayload internals parsed = some payload) (hparsed : StillEncrypted parsed) :
    StillEncrypted payload := by
  unfold verifyPayload at h
  split at h
  · cases h
    exact hparsed
  · split_ifs at h <;>
    · cases h
      exact hparsed
  · split_ifs at h
    cases h
    trivial
  · split_ifs at h
    cases h
    trivial

theorem stillEncrypted_of_parseChain (internals : Internals) (stop : PayloadType → Bool)
    (type : PayloadType) (data : Chunk) :
    ∀ payload ∈ (parseChain internals stop type data).2, StillEncrypted payload := by
  fun_induction parseChain internals stop type data with
  | case1 => simp
  | case2 => simp
  | case3 => simp
  | case4 type data hne parsed rest hparse payload hverify hstop =>
    intro payload' hmem
    obtain rfl := List.mem_singleton.mp hmem
    exact stillEncrypted_of_verifyPayload hverify (stillEncrypted_of_parsePayload hparse)
  | case5 type data hne parsed rest hparse payload hverify hstop status payloads heq ih =>
    intro payload' hmem
    obtain rfl | hmem := List.mem_cons.mp hmem
    · exact stillEncrypted_of_verifyPayload hverify (stillEncrypted_of_parsePayload hparse)
    · rw [heq] at ih
      exact ih payload' hmem

/-- The payloads in a received message. -/
def cleartext (this : Message) (internals : Internals) (rest : Chunk) : List Payload :=
  (parseChain internals (fun type => type = .encrypted || type = .fragment) this.firstPayload rest).2

/-- The payloads are those in an Encrypted payload of the received message whose integrity was
checked, or such an Encrypted Fragment payload; but for those of unknown types. -/
def Protects (this : Message) (internals : Internals) (aead : Aead) (rest : Chunk)
    (payloads : List Payload) : Prop :=
  (∃ encryption plain, .encrypted encryption ∈ this.cleartext internals rest ∧
    this.OpensEncrypted aead encryption plain ∧
    ∀ payload ∈ payloads, payload.getType = .unknown ∨ Decoded internals plain payload) ∨
  ∃ fragment plain, .fragment fragment ∈ this.cleartext internals rest ∧
    this.OpensFragment aead fragment plain ∧
    ∀ payload ∈ payloads, payload.getType = .unknown ∨ payload = .fragment { fragment with plain }

theorem decryptPayloads_of_parseBody {parsed : Message} (hrule : this.getMessageRule = some rule)
    (h : this.parseBody internals keymat = (.success, this'))
    (hparsed : parsed = (match this.parser with
      | some rest => (this.parsePayloads internals rest).2
      | none => this)) :
    parsed.decryptPayloads internals keymat rule = (.success, this') := by
  unfold parseBody at h
  simp only [hrule] at h
  split at h
  · rename_i this'' hthis
    obtain rfl : parsed = this'' := by
      cases hparser : this.parser with
      | none =>
        rw [hparser] at hthis hparsed
        exact hparsed.trans (Prod.mk.inj hthis).2
      | some rest =>
        rw [hparser] at hthis hparsed
        exact hparsed.trans (congrArg Prod.snd hthis)
    split at h
    · rename_i decrypted hdecrypt
      rw [hdecrypt, (Prod.mk.inj h).2]
    · rename_i hstatus _
      obtain ⟨rfl, -⟩ := Prod.mk.inj h
      exact (hstatus rfl).elim
  · rename_i hstatus _
    obtain ⟨rfl, -⟩ := Prod.mk.inj h
    exact (hstatus rfl).elim

/-- **What a received message is accepted with**: payloads of unknown types, or an encrypted one. -/
theorem parseBody_received {rest : Chunk} (hrule : this.getMessageRule = some rule)
    (hencrypted : rule.encrypted = true) (hparser : this.parser = some rest)
    (hpayloads : this.payloads = [])
    (h : this.parseBody internals (some ⟨some aead⟩) = (.success, this')) :
    (∀ payload ∈ this.cleartext internals rest, payload.getType = .unknown) ∧
      this'.payloads = this.cleartext internals rest ∨
    this.Protects internals aead rest this'.payloads := by
  have hdecrypt : { this with payloads := this.cleartext internals rest }.decryptPayloads internals
      (some ⟨some aead⟩) rule = (.success, this') :=
    decryptPayloads_of_parseBody hrule h (by
      simp only [hparser, parsePayloads, hpayloads, List.nil_append]
      rfl)
  have hmust : ∀ type, mustEncrypt { this with payloads := this.cleartext internals rest } rule type =
      (type ≠ .unknown : Bool) := mustEncrypt_eq hrule hencrypted
  obtain ⟨before, hbefore, hcases⟩ := decryptFrom_success hmust hdecrypt
  simp only [List.nil_append] at hcases
  obtain ⟨heq, rfl⟩ | ⟨encryption, heq, hextract⟩ | ⟨fragment, fragment', heq, hfragment, rfl⟩ := hcases
  · left
    rw [heq]
    exact ⟨hbefore, rfl⟩
  · have hmem : .encrypted encryption ∈ this.cleartext internals rest := by simp [heq]
    have hstill : encryption.plain = false :=
      stillEncrypted_of_parseChain _ _ _ _ _ hmem
    obtain ⟨plain, hopens, hdecoded⟩ := decryptAndExtract_received hextract hparser hstill hbefore
    exact .inr (.inl ⟨encryption, plain, hmem, hopens, hdecoded⟩)
  · have hmem : .fragment fragment ∈ this.cleartext internals rest := by simp [heq]
    obtain ⟨plain, rfl, hopens⟩ := decryptFragment_success hfragment
    refine .inr (.inr ⟨fragment, plain, hmem, hopens, fun payload hmem => ?_⟩)
    obtain hmem | hmem := List.mem_append.mp hmem
    · exact .inl (hbefore payload hmem)
    · exact .inr (List.mem_singleton.mp hmem)

/-! ## Reassembled messages -/

/-- The data are pieces that were decrypted in received messages, or nothing. -/
def Pieced (aead : Aead) (received : List Message) (internals : Internals) (data : Chunk) : Prop :=
  data = [] ∨ ∃ message ∈ received, ∃ rest fragment, message.parser = some rest ∧
    .fragment fragment ∈ message.cleartext internals rest ∧ message.OpensFragment aead fragment data

/-- A message that was received, for an exchange whose payloads are encrypted, and accepted. -/
def Accepts (internals : Internals) (aead : Aead) (message accepted : Message) : Prop :=
  message.parser.isSome ∧ message.payloads = [] ∧
    (∃ rule, message.getMessageRule = some rule ∧ rule.encrypted = true) ∧
    message.parseBody internals (some ⟨some aead⟩) = (.success, accepted)

theorem StillEncrypted.sameButNext {payload payload' : Payload} (h : StillEncrypted payload')
    (hsame : payload.SameButNext payload') : StillEncrypted payload := by
  obtain rfl | ⟨type, rfl⟩ := hsame
  · exact h
  · cases payload' with
    | fragment fragment =>
      unfold Payload.setNextType
      dsimp only
      split_ifs <;> exact h
    | encrypted encryption => exact h
    | fragmentV1 payload => trivial
    | plain type' nextPayload flags body => trivial

theorem Decoded.stillEncrypted {plain : Chunk} {payload : Payload}
    (h : Decoded internals plain payload) : StillEncrypted payload := by
  obtain ⟨type, decrypted, hcontent, payload', hmem, hsame⟩ := h
  refine StillEncrypted.sameButNext ?_ hsame
  unfold parseContent at hcontent
  split_ifs at hcontent
  · simp at hcontent
  · have hstill := stillEncrypted_of_parseChain internals (fun _ => false) type plain
    rw [hcontent] at hstill
    exact hstill payload' hmem

variable {received : List Message}

theorem Accepts.pieced {message accepted : Message}
    {payload : EncryptedFragmentPayload} (h : Accepts internals aead message accepted)
    (hmem : message ∈ received) (hpayload : accepted.fragmentV2 = some payload) :
    Pieced aead received internals payload.plain := by
  obtain ⟨hparser, hpayloads, ⟨rule, hrule, hencrypted⟩, hparse⟩ := h
  obtain ⟨rest, hparser⟩ := Option.isSome_iff_exists.mp hparser
  have hpayload' : .fragment payload ∈ accepted.payloads := by
    unfold fragmentV2 at hpayload
    split at hpayload
    · rename_i payload' hfind
      obtain rfl := Option.some.inj hpayload
      exact List.mem_of_find?_eq_some hfind
    · cases hpayload
  have hknown : (Payload.fragment payload).getType ≠ .unknown := fun h => nomatch h
  obtain ⟨hunknown, heq⟩ | ⟨encryption, plain, -, -, hall⟩ |
    ⟨fragment, plain, hfragment, hopens, hall⟩ :=
    parseBody_received hrule hencrypted hparser hpayloads hparse
  · rw [heq] at hpayload'
    exact absurd (hunknown _ hpayload') hknown
  · exact .inl ((hall _ hpayload').resolve_left hknown).stillEncrypted
  · cases (hall _ hpayload').resolve_left hknown
    exact .inr ⟨message, hmem, rest, fragment, hparser, hfragment, hopens⟩

/-- What is stored of fragments, and what is made of them, are pieces. -/
structure Reassembles (aead : Aead) (received : List Message) (internals : Internals)
    (this : Message) : Prop where
  parser : this.parser = none
  fragments : ∀ f ∈ this.fragments.getD [], Pieced aead received internals f.data
  complete : this.frag = none → ∃ before encryption, ∃ pieces : List Chunk,
    this.payloads = before ++ [.encrypted encryption] ∧ encryption.plain = true ∧
    encryption.encrypted = pieces.flatten ∧ ∀ piece ∈ pieces, Pieced aead received internals piece

theorem addFragment_members (this : Message) (frag : FragmentData) (fragments : List Fragment)
    (num : U16) (data : Chunk) :
    (this.addFragment frag fragments num data).2.parser = this.parser ∧
    (this.addFragment frag fragments num data).2.frag ≠ none ∧
    ∀ f ∈ (this.addFragment frag fragments num data).2.fragments.getD [],
      f.data = data ∨ f ∈ fragments := by
  unfold addFragment
  split
  · exact ⟨rfl, nofun, fun f hf => .inr hf⟩
  · rename_i inserted hinserted
    dsimp only
    split_ifs
    · exact ⟨rfl, nofun, fun f hf => by cases hf⟩
    · refine ⟨rfl, nofun, fun f hf => ?_⟩
      obtain rfl | hf := Pieces.mem_of_insertNew hinserted hf
      · exact .inl rfl
      · exact .inr hf

@[simp] theorem parser_withFirst (this message : Message) (payload : EncryptedFragmentPayload) :
    (this.withFirst message payload).parser = this.parser := by
  unfold withFirst
  split_ifs <;> rfl

theorem storeV2_members (this message : Message) (frag : FragmentData)
    (payload : EncryptedFragmentPayload) :
    (this.storeV2 message frag payload).2.parser = this.parser ∧
    (this.storeV2 message frag payload).2.frag ≠ none ∧
    ∀ f ∈ (this.storeV2 message frag payload).2.fragments.getD [],
      f.data = payload.plain ∨ f ∈ this.fragments.getD [] := by
  have hbegin : (this.beginV2 frag payload).2 ⊆ this.fragments.getD [] := by
    unfold beginV2
    split_ifs
    · exact List.nil_subset _
    · exact fun _ h => h
  obtain ⟨hparser, hfrag, hmem⟩ := addFragment_members this (this.beginV2 frag payload).1
    (this.beginV2 frag payload).2 payload.fragmentNumber payload.plain
  unfold storeV2
  dsimp only
  split
  · rename_i stored hstored
    rw [hstored] at hparser hfrag hmem
    rw [parser_withFirst, frag_withFirst, fragments_withFirst]
    exact ⟨hparser, hfrag, fun f hf => (hmem f hf).imp_right fun h => hbegin h⟩
  · rename_i stored _ hstored
    rw [hstored] at hparser hfrag hmem
    exact ⟨hparser, hfrag, fun f hf => (hmem f hf).imp_right fun h => hbegin h⟩

theorem Reassembles.addFragmentV2 {message : Message}
    (h : Reassembles aead received internals this)
    (hmessage : ∀ payload, message.fragmentV2 = some payload →
      Pieced aead received internals payload.plain) :
    Reassembles aead received internals (this.addFragmentV2 message).2 := by
  unfold Message.addFragmentV2
  split
  · exact h
  · exact h
  · rename_i frag payload hfrag hpayload
    split_ifs
    · exact h
    · exact ⟨h.parser, fun f hf => by simp [resetDefrag] at hf, nofun⟩
    · obtain ⟨hparser, hstill, hmem⟩ := storeV2_members this message frag payload
      have hpieces : ∀ f ∈ (this.storeV2 message frag payload).2.fragments.getD [],
          Pieced aead received internals f.data := by
        intro f hf
        obtain heq | hf := hmem f hf
        · rw [heq]
          exact hmessage payload hpayload
        · exact h.fragments f hf
      have hopen : Reassembles aead received internals (this.storeV2 message frag payload).2 :=
        ⟨hparser.trans h.parser, hpieces, fun hnone => absurd hnone hstill⟩
      split
      · rename_i stored hstored
        rw [hstored] at hopen
        split_ifs
        · refine ⟨hopen.parser, (fun f hf => by cases hf), fun _ => ?_⟩
          refine ⟨stored.payloads, _, (stored.fragments.getD []).map (·.data), rfl, rfl, ?_, ?_⟩
          · exact List.flatMap_def ..
          · intro piece hpiece
            obtain ⟨f, hf, rfl⟩ := List.mem_map.mp hpiece
            exact hopen.fragments f hf
        · exact hopen
      · rename_i stored _ hstored
        rw [hstored] at hopen
        exact hopen

theorem Reassembles.feed {received messages : List Message}
    (h : Reassembles aead received internals this)
    (hmessages : ∀ message ∈ messages, ∀ payload, message.fragmentV2 = some payload →
      Pieced aead received internals payload.plain) :
    Reassembles aead received internals (this.feed messages) := by
  induction messages using List.reverseRecOn with
  | nil => exact h
  | append_singleton messages message ih =>
    rw [Message.feed, List.foldl_append, List.foldl_cons, List.foldl_nil]
    refine Reassembles.addFragmentV2 ?_ (hmessages message (by simp))
    exact ih fun message hmem => hmessages message (List.mem_append_left _ hmem)

theorem Reassembles.parseBody
    (h : Reassembles aead received internals this) (hcomplete : this.frag = none)
    (hrule : this.getMessageRule = some rule) (hencrypted : rule.encrypted = true)
    (hparse : this.parseBody internals (some ⟨some aead⟩) = (.success, this')) :
    ∃ pieces : List Chunk, (∀ piece ∈ pieces, Pieced aead received internals piece) ∧
      ∀ payload ∈ this'.payloads, payload.getType = .unknown ∨
        Decoded internals pieces.flatten payload := by
  have hdecrypt : this.decryptPayloads internals (some ⟨some aead⟩) rule = (.success, this') :=
    decryptPayloads_of_parseBody hrule hparse (by simp only [h.parser])
  obtain ⟨before, encryption, pieces, hpayloads, hplain, hdata, hpieces⟩ := h.complete hcomplete
  have hknown : (Payload.encrypted encryption).getType ≠ .unknown := fun h => nomatch h
  obtain ⟨passed, hpassed, hcases⟩ := decryptFrom_success (mustEncrypt_eq hrule hencrypted) hdecrypt
  rw [hpayloads] at hcases
  obtain ⟨heq, -⟩ | ⟨encryption', heq, hextract⟩ | ⟨fragment, fragment', heq, -⟩ := hcases
  · have hmem : .encrypted encryption ∈ passed := by rw [← heq]; simp
    exact absurd (hpassed _ hmem) hknown
  · obtain ⟨-, hlast⟩ := List.append_inj' heq rfl
    cases hlast
    refine ⟨pieces, hpieces, ?_⟩
    rw [← hdata]
    exact decryptAndExtract_reassembled hextract h.parser hplain hpassed
  · obtain ⟨-, hlast⟩ := List.append_inj' heq rfl
    cases hlast

/-- **Protected exchanges.** An accepted message with a payload of a known type has an Encrypted or
an Encrypted Fragment payload whose integrity was checked, and its payloads of known types were
decrypted. If it is put together, this is so for its fragments, and its payloads are decoded from
theirs. -/
theorem parseBody_protected (internals : Internals) (aead : Aead) (rule : MessageRule)
    (this this' : Message) (hrule : this.getMessageRule = some rule)
    (hencrypted : rule.encrypted = true)
    (hparse : this.parseBody internals (some ⟨some aead⟩) = (.success, this')) :
    (∀ rest, this.parser = some rest → this.payloads = [] →
      (∃ payload ∈ this.cleartext internals rest, payload.getType ≠ .unknown) →
      this.Protects internals aead rest this'.payloads) ∧
    ∀ (maxPacket : ℕ) (first defrag : Message) (received messages : List Message),
      first.createDefrag maxPacket = some defrag →
      (∀ message ∈ messages, ∃ message' ∈ received, Accepts internals aead message' message) →
      this = defrag.feed messages → this.frag = none →
      ∃ pieces : List Chunk, (∀ piece ∈ pieces, Pieced aead received internals piece) ∧
        ∀ payload ∈ this'.payloads, payload.getType = .unknown ∨
          Decoded internals pieces.flatten payload := by
  refine ⟨fun rest hparser hpayloads hknown => ?_, ?_⟩
  · obtain ⟨hunknown, -⟩ | hprotects := parseBody_received hrule hencrypted hparser hpayloads hparse
    · obtain ⟨payload, hmem, hne⟩ := hknown
      exact absurd (hunknown payload hmem) hne
    · exact hprotects
  · intro maxPacket first defrag received messages hcreate haccepted hthis hcomplete
    have hdefrag : Reassembles aead received internals defrag := by
      rw [← (resetDefrag_create hcreate).1]
      exact ⟨(resetDefrag_create hcreate).2, (fun f hf => by cases hf), nofun⟩
    subst hthis
    refine Reassembles.parseBody (hdefrag.feed ?_) hcomplete hrule hencrypted hparse
    intro message hmem payload hpayload
    obtain ⟨message', hmem', haccepts⟩ := haccepted message hmem
    exact haccepts.pieced hmem' hpayload

/-- Internals of payloads that are all accepted. -/
def exampleInternals : Internals := ⟨fun _ _ => true, fun _ _ => true⟩

/-- An INFORMATIONAL request with these payloads. -/
def exampleInformational (firstPayload : PayloadType) (body : Chunk) : Message :=
  { messageCreateFromPacket ⟨none, none, body⟩ with
    majorVersion := ikev2MajorVersion, exchangeType := .informational, firstPayload }

/-- A request with an Encrypted payload, which has no payloads in it. -/
def exampleEncrypted : Message := exampleInformational .encrypted [0, 0, 0, 5, 0]

/-- A request with a payload of an unknown type, and an Encrypted one. -/
def exampleUnknown : Message := exampleInformational (.other 200) [46, 0, 0, 4, 0, 0, 0, 5, 0]

theorem cleartext_encrypted :
    parseChain exampleInternals (fun type => type = .encrypted || type = .fragment) .encrypted
      [0, 0, 0, 5, 0] = (.success, [.encrypted ⟨.none, 0, [0], false⟩]) := by
  rw [parseChain_cons (by decide) rfl rfl]
  rfl

theorem cleartext_unknown :
    parseChain exampleInternals (fun type => type = .encrypted || type = .fragment) (.other 200)
      [46, 0, 0, 4, 0, 0, 0, 5, 0] = (.success,
        [.plain (.other 200) .encrypted 0 [], .encrypted ⟨.none, 0, [0], false⟩]) := by
  have hparse : parsePayload exampleInternals (.other 200) [46, 0, 0, 4, 0, 0, 0, 5, 0] =
      some (.plain (.other 200) .encrypted 0 [], [0, 0, 0, 5, 0]) := rfl
  rw [parseChain_cons (by decide) hparse rfl, if_neg (by decide)]
  simp only [Payload.getNextType, cleartext_encrypted]

theorem decrypt_example (assoc : Chunk) :
    EncryptedPayload.decrypt ⟨.none, 0, [0], false⟩ exampleInternals (some plainAead) assoc =
      (.success, []) := by
  have hcontent : ∀ assoc, decryptContent plainAead [0] assoc = (.success, []) := fun assoc => rfl
  simp only [EncryptedPayload.decrypt, hcontent, parseContent_none, Bool.false_eq_true, if_false]

theorem decryptAndExtract_example {rest : Chunk} (hparser : this.parser = some rest)
    (hlength : 5 ≤ this.packet.data.length) :
    this.decryptAndExtract exampleInternals (some ⟨some plainAead⟩) ⟨.none, 0, [0], false⟩ =
      (.success, this.insertDecrypted []) := by
  have hsize : ((EncryptedPayload.mk .none 0 [0] false).getLength (some plainAead)).toNat = 5 := by
    decide
  have hblock : plainAead.blockSize = 1 := rfl
  unfold decryptAndExtract
  simp only [Option.bind_some, hparser, hsize, hblock, decrypt_example, Option.isNone_some,
    Bool.false_eq_true, if_false]
  rw [if_neg (by omega)]

theorem parseBody_encrypted :
    exampleEncrypted.parseBody exampleInternals (some ⟨some plainAead⟩) =
      (.success, exampleEncrypted) := by
  have hrule : exampleEncrypted.getMessageRule =
      some ⟨.informational, true, true, informationalIRules⟩ := by decide
  have hparse : exampleEncrypted.parsePayloads exampleInternals [0, 0, 0, 5, 0] = (.success,
      { exampleEncrypted with payloads := [.encrypted ⟨.none, 0, [0], false⟩] }) := by
    unfold parsePayloads
    rw [show exampleEncrypted.firstPayload = .encrypted from rfl, cleartext_encrypted]
    rfl
  have hparser : exampleEncrypted.parser = some [0, 0, 0, 5, 0] := rfl
  simp only [parseBody, hrule, hparser, hparse, decryptPayloads, decryptFrom, ne_eq, not_true,
    if_false]
  rw [decryptAndExtract_example rfl (by decide)]
  rfl

theorem parseBody_unknown :
    exampleUnknown.parseBody exampleInternals (some ⟨some plainAead⟩) =
      (.success, { exampleUnknown with payloads := [.plain (.other 200) .encrypted 0 []] }) := by
  have hrule : exampleUnknown.getMessageRule =
      some ⟨.informational, true, true, informationalIRules⟩ := by decide
  have hparse : exampleUnknown.parsePayloads exampleInternals [46, 0, 0, 4, 0, 0, 0, 5, 0] =
      (.success, { exampleUnknown with
        payloads := [.plain (.other 200) .encrypted 0 [], .encrypted ⟨.none, 0, [0], false⟩] }) := by
    unfold parsePayloads
    rw [show exampleUnknown.firstPayload = .other 200 from rfl, cleartext_unknown]
    rfl
  have hparser : exampleUnknown.parser = some [46, 0, 0, 4, 0, 0, 0, 5, 0] := rfl
  simp only [parseBody, hrule, hparser, hparse, decryptPayloads, decryptFrom, ne_eq, not_true,
    if_false]
  rw [if_neg (by decide), decryptAndExtract_example rfl (by decide)]
  rfl

/-- An accepted request has its Encrypted payload. -/
theorem parseBody_protected_encrypted :
    exampleEncrypted.Protects exampleInternals plainAead [0, 0, 0, 5, 0] [] := by
  have hmem : .encrypted ⟨.none, 0, [0], false⟩ ∈
      exampleEncrypted.cleartext exampleInternals [0, 0, 0, 5, 0] := by
    rw [cleartext, show exampleEncrypted.firstPayload = .encrypted from rfl, cleartext_encrypted]
    exact List.mem_singleton_self _
  exact (parseBody_protected exampleInternals plainAead
    ⟨.informational, true, true, informationalIRules⟩ exampleEncrypted exampleEncrypted (by decide)
    rfl parseBody_encrypted).1 _ rfl rfl ⟨_, hmem, by decide⟩

/-- A payload in front of the Encrypted one is accepted without being decrypted, and so is a request
without any payload. -/
theorem not_parseBody_protected :
    (∃ this', exampleUnknown.parseBody exampleInternals (some ⟨some plainAead⟩) = (.success, this') ∧
      ∃ payload ∈ this'.payloads, (informationalIRules.find? (·.type = payload.getType)) = none ∧
        ¬ ∃ encryption plain, .encrypted encryption ∈
            exampleUnknown.cleartext exampleInternals [46, 0, 0, 4, 0, 0, 0, 5, 0] ∧
          exampleUnknown.OpensEncrypted plainAead encryption plain ∧
            Decoded exampleInternals plain payload) ∧
    ∃ this', (exampleInformational .none []).parseBody exampleInternals (some ⟨some plainAead⟩) =
        (.success, this') ∧
      (exampleInformational .none []).cleartext exampleInternals [] = [] := by
  refine ⟨⟨_, parseBody_unknown, _, List.mem_singleton_self _, by decide, ?_⟩, ?_⟩
  · rintro ⟨encryption, plain, hmem, ⟨crypt, hcrypt, hprefix⟩, type, decrypted, hcontent, payload,
      hpayload, -⟩
    rw [cleartext, show exampleUnknown.firstPayload = .other 200 from rfl, cleartext_unknown] at hmem
    obtain rfl : encryption = ⟨.none, 0, [0], false⟩ := by simpa using hmem
    obtain rfl := Option.some.inj hcrypt
    -- there is not enough for a payload
    have hlength : plain.length ≤ 1 := hprefix.length_le
    unfold parseContent at hcontent
    split_ifs at hcontent with hshort
    · simp at hcontent
    · have htype : type = .none := by
        by_contra hne
        refine hshort ⟨hne, .inl ?_⟩
        omega
      rw [htype, parseChain_none] at hcontent
      cases hcontent
      cases hpayload
  · refine ⟨_, Prod.ext ?_ rfl, congrArg Prod.snd parseChain_none⟩
    simp only [parseBody, parsePayloads, exampleInformational, messageCreateFromPacket,
      parseChain_none]
    decide

end Message

end StrongSwan
