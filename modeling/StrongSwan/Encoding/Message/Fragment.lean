import StrongSwan.Encoding.EncryptedPayload
import StrongSwan.Encoding.Message.Reassemble

/-!
# Sending fragments

The fragments of a message are put together again to its contents.

* `fragmentPayloads`: adding and ordering payloads keeps fragments.
* `HasFragment`: a message with a single fragment; **`hasFragment_generate`**.
* **`generateFragments_spec`**: which fragments are sent.
* **`fragment_reassembled`**: they are put together to what was split, if their number is not zero and
  fits its type; `not_fragment_reassembled`.
-/

namespace StrongSwan

namespace Message

/-! ## Fragments among payloads -/

/-- Setting the next type does nothing to a fragment that has one, or is not the first. -/
def KeepsNext (payload : Payload) : Prop :=
  payload.getType = .fragment → ∀ type, payload.setNextType type = payload

theorem keepsNext_of_ne {payload : Payload} (h : payload.getType ≠ .fragment) :
    KeepsNext payload := fun htype => absurd htype h

theorem KeepsNext.setNextType {payload : Payload} (h : KeepsNext payload) (type : PayloadType) :
    KeepsNext (payload.setNextType type) := by
  intro htype
  rw [Payload.getType_setNextType] at htype
  rw [h htype type]
  exact h htype

theorem keepsNext_fragment {payload : EncryptedFragmentPayload}
    (h : payload.fragmentNumber ≠ 1 ∨ payload.nextPayload ≠ .none) :
    KeepsNext (.fragment payload) := by
  intro _ type
  unfold Payload.setNextType
  dsimp only
  rw [if_neg]
  rintro ⟨hone, hnone⟩
  exact h.elim (· hone) (· hnone)

/-- The encrypted fragment payloads of a message. -/
def fragmentPayloads (payloads : List Payload) : List Payload :=
  payloads.filter (·.getType = .fragment)

@[simp] theorem fragmentPayloads_append (payloads payloads' : List Payload) :
    fragmentPayloads (payloads ++ payloads') =
      fragmentPayloads payloads ++ fragmentPayloads payloads' := List.filter_append ..

variable {payloads : List Payload}

theorem fragmentPayloads_of_ne
    (h : ∀ p ∈ payloads, p.getType ≠ .fragment) : fragmentPayloads payloads = [] :=
  List.filter_eq_nil_iff.mpr fun p hp => by simpa using h p hp

theorem KeepsNext.fragmentPayloads_setNextType {payload : Payload} (h : KeepsNext payload)
    (type : PayloadType) :
    fragmentPayloads [payload.setNextType type] = fragmentPayloads [payload] := by
  by_cases htype : payload.getType = .fragment
  · rw [h htype]
  · simp [fragmentPayloads, htype]

/-- **Adding payloads** adds their fragments. -/
theorem fragmentPayloads_addPayload {this : Message} {payload : Payload}
    (hthis : ∀ p ∈ this.payloads, KeepsNext p) (hpayload : KeepsNext payload) :
    (∀ p ∈ (this.addPayload payload).payloads, KeepsNext p) ∧
      fragmentPayloads (this.addPayload payload).payloads =
        fragmentPayloads this.payloads ++ fragmentPayloads [payload] := by
  unfold addPayload
  cases hlast : this.payloads.getLast? with
  | none =>
    have hempty := List.getLast?_eq_none_iff.mp hlast
    refine ⟨fun p hp => ?_, ?_⟩
    · obtain rfl := List.mem_singleton.mp hp
      exact hpayload.setNextType _
    · rw [hempty, hpayload.fragmentPayloads_setNextType]
      rfl
  | some previous =>
    obtain ⟨before, heq⟩ := List.getLast?_eq_some_iff.mp hlast
    have hprevious := hthis previous (by simp [heq])
    rw [heq, List.dropLast_concat]
    dsimp only
    refine ⟨fun p hp => ?_, ?_⟩
    · obtain hp | hp := List.mem_append.mp hp
      · exact hthis p (by simp [heq, hp])
      · obtain rfl | hp := List.mem_cons.mp hp
        · exact hprevious.setNextType _
        · obtain rfl := List.mem_singleton.mp hp
          exact hpayload.setNextType _
    · rw [List.append_cons before (previous.setNextType _), fragmentPayloads_append,
        fragmentPayloads_append, hprevious.fragmentPayloads_setNextType,
        hpayload.fragmentPayloads_setNextType,
        fragmentPayloads_append]

theorem fragmentPayloads_foldl_addPayload {this : Message}
    (hthis : ∀ p ∈ this.payloads, KeepsNext p) (hpayloads : ∀ p ∈ payloads, KeepsNext p) :
    (∀ p ∈ (payloads.foldl addPayload this).payloads, KeepsNext p) ∧
      fragmentPayloads (payloads.foldl addPayload this).payloads =
        fragmentPayloads this.payloads ++ fragmentPayloads payloads := by
  induction payloads generalizing this with
  | nil => exact ⟨hthis, (List.append_nil _).symm⟩
  | cons payload payloads ih =>
    obtain ⟨hkeeps, hadd⟩ := fragmentPayloads_addPayload hthis (hpayloads payload (by simp))
    obtain ⟨hkeeps', hfold⟩ := ih hkeeps fun p hp => hpayloads p (List.mem_cons_of_mem _ hp)
    refine ⟨hkeeps', ?_⟩
    rw [List.foldl_cons, hfold, hadd, List.append_assoc, ← fragmentPayloads_append]
    rfl

/-- What each rule of the order keeps holds of the state that the payloads without a rule are added to. -/
theorem orderPayloads_induct {P : Message × List Payload → Prop} (order : List PayloadOrder)
    (this : Message) (hstart : P ({ this with payloads := [] }, this.payloads))
    (hstep : ∀ state (rule : PayloadOrder), P state →
      P ((state.2.filter rule.applies).foldl addPayload state.1, state.2.filter (!rule.applies ·))) :
    ∃ state, P state ∧ this.orderPayloads order = state.2.reverse.foldl addPayload state.1 := by
  refine ⟨_, ?_, rfl⟩
  exact List.foldlRecOn order _ hstart fun state hstate rule _ => hstep state rule hstate

/-- **Ordering payloads** permutes the fragments. -/
theorem fragmentPayloads_orderPayloads (order : List PayloadOrder) {this : Message}
    (hthis : ∀ p ∈ this.payloads, KeepsNext p) :
    (fragmentPayloads (this.orderPayloads order).payloads).Perm (fragmentPayloads this.payloads) := by
  have hloop := orderPayloads_induct
    (P := fun state => (∀ p ∈ state.1.payloads, KeepsNext p) ∧ (∀ p ∈ state.2, KeepsNext p) ∧
      (fragmentPayloads state.1.payloads ++ fragmentPayloads state.2).Perm
        (fragmentPayloads this.payloads)) order this ⟨by simp, hthis, .refl _⟩
  obtain ⟨state, ⟨hkeeps, hrest, hperm⟩, heq⟩ := hloop fun state rule h => by
    obtain ⟨hthis', hlist, hperm⟩ := h
    obtain ⟨hkeeps, hfold⟩ := fragmentPayloads_foldl_addPayload hthis'
      fun p (hp : p ∈ state.2.filter rule.applies) => hlist p (List.mem_of_mem_filter hp)
    refine ⟨hkeeps, fun p hp => hlist p (List.mem_of_mem_filter hp), .trans ?_ hperm⟩
    rw [hfold, List.append_assoc, ← fragmentPayloads_append]
    exact (List.filter_append_perm rule.applies state.2).filter _ |>.append_left _
  obtain ⟨-, hfold⟩ := fragmentPayloads_foldl_addPayload hkeeps
    fun p hp => hrest p (List.mem_reverse.mp hp)
  rw [heq, hfold]
  refine .trans (List.Perm.append_left _ ?_) hperm
  exact (List.reverse_perm _).filter _

/-! ## A single fragment -/

/-- The only fragment in a message, whose next payload is known. -/
structure HasFragment (payload : EncryptedFragmentPayload) (this : Message) : Prop where
  eq_singleton : fragmentPayloads this.payloads = [.fragment payload]
  keepsNext : payload.fragmentNumber ≠ 1 ∨ payload.nextPayload ≠ .none

variable {this : Message} {payload : EncryptedFragmentPayload}

theorem HasFragment.keepsNext_of_mem (h : HasFragment payload this) :
    ∀ p ∈ this.payloads, KeepsNext p := by
  intro p hp htype
  have hmem : p ∈ fragmentPayloads this.payloads := List.mem_filter.mpr ⟨hp, by simpa using htype⟩
  rw [h.eq_singleton, List.mem_singleton] at hmem
  rw [hmem] at htype ⊢
  exact keepsNext_fragment h.keepsNext htype

theorem HasFragment.fragmentV2 (h : HasFragment payload this) :
    this.fragmentV2 = some payload := by
  have hfind : this.getPayload .fragment = some (.fragment payload) := by
    have hhead := congrArg List.head? h.eq_singleton
    rwa [fragmentPayloads, List.head?_filter, List.head?_cons] at hhead
  rw [Message.fragmentV2, hfind]

theorem messageId_addPayload (this : Message) (payload : Payload) :
    (this.addPayload payload).messageId = this.messageId := by
  unfold addPayload
  split <;> rfl

theorem messageId_foldl_addPayload (this : Message) (payloads : List Payload) :
    (payloads.foldl addPayload this).messageId = this.messageId := by
  induction payloads generalizing this with
  | nil => rfl
  | cons payload payloads ih => rw [List.foldl_cons, ih, messageId_addPayload]

theorem messageId_orderPayloads (order : List PayloadOrder) (this : Message) :
    (this.orderPayloads order).messageId = this.messageId := by
  obtain ⟨state, hstate, heq⟩ := orderPayloads_induct
    (P := fun state => state.1.messageId = this.messageId) order this rfl
    fun state rule h => (messageId_foldl_addPayload _ _).trans h
  rw [heq, messageId_foldl_addPayload, hstate]

theorem HasFragment.orderPayloads (h : HasFragment payload this) (order : List PayloadOrder) :
    HasFragment payload (this.orderPayloads order) := by
  have hperm := fragmentPayloads_orderPayloads order h.keepsNext_of_mem
  rw [h.eq_singleton] at hperm
  exact ⟨List.perm_singleton.mp hperm, h.keepsNext⟩

theorem HasFragment.wrapPayloads (h : HasFragment payload this) (rule : MessageRule) :
    this.wrapPayloads rule =
      ({ this with payloads := this.payloads.filter (·.getType ≠ .fragment) }, .fragment payload) := by
  have hfragments : this.payloads.filterMap Payload.asFragment = [payload] := by
    have hmap := congrArg (List.filterMap Payload.asFragment) h.eq_singleton
    rw [fragmentPayloads, List.filterMap_filter] at hmap
    refine (List.filterMap_congr fun p _ => ?_).trans hmap
    cases p with
    | fragment payload => rfl
    | _ => simp [Payload.asFragment]
  unfold Message.wrapPayloads
  rw [hfragments]
  rfl

variable {order : List PayloadOrder}

/-- **Generating** only encrypts the fragment. -/
theorem hasFragment_generate (h : HasFragment payload this)
    {aead : Option Aead} {draws : Draws} {generated : Message}
    (hgenerate : this.generate order aead draws = (.success, generated)) :
    generated.messageId = this.messageId ∧
      ∃ encrypted, HasFragment { payload with encrypted } generated := by
  have hordered := h.orderPayloads order
  have hid := messageId_orderPayloads order this
  unfold generate generateMessage at hgenerate
  split_ifs at hgenerate
  · cases hgenerate
  · cases hgenerate
  · cases hrule : this.getMessageRule with
    | none => simp [hrule] at hgenerate
    | some rule =>
      rw [hrule] at hgenerate
      dsimp only at hgenerate
      split_ifs at hgenerate with hencrypted
      · obtain ⟨aead, rfl⟩ := Option.isSome_iff_exists.mp hencrypted.2
        rw [hordered.wrapPayloads] at hgenerate
        dsimp only [finalizeMessage, Wrapped.encrypt, Option.bind_eq_bind] at hgenerate
        split at hgenerate
        · cases hgenerate
        · rename_i encrypted hencrypt
          obtain ⟨encrypted, -, heq⟩ := Option.bind_eq_some_iff.mp hencrypt
          obtain rfl := Option.some.inj heq
          obtain rfl := (Prod.mk.inj hgenerate).2
          refine ⟨hid, encrypted, ?_, h.keepsNext⟩
          rw [fragmentPayloads_append, fragmentPayloads_of_ne fun p hp => by
            simpa using (List.mem_filter.mp hp).2]
          rfl
      · obtain rfl := (Prod.mk.inj hgenerate).2
        exact ⟨hid, payload.encrypted, hordered.eq_singleton, h.keepsNext⟩

/-! ## The fragments of a message -/

/-- The contents of a fragment. -/
def fragmentOf (next : PayloadType) (num count : U16) (data : Chunk) : EncryptedFragmentPayload :=
  ⟨if num = 1 then next else .none, 0, num, count, [], data⟩

variable {next : PayloadType}

theorem hasFragment_createFragment (hclear : ∀ p ∈ this.payloads, p.getType ≠ .fragment)
    (hnext : next ≠ .none) (num count : U16) (data : Chunk) :
    (this.createFragment next num count data).messageId = this.messageId ∧
      HasFragment (fragmentOf next num count data) (this.createFragment next num count data) := by
  have hempty : ∀ p ∈ this.clone.payloads, KeepsNext p := fun p hp => nomatch hp
  have hkeeps : (fragmentOf next num count data).fragmentNumber ≠ 1 ∨
      (fragmentOf next num count data).nextPayload ≠ .none := by
    by_cases hnum : num = 1
    · exact .inr (by rwa [fragmentOf, if_pos hnum])
    · exact .inl hnum
  unfold createFragment
  dsimp only
  split_ifs with hnum
  · have hpayloads : ∀ p ∈ this.payloads.filter (·.getType ≠ .encrypted), p.getType ≠ .fragment :=
      fun p hp => hclear p (List.mem_of_mem_filter hp)
    obtain ⟨hkeeps', hfold⟩ := fragmentPayloads_foldl_addPayload hempty
      fun p hp => keepsNext_of_ne (hpayloads p hp)
    obtain ⟨-, hadd⟩ := fragmentPayloads_addPayload hkeeps' (keepsNext_fragment hkeeps)
    have hset : (Payload.fragment ⟨.none, 0, num, count, [], data⟩).setNextType next =
        .fragment (fragmentOf next num count data) := by
      rw [fragmentOf, if_pos hnum, Payload.setNextType, if_pos ⟨hnum, rfl⟩]
    rw [hset]
    refine ⟨?_, ?_, hkeeps⟩
    · rw [messageId_addPayload, messageId_foldl_addPayload]
      rfl
    · rw [hadd, hfold, fragmentPayloads_of_ne hpayloads]
      rfl
  · obtain ⟨-, hadd⟩ := fragmentPayloads_addPayload hempty (keepsNext_fragment hkeeps)
    rw [fragmentOf, if_neg hnum] at hadd hkeeps ⊢
    exact ⟨messageId_addPayload _ _, hadd, hkeeps⟩

/-- A message with the given fragment of another one, but for what is encrypted. -/
def Sent (this : Message) (next : PayloadType) (num count : U16) (data : Chunk)
    (fragment : Message) : Prop :=
  fragment.messageId = this.messageId ∧
    ∃ encrypted, fragment.fragmentV2 = some { fragmentOf next num count data with encrypted }

variable {fragments : List Message} {draws : U16 → Draws}

/-- **What is sent**: the pieces of the contents, with their numbers. -/
theorem generateFragments_spec (hclear : ∀ p ∈ this.payloads, p.getType ≠ .fragment)
    (hnext : next ≠ .none) {aead : Aead}
    {count : U16} {fragLen : ℕ} {nums : List ℕ} {data : Chunk}
    (h : this.generateFragments order aead draws next count fragLen nums data =
      (.success, fragments)) :
    List.Forall₂ (fun piece fragment =>
        Sent this next (BitVec.ofNat 16 piece.1) count piece.2 fragment)
      (nums.zip (Pieces.cut fragLen nums.length data)) fragments := by
  induction nums generalizing data fragments with
  | nil =>
    obtain rfl := (Prod.mk.inj h).2
    exact .nil
  | cons num nums ih =>
    unfold generateFragments at h
    dsimp only at h
    rw [Nat.min_comm, ← List.take_eq_take_min, ← List.drop_eq_drop_min] at h
    split at h
    · rename_i fragment hgenerate
      obtain ⟨hid, hcreate⟩ := hasFragment_createFragment hclear hnext (BitVec.ofNat 16 num) count
        (data.take fragLen)
      obtain ⟨hid', encrypted, hgenerated⟩ := hasFragment_generate hcreate hgenerate
      obtain ⟨hstatus, hfragments⟩ := Prod.mk.inj h
      rw [if_pos hstatus] at hfragments
      subst hfragments
      exact .cons ⟨hid'.trans hid, encrypted, hgenerated.fragmentV2⟩ (ih (Prod.ext hstatus rfl))
    · cases h

/-- A received message with the contents of a fragment that is sent. -/
def Carries (fragment message : Message) : Prop :=
  message.messageId = fragment.messageId ∧
    ∃ sent received, fragment.fragmentV2 = some sent ∧ message.fragmentV2 = some received ∧
      received.fragmentNumber = sent.fragmentNumber ∧
      received.totalFragments = sent.totalFragments ∧ received.plain = sent.plain ∧
      (sent.fragmentNumber = 1 → received.nextPayload = sent.nextPayload)

/-- All fragments are among the received messages. -/
def AllCarried (fragments messages : List Message) : Prop :=
  ∀ fragment ∈ fragments, ∃ message ∈ messages, Carries fragment message

/-- Fed all fragments in any order and any number of times, a message is put together with these
contents. More are needed until all were fed, and after that no more are taken. -/
def ReassembledFrom (fragments : List Message) (defrag : Message) (next : PayloadType)
    (data : Chunk) : Prop :=
  ∀ messages : List Message, (∀ message ∈ messages, ∃ fragment ∈ fragments,
      Carries fragment message) → AllCarried fragments messages →
    ∃ before message after, messages = before ++ message :: after ∧
      ¬ AllCarried fragments before ∧ AllCarried fragments (before ++ [message]) ∧
      defrag.statuses messages = List.replicate before.length .needMore ++
        .success :: List.replicate after.length .invalidState ∧
      (defrag.feed messages).payloads.getLast? = some (.encrypted ⟨next, 0, data, true⟩)

section Numbered

variable {contents : List Chunk} {next : PayloadType} {fragments : List Message}

def SentAll (this : Message) (next : PayloadType) (contents : List Chunk)
    (fragments : List Message) : Prop :=
  fragments.length = contents.length ∧ ∀ k fragment, fragments[k]? = some fragment →
    Sent this next (BitVec.ofNat 16 (k + 1)) (BitVec.ofNat 16 contents.length)
      (contents.getD k []) fragment

theorem SentAll.carries_iff (h : SentAll this next contents fragments)
    (hlength : contents.length ≤ maxFragments) {k : ℕ} {fragment : Message}
    (hk : fragments[k]? = some fragment) (message : Message) :
    Carries fragment message ↔ CarriesPiece this.messageId contents next k message := by
  obtain ⟨hid, encrypted, hsent⟩ := h.2 k fragment hk
  have hlt : k < contents.length := h.1 ▸ (List.getElem?_eq_some_iff.mp hk).1
  unfold maxFragments at hlength
  have hnum : (BitVec.ofNat 16 (k + 1)).toNat = k + 1 := by
    rw [BitVec.toNat_ofNat, Nat.mod_eq_of_lt (by omega)]
  have hcount : (BitVec.ofNat 16 contents.length).toNat = contents.length := by
    rw [BitVec.toNat_ofNat, Nat.mod_eq_of_lt (by omega)]
  have hone : BitVec.ofNat 16 (k + 1) = 1 ↔ k = 0 := by
    rw [← BitVec.toNat_inj, hnum]
    simp
  unfold Carries CarriesPiece
  rw [hid, hsent]
  refine and_congr_right fun _ => ⟨?_, ?_⟩
  · rintro ⟨sent, received, heq, hreceived, hnumber, htotal, hplain, hnext⟩
    obtain rfl := Option.some.inj heq
    refine ⟨received, hreceived, ?_, ?_, hplain, fun hzero => ?_⟩
    · rw [hnumber]
      exact hnum
    · rw [htotal]
      exact hcount
    · rw [hnext (hone.mpr hzero)]
      exact if_pos (hone.mpr hzero)
  · rintro ⟨received, hreceived, hnumber, htotal, hplain, hnext⟩
    refine ⟨_, received, rfl, hreceived, ?_, ?_, hplain, fun hfirst => ?_⟩
    · exact BitVec.eq_of_toNat_eq (hnumber.trans hnum.symm)
    · exact BitVec.eq_of_toNat_eq (htotal.trans hcount.symm)
    · rw [hnext (hone.mp hfirst)]
      exact (if_pos hfirst).symm

def indexOf (message : Message) : ℕ :=
  (message.fragmentV2.map fun payload => payload.fragmentNumber.toNat - 1).getD 0

theorem CarriesPiece.indexOf_eq {mid : U32} {k : ℕ} {message : Message}
    (h : CarriesPiece mid contents next k message) : indexOf message = k := by
  obtain ⟨-, payload, hpayload, hnumber, -⟩ := h
  rw [indexOf, hpayload]
  exact Nat.sub_eq_of_eq_add hnumber

theorem SentAll.allCarried_iff (h : SentAll this next contents fragments)
    (hlength : contents.length ≤ maxFragments) {messages : List Message}
    (hmessages : ∀ message ∈ messages, ∃ fragment ∈ fragments, Carries fragment message) :
    AllCarried fragments messages ↔ ∀ k < contents.length, k ∈ messages.map indexOf := by
  constructor
  · intro hall k hk
    have hk' := List.getElem?_eq_getElem (l := fragments) (h.1 ▸ hk : k < fragments.length)
    obtain ⟨message, hmessage, hcarries⟩ := hall _ (List.mem_of_getElem? hk')
    have hpiece := (h.carries_iff hlength hk' message).mp hcarries
    exact List.mem_map.mpr ⟨message, hmessage, hpiece.indexOf_eq⟩
  · intro hall fragment hfragment
    obtain ⟨k, hk⟩ := List.getElem?_of_mem hfragment
    have hlt : k < contents.length := h.1 ▸ (List.getElem?_eq_some_iff.mp hk).1
    obtain ⟨message, hmessage, hindex⟩ := List.mem_map.mp (hall k hlt)
    obtain ⟨fragment', hfragment', hcarries⟩ := hmessages message hmessage
    obtain ⟨k', hk'⟩ := List.getElem?_of_mem hfragment'
    have hpiece := (h.carries_iff hlength hk' message).mp hcarries
    obtain rfl : k' = k := hpiece.indexOf_eq.symm.trans hindex
    obtain rfl := Option.some.inj (hk.symm.trans hk')
    exact ⟨message, hmessage, hcarries⟩

/-- **Fragments that are sent with some contents are put together with them.** -/
theorem SentAll.reassembledFrom (h : SentAll this next contents fragments)
    (hlength : contents.length ≤ maxFragments) {defrag : Message} {data : Chunk}
    (hreassembled : Reassembled this.messageId contents next defrag data) :
    ReassembledFrom fragments defrag next data := by
  intro messages hmessages hall
  let fed := messages.map fun message => (indexOf message, message)
  have hfst : ∀ messages : List Message,
      (messages.map fun message => (indexOf message, message)).map Prod.fst =
        messages.map indexOf := fun messages => by simp
  have hsnd : fed.map Prod.snd = messages := by simp [fed, Function.comp_def]
  have hfed : ∀ p ∈ fed, p.1 < contents.length ∧
      CarriesPiece this.messageId contents next p.1 p.2 := by
    intro p hp
    obtain ⟨message, hmessage, rfl⟩ := List.mem_map.mp hp
    obtain ⟨fragment, hfragment, hcarries⟩ := hmessages message hmessage
    obtain ⟨k, hk⟩ := List.getElem?_of_mem hfragment
    have hpiece := (h.carries_iff hlength hk message).mp hcarries
    dsimp only
    rw [hpiece.indexOf_eq]
    exact ⟨h.1 ▸ (List.getElem?_eq_some_iff.mp hk).1, hpiece⟩
  have hcomplete := (h.allCarried_iff hlength hmessages).mp hall
  rw [← hfst] at hcomplete
  obtain ⟨before, p, after, heq, hmore, hcomplete', hstatuses, hlast⟩ :=
    hreassembled fed hfed hcomplete
  have hsplit : messages = before.map Prod.snd ++ p.2 :: after.map Prod.snd := by
    rw [← hsnd, heq, List.map_append, List.map_cons]
  -- the numbers that were fed are those of the messages
  have hindex : ∀ q ∈ fed, q.1 = indexOf q.2 := by
    intro q hq
    obtain ⟨message, -, rfl⟩ := List.mem_map.mp hq
    rfl
  have hiff : ∀ part : List (ℕ × Message), part ⊆ fed →
      (AllCarried fragments (part.map Prod.snd) ↔
        ∀ k < contents.length, k ∈ part.map Prod.fst) := by
    intro part hpart
    rw [h.allCarried_iff hlength fun message hmessage => ?_, List.map_map]
    · have hmap : part.map Prod.fst = part.map (indexOf ∘ Prod.snd) :=
        List.map_congr_left fun q hq => hindex q (hpart hq)
      rw [hmap]
    · obtain ⟨q, hq, rfl⟩ := List.mem_map.mp hmessage
      exact hmessages _ (hsnd ▸ List.mem_map_of_mem (hpart hq))
  refine ⟨_, _, _, hsplit, ?_, ?_, ?_, ?_⟩
  · rwa [hiff before fun q hq => heq ▸ List.mem_append_left _ hq]
  · have hpart := hiff (before ++ [p]) fun q hq => by
      rw [heq, List.append_cons]
      exact List.mem_append_left _ hq
    rw [List.map_append, List.map_singleton] at hpart
    exact hpart.mpr hcomplete'
  · rwa [hsnd, List.length_map, List.length_map] at *
  · rwa [hsnd] at hlast

end Numbered

/-! ## Fragmenting a message -/

/-- The payloads that are split. -/
def encryptedPayloads (this : Message) (order : List PayloadOrder) (aead : Aead)
    (encoded : Option (List Payload)) : List Payload :=
  if this.packet.data ≠ [] then encoded.getD []
  else ((this.generateMessage order (some aead)).2.2.map Wrapped.content).getD []

def contentLength (this : Message) (aead : Aead) (fragLen : ℕ) : ℕ :=
  match this.packet.source, this.packet.destination with
  | some source, some destination => fragmentLength aead (messageLength source destination fragLen)
  | _, _ => 0

theorem reduceFragLen_pos (fragLen amount : ℕ) : 0 < reduceFragLen fragLen amount := by
  unfold reduceFragLen
  omega

theorem type_ne_wrapPayloads (this : Message) {rule : MessageRule} (hrule : rule ∈ messageRules)
    (hencrypted : rule.encrypted = true) :
    ∀ p ∈ (this.wrapPayloads rule).1.payloads, p.getType ≠ .fragment := by
  unfold wrapPayloads
  cases (this.payloads.filterMap Payload.asFragment).getLast? with
  | some payload =>
    intro p hp
    simpa using (List.mem_filter.mp hp).2
  | none =>
    have hall : ∀ p : Payload, (rule.getPayloadRule p.getType).all PayloadRule.encrypted = true := by
      intro p
      cases hfind : rule.getPayloadRule p.getType with
      | none => rfl
      | some payloadRule =>
        exact encrypted_of_rule rule hrule hencrypted payloadRule (List.mem_of_find?_eq_some hfind)
    have hclear : this.payloads.filter (fun p =>
        !(rule.getPayloadRule p.getType).all PayloadRule.encrypted) = [] :=
      List.filter_eq_nil_iff.mpr fun p _ => by simp [hall p]
    dsimp only
    rw [hclear]
    exact fun p hp => nomatch hp

theorem messageId_wrapPayloads (this : Message) (rule : MessageRule) :
    (this.wrapPayloads rule).1.messageId = this.messageId := by
  unfold wrapPayloads
  split
  · rfl
  · exact messageId_foldl_addPayload _ _

/-- **What is generated** has no fragments in clear, if it is encrypted. -/
theorem generateMessage_wrapped {aead : Option Aead}
    {generated : Message} {wrapped : Wrapped}
    (h : this.generateMessage order aead = (.success, generated, some wrapped)) :
    generated.messageId = this.messageId ∧
      ∀ p ∈ generated.payloads, p.getType ≠ .fragment := by
  unfold generateMessage at h
  split_ifs at h
  · cases h
  · cases h
  · cases hrule : this.getMessageRule with
    | none => simp [hrule] at h
    | some rule =>
      rw [hrule] at h
      dsimp only at h
      split_ifs at h with hencrypted
      · obtain ⟨rfl, -⟩ := Prod.mk.inj (Prod.mk.inj h).2
        have hmem : rule ∈ messageRules := List.mem_of_find?_eq_some hrule
        refine ⟨?_, type_ne_wrapPayloads _ hmem hencrypted.1⟩
        rw [messageId_wrapPayloads, messageId_orderPayloads]
      · simp at h

theorem split_of_map {split : Option (Status × List Message)}
    (h : split.map (fun (status, fragments) => (status, true, fragments)) =
      some (Status.success, true, fragments)) : split = some (.success, fragments) := by
  obtain ⟨⟨status, fragments'⟩, hsplit, heq⟩ := Option.map_eq_some_iff.mp h
  cases heq
  exact hsplit

/-- **A message is fragmented** by splitting its payloads, without its fragments. -/
theorem fragment_eq_split {aead : Aead}
    {encoded : Option (List Payload)} {fragLen : ℕ}
    (h : this.fragment order (some aead) draws encoded fragLen = some (.success, true, fragments))
    (hencoded : this.packet.data ≠ [] → ∀ p ∈ this.payloads, p.getType ≠ .fragment) :
    0 < this.contentLength aead fragLen ∧ ∃ generated : Message,
      generated.messageId = this.messageId ∧
      (∀ p ∈ generated.payloads, p.getType ≠ .fragment) ∧
      generated.split order aead draws (this.encryptedPayloads order aead encoded)
        (this.contentLength aead fragLen) = some (.success, fragments) := by
  unfold fragment at h
  unfold contentLength encryptedPayloads
  cases hsource : this.packet.source with
  | none => simp [hsource] at h
  | some source =>
    cases hdestination : this.packet.destination with
    | none => simp [hsource, hdestination] at h
    | some destination =>
      rw [hsource, hdestination] at h
      dsimp only at h ⊢
      refine ⟨reduceFragLen_pos _ _, ?_⟩
      by_cases hdata : this.packet.data ≠ []
      · simp only [if_pos hdata] at h ⊢
        cases encoded with
        | none => simp at h
        | some content =>
          simp only [Option.map_some] at h
          split_ifs at h
          · simp at h
          · exact ⟨this, rfl, hencoded hdata, split_of_map h⟩
      · simp only [if_neg hdata] at h ⊢
        split at h
        · rename_i generated wrapped hgenerated
          cases wrapped with
          | none => simp at h
          | some wrapped =>
            obtain ⟨hid, hclear⟩ := generateMessage_wrapped hgenerated
            dsimp only at h
            split_ifs at h
            · simp at h
            · rw [hgenerated]
              exact ⟨generated, hid, hclear, split_of_map h⟩
        · simp at h

theorem getType_ne_none (payload : Payload) : payload.getType ≠ .none := by
  cases payload with
  | plain type nextPayload flags body =>
    unfold Payload.getType
    dsimp only
    split_ifs with hknown
    · rintro rfl
      cases hknown
    · exact fun h => nomatch h
  | _ => exact fun h => nomatch h

theorem firstType_ne_none (h : payloads ≠ []) :
    firstType .none payloads ≠ .none := by
  obtain ⟨payload, payloads, rfl⟩ := List.exists_cons_of_ne_nil h
  exact getType_ne_none payload

/-- The number of fragments that are sent: it is truncated. -/
def numFragments (data : Chunk) (fragLen : ℕ) : ℕ := countFragments data.length fragLen % 65536

/-- **A split message** is sent in pieces of its contents, as many as the truncated number says. -/
theorem split_sentAll (hclear : ∀ p ∈ this.payloads, p.getType ≠ .fragment)
    {aead : Aead} {content : List Payload}
    {fragLen : ℕ}
    (h : this.split order aead draws content fragLen = some (.success, fragments)) :
    SentAll this (firstType .none content)
      (Pieces.cut fragLen (numFragments (generateContent content) fragLen) (generateContent content))
      fragments := by
  unfold split at h
  dsimp only at h
  split_ifs at h
  split at h
  · rename_i fragments' hfragments
    cases h
    rw [BitVec.toNat_ofNat] at hfragments
    change this.generateFragments order aead draws _ _ _
      (List.range' 1 (numFragments (generateContent content) fragLen)) _ = _ at hfragments
    by_cases hcontent : content = []
    · subst hcontent
      have hzero : numFragments (generateContent []) fragLen = 0 := by
        simp [numFragments, generateContent, relinkTo, countFragments]
      rw [hzero] at hfragments ⊢
      obtain rfl := (Prod.mk.inj hfragments).2
      exact ⟨rfl, fun k fragment hk => by simp at hk⟩
    · have hspec := generateFragments_spec hclear (firstType_ne_none hcontent) hfragments
      rw [List.length_range'] at hspec
      have hlength := hspec.length_eq
      rw [List.length_zip, List.length_range', Pieces.length_cut, Nat.min_self] at hlength
      refine ⟨by rw [← hlength, Pieces.length_cut], fun k fragment hk => ?_⟩
      obtain ⟨hlt, rfl⟩ := List.getElem?_eq_some_iff.mp hk
      have hpiece := hspec.get (by simpa [hlength] using hlt) hlt
      have hcount : BitVec.ofNat 16 (numFragments (generateContent content) fragLen) =
          BitVec.ofNat 16 (countFragments (generateContent content).length fragLen) := by
        apply BitVec.eq_of_toNat_eq
        rw [BitVec.toNat_ofNat, BitVec.toNat_ofNat, numFragments, Nat.mod_mod]
      rw [Pieces.length_cut, hcount,
        ← List.getElem_eq_getD (h := by simpa [hlength] using hlt)]
      simpa [Nat.add_comm 1] using hpiece
  · cases h

theorem lt_countFragments {len fragLen n : ℕ} (hpos : 0 < fragLen) :
    n < countFragments len fragLen ↔ n * fragLen < len := by
  unfold countFragments
  split_ifs with hmod
  · rw [Nat.lt_succ_iff, Nat.le_div_iff_mul_le hpos]
    refine ⟨fun hle => lt_of_le_of_ne hle ?_, le_of_lt⟩
    rintro rfl
    exact hmod (Nat.mul_mod_left n fragLen)
  · rw [not_not] at hmod
    have hsplit := Nat.div_mul_cancel (Nat.dvd_of_mod_eq_zero hmod)
    rw [add_zero]
    conv_rhs => rw [← hsplit]
    exact (Nat.mul_lt_mul_right hpos).symm

/-- The length of the contents of a fragment. -/
def plainLength (fragment : Message) : ℕ :=
  (fragment.fragmentV2.map fun payload => payload.plain.length).getD 0

theorem SentAll.sum_length {contents : List Chunk}
    (h : SentAll this next contents fragments) :
    (contents.map List.length).sum = (fragments.map plainLength).sum := by
  congr 1
  refine List.ext_getElem (by simp [h.1]) fun k hk hk' => ?_
  rw [List.length_map] at hk hk'
  obtain ⟨-, encrypted, hsent⟩ := h.2 k _ (List.getElem?_eq_getElem hk')
  rw [List.getElem_map, List.getElem_map, plainLength, hsent, Option.map_some, Option.getD_some,
    List.getElem_eq_getD []]
  rfl

theorem SentAll.carries_self {contents : List Chunk}
    (h : SentAll this next contents fragments) : ∀ fragment ∈ fragments, Carries fragment fragment := by
  intro fragment hfragment
  obtain ⟨k, hk⟩ := List.getElem?_of_mem hfragment
  obtain ⟨-, encrypted, hsent⟩ := h.2 k fragment hk
  exact ⟨rfl, _, _, hsent, hsent, rfl, rfl, rfl, fun _ => rfl⟩

theorem ReassembledFrom.unique {defrag : Message}
    {data data' : Chunk} (hself : ∀ fragment ∈ fragments, Carries fragment fragment)
    (h : ReassembledFrom fragments defrag next data)
    (h' : ReassembledFrom fragments defrag next data') : data = data' := by
  have hmessages : ∀ message ∈ fragments, ∃ fragment ∈ fragments, Carries fragment message :=
    fun message hmessage => ⟨message, hmessage, hself message hmessage⟩
  have hall : AllCarried fragments fragments :=
    fun fragment hfragment => ⟨fragment, hfragment, hself fragment hfragment⟩
  obtain ⟨_, _, _, -, -, -, -, hlast⟩ := h fragments hmessages hall
  obtain ⟨_, _, _, -, -, -, -, hlast'⟩ := h' fragments hmessages hall
  rw [hlast] at hlast'
  cases hlast'
  rfl

theorem not_reassembledFrom_nil {defrag : Message} {data : Chunk} :
    ¬ ReassembledFrom [] defrag next data := by
  intro h
  obtain ⟨before, message, after, heq, -⟩ := h [] (fun message hmessage => nomatch hmessage)
    (fun fragment hfragment => nomatch hfragment)
  simp at heq

theorem messageId_createDefrag {first defrag : Message} {maxPacket : ℕ}
    (h : first.createDefrag maxPacket = some defrag)
    (hversion : first.majorVersion ≠ ikev1MajorVersion) : defrag.messageId = first.messageId := by
  unfold createDefrag at h
  split_ifs at h
  obtain rfl := Option.some.inj h
  rfl

/-- **Fragments are put together to what was split, in any order and with any duplicates**, if there is
something to split that needs fewer fragments than can be counted. -/
theorem fragment_reassembled {this first defrag : Message} {order : List PayloadOrder} {aead : Aead}
    {draws : U16 → Draws} {encoded : Option (List Payload)} {fragLen maxPacket : ℕ}
    {fragments : List Message}
    (hfragment : this.fragment order (some aead) draws encoded fragLen =
      some (.success, true, fragments))
    (hencoded : this.packet.data ≠ [] → ∀ p ∈ this.payloads, p.getType ≠ .fragment)
    (hn : fragments.length ≤ maxFragments)
    (hsize : (fragments.map plainLength).sum ≤ maxPacket)
    (hdefrag : first.createDefrag maxPacket = some defrag)
    (hversion : first.majorVersion ≠ ikev1MajorVersion)
    (hid : first.messageId = this.messageId) :
    ReassembledFrom fragments defrag
        (firstType .none (this.encryptedPayloads order aead encoded))
        (generateContent (this.encryptedPayloads order aead encoded)) ↔
      generateContent (this.encryptedPayloads order aead encoded) ≠ [] ∧
        countFragments (generateContent (this.encryptedPayloads order aead encoded)).length
          (this.contentLength aead fragLen) < 65536 := by
  obtain ⟨hpos, generated, hgenerated, hclear, hsplit⟩ := fragment_eq_split hfragment hencoded
  have hsent := split_sentAll hclear hsplit
  have hsum := hsent.sum_length
  have hself := hsent.carries_self
  generalize this.encryptedPayloads order aead encoded = content at hsplit hsent hsum ⊢
  generalize this.contentLength aead fragLen = len at hpos hsplit hsent hsum ⊢
  generalize generateContent content = data at hsent hsum ⊢
  have hlength : (Pieces.cut len (numFragments data len) data).length ≤ maxFragments :=
    hsent.1 ▸ hn
  have hdefragId : defrag.messageId = generated.messageId := by
    rw [hgenerated, ← hid, messageId_createDefrag hdefrag hversion]
  -- what is sent is put together, which may be less than the contents
  have hsome : numFragments data len ≠ 0 → ReassembledFrom fragments defrag (firstType .none content)
      (data.take (numFragments data len * len)) := by
    intro hne
    rw [← Pieces.flatten_cut]
    refine hsent.reassembledFrom hlength (reassembled_contents hlength
      (resetDefrag_create hdefrag).1 hdefragId (hsum.trans_le hsize) fun hnil => hne ?_)
    rw [← Pieces.length_cut len (numFragments data len) data, hnil, List.length_nil]
  have htake : data.take (numFragments data len * len) = data ↔
      countFragments data.length len ≤ numFragments data len := by
    rw [List.take_eq_self_iff, ← not_lt, ← not_lt, lt_countFragments hpos]
  constructor
  · intro h
    have hne : numFragments data len ≠ 0 := by
      intro hzero
      rw [hzero] at hsent
      rw [List.length_eq_zero_iff.mp hsent.1] at h
      exact not_reassembledFrom_nil h
    have hle := htake.mp ((hsome hne).unique hself h)
    have hlt : numFragments data len < 65536 := Nat.mod_lt _ (by omega)
    refine ⟨?_, by omega⟩
    rintro rfl
    exact hne (by simp [numFragments, countFragments])
  · rintro ⟨hdata, hlt⟩
    have hcount : numFragments data len = countFragments data.length len := Nat.mod_eq_of_lt hlt
    have hne : numFragments data len ≠ 0 := by
      have hzero : 0 < countFragments data.length len :=
        (lt_countFragments hpos).mpr (by simpa using List.length_pos_iff.mpr hdata)
      omega
    have h := hsome hne
    rwa [htake.mpr hcount.ge] at h

/-- Bytes of zero are drawn. -/
def exampleDraws : Draws := Wrapped.zeroDraws

/-- An INFORMATIONAL request with some payloads, to be sent to an address in 10.0.0.0/24. -/
def exampleRequest (payloads : List Payload) : Message :=
  { messageCreateFromPacket ⟨some ⟨.inet, [10, 0, 0, 1], 500, rfl⟩,
      some ⟨.inet, [10, 0, 0, 2], 500, rfl⟩, []⟩ with
    majorVersion := ikev2MajorVersion, exchangeType := .informational, payloads, messageId := 3 }

/-- A fragment that is received first. -/
def exampleFirst : Message :=
  exampleRequest [.fragment ⟨.notify, 0, 1, 4, [], [0, 0]⟩]

/-- A notify of seven bytes is put together from four fragments. -/
theorem fragment_reassembled_notify :
    ∃ fragments defrag, (exampleRequest [.plain .notify .none 0 [0, 0, 0x40]]).fragment []
        (some plainAead) (fun _ => exampleDraws) none 67 = some (.success, true, fragments) ∧
      fragments.length = 4 ∧ exampleFirst.createDefrag 100 = some defrag ∧
      ReassembledFrom fragments defrag .notify [0, 0, 0, 7, 0, 0, 0x40] := by
  have hresult : ((exampleRequest [.plain .notify .none 0 [0, 0, 0x40]]).fragment [] (some plainAead)
      (fun _ => exampleDraws) none 67).map (fun result =>
        (result.1, result.2.1, result.2.2.length, (result.2.2.map plainLength).sum)) =
      some (.success, true, 4, 7) := by
    decide
  obtain ⟨⟨status, fragmented, fragments⟩, hfragment, heq⟩ := Option.map_eq_some_iff.mp hresult
  obtain ⟨rfl, rfl, hlength, hsum⟩ : status = .success ∧ fragmented = true ∧
      fragments.length = 4 ∧ (fragments.map plainLength).sum = 7 := by simpa using heq
  have hdefrag : exampleFirst.createDefrag 100 = some _ := rfl
  refine ⟨fragments, _, hfragment, hlength, hdefrag, ?_⟩
  exact (fragment_reassembled hfragment (fun h => absurd rfl h) (by unfold maxFragments; omega)
    (by omega) hdefrag (by decide) rfl).mpr (by decide)

/-- A request without payloads is split into no fragments, if its header is too long already. -/
theorem not_fragment_reassembled :
    ∃ fragments defrag, (exampleRequest []).fragment [] (some plainAead) (fun _ => exampleDraws) none
        50 = some (.success, true, fragments) ∧
      fragments.length ≤ maxFragments ∧ (fragments.map plainLength).sum ≤ 100 ∧
      exampleFirst.createDefrag 100 = some defrag ∧
      ¬ ReassembledFrom fragments defrag
        (firstType .none ((exampleRequest []).encryptedPayloads [] plainAead none))
        (generateContent ((exampleRequest []).encryptedPayloads [] plainAead none)) :=
  ⟨[], _, by decide, by decide, by decide, rfl, not_reassembledFrom_nil⟩

end Message

end StrongSwan
