import StrongSwan.Encoding.Message
import StrongSwan.Lib.Pieces

/-!
# Putting fragments together

A message made by `createDefrag` takes fragments until it has them all.

* `addFragment`: store the data of one, at its place.
* `addFragmentV1`, `addFragmentV2`: fragments of IKEv1 and of IKEv2.
* **`addFragment_spec`**: what storing a fragment does to a well-formed collection.
-/

namespace StrongSwan

/-- The number of a stored fragment. -/
def Fragment.number (this : Fragment) : ℕ := this.num.toNat

namespace Message

/-- The data of fragments, together. -/
def contents (fragments : List Fragment) : Chunk := fragments.flatMap (·.data)

def resetDefrag (this : Message) (frag : FragmentData) : Message :=
  { this with fragments := none, frag := some { frag with last := 0, len := 0 } }

def addFragment (this : Message) (frag : FragmentData) (fragments : List Fragment) (num : U16)
    (data : Chunk) : Status × Message :=
  match Pieces.insertNew Fragment.number num.toNat ⟨num.setWidth 8, data⟩ fragments with
  -- ignore a duplicate fragment
  | none => (.needMore, { this with fragments := some fragments, frag := some frag })
  | some inserted =>
    let len := frag.len + data.length
    if len > frag.maxPacket then (.failed, this.resetDefrag frag)
    else (.success, { this with fragments := some inserted, frag := some { frag with len := len } })

/-- Merge the cached fragment data and reset the defragmentation state. Also updates the IP addresses
to those of the last received fragment. -/
def mergeFragments (this last : Message) : Chunk × Message :=
  (contents (this.fragments.getD []), { this with
    packet.source := last.packet.source
    packet.destination := last.packet.destination
    fragments := none
    frag := none })

/-! ## IKEv1 -/

/-- The fragment in a message of IKEv1. -/
def fragmentV1 (this : Message) : Option FragmentPayload :=
  match this.getPayload .fragmentV1 with
  | some (.fragmentV1 payload) => some payload
  | _ => none

/-- Is there no fragment with the ID of this one? -/
def startsV1 (this : Message) (payload : FragmentPayload) : Bool :=
  this.fragments.isNone || this.messageId ≠ payload.fragmentId.setWidth 32

/-- The collection that a fragment is added to, which begins with it or not. -/
def beginV1 (this : Message) (frag : FragmentData) (payload : FragmentPayload) :
    FragmentData × List Fragment :=
  if this.startsV1 payload then ({ frag with last := 0, len := 0 }, [])
  else (frag, this.fragments.getD [])

def noteLast (frag : FragmentData) (payload : FragmentPayload) : FragmentData :=
  if frag.last = 0 ∧ payload.isLast then
    { frag with last := payload.fragmentNumber.setWidth 16 }
  else frag

/-- `add_fragment_v1`, as far as the fragment is stored. -/
def storeV1 (this : Message) (frag : FragmentData) (payload : FragmentPayload) : Status × Message :=
  let (begun, fragments) := this.beginV1 frag payload
  { this with messageId := payload.fragmentId.setWidth 32 }.addFragment (noteLast begun payload)
    fragments (payload.fragmentNumber.setWidth 16) payload.data

/-- The message whose fragments are all there. -/
def completeV1 (this last : Message) : Status × Message :=
  let (data, this) := this.mergeFragments last
  match { this with packet.data := data, parser := some data }.parseHeader with
  | (.success, this) => (.success, this)
  | (_, this) => (.failed, this)

/-- Are there as many fragments as the last one has for its number? -/
def isCompleteV1 (this : Message) : Bool :=
  this.frag.any fun frag => (this.fragments.getD []).length = frag.last.toNat

def addFragmentV1 (this message : Message) : Status × Message :=
  match this.frag, message.fragmentV1 with
  | none, _ => (.invalidState, this)
  | some _, none => (.invalidArg, this)
  | some frag, some payload =>
    match this.storeV1 frag payload with
    | (.success, stored) =>
      if stored.isCompleteV1 then stored.completeV1 message else (.needMore, stored)
    | (status, stored) => (status, stored)

/-! ## IKEv2 -/

/-- The fragment in a message of IKEv2. -/
def fragmentV2 (this : Message) : Option EncryptedFragmentPayload :=
  match this.getPayload .fragment with
  | some (.fragment payload) => some payload
  | _ => none

/-- Is there no fragment, or does this one say there are more in total? -/
def startsV2 (this : Message) (frag : FragmentData) (payload : EncryptedFragmentPayload) : Bool :=
  this.fragments.isNone || payload.totalFragments > frag.last

def beginV2 (this : Message) (frag : FragmentData) (payload : EncryptedFragmentPayload) :
    FragmentData × List Fragment :=
  if this.startsV2 frag payload then ({ frag with last := payload.totalFragments, len := 0 }, [])
  else (frag, this.fragments.getD [])

/-- The first fragment denotes the type of the first payload in the original encrypted payload, and
all unencrypted payloads are in it. -/
def withFirst (this message : Message) (payload : EncryptedFragmentPayload) : Message :=
  if payload.fragmentNumber = 1 then { this with
    firstPayload := payload.nextPayload
    payloads := this.payloads ++ message.payloads.filter (·.getType ≠ .fragment) }
  else this

/-- `add_fragment_v2`, as far as the fragment is stored. -/
def storeV2 (this message : Message) (frag : FragmentData) (payload : EncryptedFragmentPayload) :
    Status × Message :=
  let (begun, fragments) := this.beginV2 frag payload
  match this.addFragment begun fragments payload.fragmentNumber payload.plain with
  | (.success, this) => (.success, this.withFirst message payload)
  | (status, this) => (status, this)

/-- The message whose fragments are all there. -/
def completeV2 (this last : Message) : Message :=
  let (data, this) := this.mergeFragments last
  let payloads := this.payloads ++ [.encrypted ⟨this.firstPayload, 0, data, true⟩]
  { this with payloads, firstPayload := ((payloads.head?).map Payload.getType).getD .none }

def addFragmentV2 (this message : Message) : Status × Message :=
  match this.frag, message.fragmentV2 with
  | none, _ => (.invalidState, this)
  | some _, none => (.invalidArg, this)
  | some frag, some payload =>
    if this.messageId ≠ message.messageId then (.invalidArg, this)
    else if payload.totalFragments.toNat > maxFragments then (.failed, this.resetDefrag frag)
    else
      match this.storeV2 message frag payload with
      | (.success, stored) =>
        if (stored.fragments.getD []).length = payload.totalFragments.toNat then
          (.success, stored.completeV2 message)
        else (.needMore, stored)
      | (status, stored) => (status, stored)

def feed (this : Message) (messages : List Message) : Message :=
  messages.foldl (fun this message => (this.addFragmentV2 message).2) this

/-! ## The collection -/

theorem resetDefrag_create {maxPacket : ℕ} {first this : Message}
    (hcreate : first.createDefrag maxPacket = some this) :
    this.resetDefrag ⟨0, 0, maxPacket⟩ = this ∧ this.parser = none := by
  unfold createDefrag at hcreate
  split_ifs at hcreate <;>
  · obtain rfl := Option.some.inj hcreate
    exact ⟨rfl, rfl⟩

/-- The fragments are in order, and their tracked length is what they have. -/
structure Collected (frag : FragmentData) (fragments : List Fragment) : Prop where
  numbered : Pieces.Numbered Fragment.number fragments
  len : frag.len = (fragments.map (·.data.length)).sum
  len_le : frag.len ≤ frag.maxPacket

theorem collected_nil (frag : FragmentData) {last : U16} :
    Collected { frag with last := last, len := 0 } [] :=
  ⟨List.Pairwise.nil, rfl, Nat.zero_le _⟩

theorem Collected.last {frag : FragmentData} {fragments : List Fragment}
    (h : Collected frag fragments) (last : U16) : Collected { frag with last := last } fragments :=
  ⟨h.numbered, h.len, h.len_le⟩

variable {this : Message} {frag : FragmentData} {fragments : List Fragment} {num : U16}
  {data : Chunk}

variable (this data) in
/-- **What storing a fragment does**: nothing if its number is there, and otherwise it is stored,
unless there is too much. -/
theorem addFragment_spec (h : Collected frag fragments) (hnum : num.toNat < 256) :
    (this.addFragment frag fragments num data =
        (.needMore, { this with fragments := some fragments, frag := some frag }) ∧
      ∃ f ∈ fragments, f.number = num.toNat) ∨
    (((∀ f ∈ fragments, f.number ≠ num.toNat) ∧ frag.maxPacket < frag.len + data.length) ∧
      this.addFragment frag fragments num data = (.failed, this.resetDefrag frag)) ∨
    ∃ inserted, (∀ f ∈ fragments, f.number ≠ num.toNat) ∧
      this.addFragment frag fragments num data = (.success, { this with
        fragments := some inserted
        frag := some { frag with len := frag.len + data.length } }) ∧
      Collected { frag with len := frag.len + data.length } inserted ∧
      inserted.Perm (⟨num.setWidth 8, data⟩ :: fragments) := by
  have hnumber : Fragment.number ⟨num.setWidth 8, data⟩ = num.toNat := by
    rw [Fragment.number, BitVec.toNat_setWidth, Nat.mod_eq_of_lt hnum]
  unfold addFragment
  obtain ⟨hnone, hmem⟩ | ⟨inserted, hsome, hnew, hnumbered, hperm⟩ :=
    Pieces.insertNew_spec h.numbered hnumber
  · rw [hnone]
    exact .inl ⟨rfl, hmem⟩
  · rw [hsome]
    simp only
    split_ifs with hlen
    · exact .inr (.inl ⟨⟨hnew, hlen⟩, rfl⟩)
    · refine .inr (.inr ⟨inserted, hnew, rfl, ⟨hnumbered, ?_, not_lt.mp hlen⟩, hperm⟩)
      rw [(hperm.map _).sum_eq, List.map_cons, List.sum_cons, ← h.len, Nat.add_comm]

theorem collected_beginV1 (h : Collected frag (this.fragments.getD [])) (payload : FragmentPayload) :
    Collected (noteLast (this.beginV1 frag payload).1 payload) (this.beginV1 frag payload).2 := by
  have hbegin : Collected (this.beginV1 frag payload).1 (this.beginV1 frag payload).2 := by
    unfold beginV1
    split_ifs
    · exact collected_nil frag
    · exact h
  unfold noteLast
  split_ifs
  · exact hbegin.last _
  · exact hbegin

theorem collected_beginV2 (h : Collected frag (this.fragments.getD []))
    (payload : EncryptedFragmentPayload) :
    Collected (this.beginV2 frag payload).1 (this.beginV2 frag payload).2 := by
  unfold beginV2
  split_ifs
  · exact collected_nil frag
  · exact h

@[simp] theorem maxPacket_beginV2 (payload : EncryptedFragmentPayload) :
    (this.beginV2 frag payload).1.maxPacket = frag.maxPacket := by
  unfold beginV2
  split_ifs <;> rfl

/-- What `payload` makes of the collection is stored. -/
structure StoredV1 (this : Message) (frag : FragmentData) (payload : FragmentPayload)
    (frag' : FragmentData) (inserted : List Fragment) : Prop where
  store : this.storeV1 frag payload = (.success, { this with
    messageId := payload.fragmentId.setWidth 32, fragments := some inserted, frag := some frag' })
  last : frag'.last = (noteLast (this.beginV1 frag payload).1 payload).last
  collected : Collected frag' inserted
  perm : inserted.Perm (⟨payload.fragmentNumber, payload.data⟩ :: (this.beginV1 frag payload).2)

/-- **What a fragment of IKEv1 does to the collection.** -/
theorem storeV1_spec (h : Collected frag (this.fragments.getD [])) (payload : FragmentPayload) :
    (∃ f ∈ (this.beginV1 frag payload).2, f.number = payload.fragmentNumber.toNat ∧
      this.storeV1 frag payload = (.needMore, { this with
        messageId := payload.fragmentId.setWidth 32
        fragments := some (this.beginV1 frag payload).2
        frag := some (noteLast (this.beginV1 frag payload).1 payload) })) ∨
    (∃ frag', this.storeV1 frag payload = (.failed,
      { this with messageId := payload.fragmentId.setWidth 32 }.resetDefrag frag')) ∨
    ∃ frag' inserted, StoredV1 this frag payload frag' inserted := by
  have hnum : (payload.fragmentNumber.setWidth 16).toNat = payload.fragmentNumber.toNat := by
    rw [BitVec.toNat_setWidth]
    omega
  have hlt : (payload.fragmentNumber.setWidth 16).toNat < 256 := by omega
  have hsame : (payload.fragmentNumber.setWidth 16).setWidth 8 = payload.fragmentNumber :=
    BitVec.eq_of_toNat_eq (by rw [BitVec.toNat_setWidth, hnum]; omega)
  obtain ⟨heq, f, hf, hnumber⟩ | ⟨hnew, heq⟩ | ⟨inserted, hnew, heq, hinserted, hperm⟩ :=
    addFragment_spec { this with messageId := payload.fragmentId.setWidth 32 } payload.data
      (collected_beginV1 h payload) hlt
  · exact .inl ⟨f, hf, hnumber.trans hnum, heq⟩
  · exact .inr (.inl ⟨_, heq⟩)
  · rw [hsame] at hperm
    exact .inr (.inr ⟨_, inserted, heq, rfl, hinserted, hperm⟩)

theorem frag_completeV1 (this message : Message) : (this.completeV1 message).2.frag = none := by
  unfold completeV1
  have hfrag := frag_parseHeader { (this.mergeFragments message).2 with
    packet.data := (this.mergeFragments message).1, parser := some (this.mergeFragments message).1 }
  dsimp only
  split
  · rename_i heq
    rw [heq] at hfrag
    exact hfrag
  · rename_i heq
    rw [heq] at hfrag
    exact hfrag

theorem addFragmentV1_of_stored {message : Message} {payload : FragmentPayload}
    {frag' : FragmentData} {inserted : List Fragment} (hfrag : this.frag = some frag)
    (hpayload : message.fragmentV1 = some payload)
    (h : StoredV1 this frag payload frag' inserted) :
    this.addFragmentV1 message = if inserted.length = frag'.last.toNat then
      { this with
        messageId := payload.fragmentId.setWidth 32
        fragments := some inserted
        frag := some frag' }.completeV1 message
    else (.needMore, { this with
      messageId := payload.fragmentId.setWidth 32
      fragments := some inserted
      frag := some frag' }) := by
  unfold addFragmentV1
  simp only [hfrag, hpayload, h.store, isCompleteV1, Option.any_some, Option.getD_some,
    decide_eq_true_eq]

/-- **What a fragment of IKEv2 does to the collection**: a duplicate does nothing. -/
theorem storeV2_spec (message : Message) {payload : EncryptedFragmentPayload}
    (hfrag : this.frag = some frag) (h : Collected frag (this.fragments.getD []))
    (hnum : payload.fragmentNumber.toNat < 256) :
    (this.storeV2 message frag payload = (.needMore, this) ∧ this.startsV2 frag payload = false ∧
      ∃ f ∈ this.fragments.getD [], f.number = payload.fragmentNumber.toNat) ∨
    (this.storeV2 message frag payload = (.failed, this.resetDefrag frag) ∧
      (∀ f ∈ (this.beginV2 frag payload).2, f.number ≠ payload.fragmentNumber.toNat) ∧
      frag.maxPacket < (this.beginV2 frag payload).1.len + payload.plain.length) ∨
    ∃ frag' inserted, this.storeV2 message frag payload = (.success,
        { this with fragments := some inserted, frag := some frag' }.withFirst message payload) ∧
      (∀ f ∈ (this.beginV2 frag payload).2, f.number ≠ payload.fragmentNumber.toNat) ∧
      frag'.last = (this.beginV2 frag payload).1.last ∧ frag'.maxPacket = frag.maxPacket ∧
      Collected frag' inserted ∧
      inserted.Perm (⟨payload.fragmentNumber.setWidth 8, payload.plain⟩ ::
        (this.beginV2 frag payload).2) := by
  have hbegin := collected_beginV2 h payload
  unfold storeV2
  obtain ⟨heq, f, hf, hnumber⟩ | ⟨hnew, heq⟩ | ⟨inserted, hnew, heq, hinserted, hperm⟩ :=
    addFragment_spec this payload.plain hbegin hnum
  · -- nothing begins with a duplicate
    have hstarts : this.startsV2 frag payload = false := by
      by_contra hstarts
      rw [beginV2, if_pos (by simpa using hstarts)] at hf
      cases hf
    have hsome : some (this.fragments.getD []) = this.fragments := by
      cases hfragments : this.fragments with
      | none => simp [startsV2, hfragments] at hstarts
      | some fragments => rfl
    simp only [heq]
    simp only [beginV2, hstarts, Bool.false_eq_true, if_false] at hf ⊢
    refine .inl ⟨?_, trivial, f, hf, hnumber⟩
    rw [hsome, ← hfrag]
  · simp only [heq]
    rw [maxPacket_beginV2] at hnew
    refine .inr (.inl ⟨?_, hnew⟩)
    simp only [resetDefrag, maxPacket_beginV2]
  · simp only [heq]
    exact .inr (.inr ⟨{ (this.beginV2 frag payload).1 with
      len := (this.beginV2 frag payload).1.len + payload.plain.length }, inserted, rfl, hnew, rfl,
      maxPacket_beginV2 _, hinserted, hperm⟩)

/-- What `message` makes of the collection is stored. -/
structure StoredV2 (this message : Message) (frag : FragmentData) (payload : EncryptedFragmentPayload)
    (frag' : FragmentData) (inserted : List Fragment) : Prop where
  store : this.storeV2 message frag payload = (.success,
    { this with fragments := some inserted, frag := some frag' }.withFirst message payload)
  total : payload.totalFragments.toNat ≤ maxFragments
  isNew : ∀ f ∈ (this.beginV2 frag payload).2, f.number ≠ payload.fragmentNumber.toNat
  last : frag'.last = (this.beginV2 frag payload).1.last
  maxPacket : frag'.maxPacket = frag.maxPacket
  collected : Collected frag' inserted
  perm : inserted.Perm (⟨payload.fragmentNumber.setWidth 8, payload.plain⟩ ::
    (this.beginV2 frag payload).2)

@[simp] theorem fragments_withFirst (this message : Message) (payload : EncryptedFragmentPayload) :
    (this.withFirst message payload).fragments = this.fragments := by
  unfold withFirst
  split_ifs <;> rfl

@[simp] theorem frag_withFirst (this message : Message) (payload : EncryptedFragmentPayload) :
    (this.withFirst message payload).frag = this.frag := by
  unfold withFirst
  split_ifs <;> rfl

@[simp] theorem messageId_withFirst (this message : Message) (payload : EncryptedFragmentPayload) :
    (this.withFirst message payload).messageId = this.messageId := by
  unfold withFirst
  split_ifs <;> rfl

/-- **What a fragment of IKEv2 does.** -/
theorem addFragmentV2_spec {message : Message} {payload : EncryptedFragmentPayload}
    (hfrag : this.frag = some frag) (h : Collected frag (this.fragments.getD []))
    (hpayload : message.fragmentV2 = some payload) (hid : this.messageId = message.messageId)
    (hnum : payload.fragmentNumber ≤ payload.totalFragments) :
    (this.addFragmentV2 message = (.failed, this.resetDefrag frag) ∧
      (payload.totalFragments.toNat ≤ maxFragments →
        (∀ f ∈ (this.beginV2 frag payload).2, f.number ≠ payload.fragmentNumber.toNat) ∧
        frag.maxPacket < (this.beginV2 frag payload).1.len + payload.plain.length)) ∨
    (this.addFragmentV2 message = (.needMore, this) ∧ this.startsV2 frag payload = false ∧
      ∃ f ∈ this.fragments.getD [], f.number = payload.fragmentNumber.toNat) ∨
    ∃ frag' inserted, StoredV2 this message frag payload frag' inserted ∧
      this.addFragmentV2 message = if inserted.length = payload.totalFragments.toNat then
        (.success, ({ this with fragments := some inserted, frag := some frag' }.withFirst message
          payload).completeV2 message)
      else (.needMore,
        { this with fragments := some inserted, frag := some frag' }.withFirst message payload) := by
  rw [BitVec.le_def] at hnum
  unfold addFragmentV2
  simp only [hfrag, hpayload]
  rw [if_neg (not_not.mpr hid)]
  split_ifs with htotal
  · exact .inl ⟨rfl, fun h => absurd h (not_le.mpr htotal)⟩
  rw [not_lt] at htotal
  have hlt : payload.fragmentNumber.toNat < 256 := by
    unfold maxFragments at htotal
    omega
  obtain ⟨heq, hstarts, hdup⟩ | ⟨heq, hnew⟩ | ⟨frag', inserted, heq, hnew, hlast, hmax, hcol, hperm⟩ :=
    storeV2_spec message hfrag h hlt
  · rw [heq]
    exact .inr (.inl ⟨rfl, hstarts, hdup⟩)
  · rw [heq]
    exact .inl ⟨rfl, fun _ => hnew⟩
  · refine .inr (.inr ⟨frag', inserted, ⟨heq, htotal, hnew, hlast, hmax, hcol, hperm⟩, ?_⟩)
    rw [heq]
    simp only [fragments_withFirst, Option.getD_some]

theorem addFragmentV2_of_other {message : Message}
    (h : ∀ frag payload, this.frag = some frag → message.fragmentV2 = some payload →
      this.messageId ≠ message.messageId) :
    ∃ status, status ≠ .success ∧ this.addFragmentV2 message = (status, this) := by
  unfold addFragmentV2
  cases hfrag : this.frag with
  | none => exact ⟨.invalidState, by decide, rfl⟩
  | some frag =>
    cases hpayload : message.fragmentV2 with
    | none => exact ⟨.invalidArg, by decide, rfl⟩
    | some payload => exact ⟨.invalidArg, by decide, if_pos (h frag payload hfrag hpayload)⟩

end Message

end StrongSwan
