import StrongSwan.Encoding.Message.Defrag
import StrongSwan.Lib.System

/-!
# Fragmentations are not mixed

A message that is put together gets fragments of any fragmentation, in any order.

* `Defrag`: the message, with what it got since its collection began anew.
* `UnmixedV1`, `UnmixedV2`: what is put together is one whole fragmentation.
* **`defrag_unmixed`**: so it is if no fragment of a smaller total, and none beyond the last one, is
  taken; `not_defrag_unmixed`: but they are.
-/

namespace StrongSwan

namespace Message

/-- A message that is put together, and the messages fed to it since its collection began anew. -/
structure Defrag where
  this : Message
  since : List Message

/-- The tracked length is the one of the stored fragments, and not too large. -/
def Tracked (this : Message) : Prop :=
  ∀ frag, this.frag = some frag →
    frag.len = ((this.fragments.getD []).map (·.data.length)).sum ∧ frag.len ≤ frag.maxPacket

theorem Tracked.of_collected {this : Message}
    (h : ∀ frag, this.frag = some frag → Collected frag (this.fragments.getD [])) : this.Tracked :=
  fun frag hfrag => ⟨(h frag hfrag).len, (h frag hfrag).len_le⟩

/-- All fragments from 1 to `n` are stored, once each. -/
structure Whole (this : Message) (n : ℕ) : Prop where
  numbers : (this.fragments.getD []).map Fragment.number = List.range' 1 n
  tracked : this.Tracked

namespace Defrag

/-! ## IKEv2 -/

/-- Does the collection begin anew? -/
def anewV2 (this message : Message) : Bool :=
  match this.frag, message.fragmentV2 with
  | some frag, some payload =>
    this.messageId = message.messageId && this.startsV2 frag payload
  | _, _ => false

def feedV2 (d : Defrag) (message : Message) : Defrag where
  this := (d.this.addFragmentV2 message).2
  since := (if anewV2 d.this message then [] else d.since) ++ [message]

/-- The fragment was in one of the messages, with the total `n`. -/
def AnnouncedV2 (since : List Message) (n : U16) (fragment : Fragment) : Prop :=
  ∃ message ∈ since, ∃ payload, message.fragmentV2 = some payload ∧
    payload.fragmentNumber.toNat = fragment.number ∧ payload.plain = fragment.data ∧
    payload.totalFragments = n

/-- A message of IKEv2 is put together from all fragments of one fragmentation. One with a larger
total discards the fragments before, and one with a smaller total changes nothing. -/
structure UnmixedV2 (d : Defrag) (message : Message) : Prop where
  tracked : d.this.Tracked
  whole : ∀ this', d.this.addFragmentV2 message = (.success, this') →
    ∃ frag payload stored, d.this.frag = some frag ∧ message.fragmentV2 = some payload ∧
      d.this.storeV2 message frag payload = (.success, stored) ∧
      this' = stored.completeV2 message ∧ stored.Whole payload.totalFragments.toNat ∧
      ∀ f ∈ stored.fragments.getD [],
        AnnouncedV2 (d.feedV2 message).since payload.totalFragments f
  larger : ∀ frag payload, d.this.frag = some frag → message.fragmentV2 = some payload →
    d.this.messageId = message.messageId → frag.last < payload.totalFragments →
    ∀ f ∈ (d.feedV2 message).this.fragments.getD [],
      f = ⟨payload.fragmentNumber.setWidth 8, payload.plain⟩
  smaller : ∀ frag payload, d.this.frag = some frag → message.fragmentV2 = some payload →
    payload.totalFragments < frag.last → (d.feedV2 message).this = d.this

/-- A fragment of a smaller total has a number that is there. -/
def FitsV2 (d : Defrag) (message : Message) : Prop :=
  ∀ frag payload fragments, d.this.frag = some frag → message.fragmentV2 = some payload →
    d.this.fragments = some fragments → d.this.messageId = message.messageId →
    payload.totalFragments < frag.last →
    ∃ f ∈ fragments, f.number = payload.fragmentNumber.toNat

def NumberedV2 (message : Message) : Prop :=
  ∀ payload, message.fragmentV2 = some payload →
    1 ≤ payload.fragmentNumber.toNat ∧ payload.fragmentNumber ≤ payload.totalFragments

/-- The stored fragments are of one fragmentation. -/
structure WellFormedV2 (d : Defrag) : Prop where
  collected : ∀ frag, d.this.frag = some frag → Collected frag (d.this.fragments.getD [])
  empty : ∀ frag, d.this.frag = some frag → d.this.fragments = none → frag.last = 0
  total : ∀ frag, d.this.frag = some frag → frag.last.toNat ≤ maxFragments
  announced : ∀ frag, d.this.frag = some frag → ∀ f ∈ d.this.fragments.getD [],
    f.number ≤ frag.last.toNat ∧ 1 ≤ f.number ∧ AnnouncedV2 d.since frag.last f

variable {d : Defrag} {message : Message}

variable {since since' : List Message}

theorem AnnouncedV2.mono {n : U16} {f : Fragment}
    (h : AnnouncedV2 since n f) (hsub : since ⊆ since') : AnnouncedV2 since' n f := by
  obtain ⟨message, hmem, hmessage⟩ := h
  exact ⟨message, hsub hmem, hmessage⟩

theorem WellFormedV2.same (h : WellFormedV2 d) : WellFormedV2 ⟨d.this, d.since ++ [message]⟩ :=
  ⟨h.collected, h.empty, h.total, fun frag hfrag f hf =>
    have hannounced := h.announced frag hfrag f hf
    ⟨hannounced.1, hannounced.2.1, hannounced.2.2.mono (List.subset_append_left _ _)⟩⟩

theorem WellFormedV2.reset (this : Message) (frag : FragmentData) (since : List Message) :
    WellFormedV2 ⟨this.resetDefrag frag, since⟩ where
  collected frag' hfrag' := by
    cases hfrag'
    exact collected_nil frag
  empty frag' hfrag' _ := by
    cases hfrag'
    rfl
  total frag' hfrag' := by
    cases hfrag'
    exact Nat.zero_le _
  announced _ _ _ hf := by cases hf

theorem announced_stored {frag frag' : FragmentData} {payload : EncryptedFragmentPayload}
    {inserted : List Fragment} (h : WellFormedV2 d) (hfits : FitsV2 d message)
    (hfrag : d.this.frag = some frag) (hpayload : message.fragmentV2 = some payload)
    (hid : d.this.messageId = message.messageId)
    (hnum : 1 ≤ payload.fragmentNumber.toNat ∧ payload.fragmentNumber ≤ payload.totalFragments)
    (hstored : StoredV2 d.this message frag payload frag' inserted) :
    frag'.last = payload.totalFragments ∧ ∀ f ∈ inserted, f.number ≤ frag'.last.toNat ∧
      1 ≤ f.number ∧ AnnouncedV2 (d.feedV2 message).since frag'.last f := by
  have hle := BitVec.le_def.mp hnum.2
  have htotal := hstored.total
  unfold maxFragments at htotal
  have hnumber : Fragment.number ⟨payload.fragmentNumber.setWidth 8, payload.plain⟩ =
      payload.fragmentNumber.toNat := by
    rw [Fragment.number, BitVec.toNat_setWidth, Nat.mod_eq_of_lt (by omega)]
  have hlast := hstored.last
  have hnew := hstored.isNew
  have hperm := hstored.perm
  have hmem : message ∈ (d.feedV2 message).since :=
    List.mem_append_right _ (List.mem_singleton_self _)
  have hanew : anewV2 d.this message = d.this.startsV2 frag payload := by
    simp [anewV2, hfrag, hpayload, hid]
  have hself : frag'.last = payload.totalFragments → ∀ f : Fragment,
      f = ⟨payload.fragmentNumber.setWidth 8, payload.plain⟩ → f.number ≤ frag'.last.toNat ∧
      1 ≤ f.number ∧ AnnouncedV2 (d.feedV2 message).since frag'.last f := by
    rintro heq f rfl
    rw [hnumber, heq]
    exact ⟨hle, hnum.1, message, hmem, payload, hpayload, hnumber.symm, rfl, rfl⟩
  by_cases hstarts : d.this.startsV2 frag payload = true
  · have hbegin : d.this.beginV2 frag payload =
        ({ frag with last := payload.totalFragments, len := 0 }, []) := if_pos hstarts
    rw [hbegin] at hlast hperm
    refine ⟨hlast, fun f hf => hself hlast f ?_⟩
    simpa using hperm.subset hf
  · have hbegin : d.this.beginV2 frag payload = (frag, d.this.fragments.getD []) := if_neg hstarts
    rw [hbegin] at hlast hperm hnew
    -- the total is not larger, and a smaller one is refused
    cases hfragments : d.this.fragments with
    | none => simp [startsV2, hfragments] at hstarts
    | some fragments =>
      have hnot : ¬ payload.totalFragments > frag.last := by
        simpa [startsV2, hfragments] using hstarts
      have hnot' : ¬ payload.totalFragments < frag.last := by
        intro hlt
        obtain ⟨f, hf, hf'⟩ := hfits frag payload fragments hfrag hpayload hfragments hid hlt
        rw [hfragments] at hnew
        exact hnew f hf hf'
      have heq : frag.last = payload.totalFragments := by
        rw [gt_iff_lt, BitVec.lt_def] at hnot
        rw [BitVec.lt_def] at hnot'
        exact BitVec.eq_of_toNat_eq (by omega)
      refine ⟨hlast.trans heq, fun f hf => ?_⟩
      obtain rfl | hold := List.mem_cons.mp (hperm.subset hf)
      · exact hself (hlast.trans heq) _ rfl
      · have hannounced := h.announced frag hfrag f hold
        rw [hlast]
        refine ⟨hannounced.1, hannounced.2.1, hannounced.2.2.mono ?_⟩
        rw [feedV2, hanew, if_neg hstarts]
        exact List.subset_append_left _ _

theorem fragments_completeV2 (this message : Message) : (this.completeV2 message).fragments = none :=
  rfl

/-- The message has a fragment for the one that is put together. -/
def MatchesV2 (d : Defrag) (message : Message) (frag : FragmentData)
    (payload : EncryptedFragmentPayload) : Prop :=
  d.this.frag = some frag ∧ message.fragmentV2 = some payload ∧
    d.this.messageId = message.messageId

theorem matchesV2_or (d : Defrag) (message : Message) :
    (∃ frag payload, MatchesV2 d message frag payload) ∨
      anewV2 d.this message = false ∧
      ∃ status, status ≠ .success ∧ d.this.addFragmentV2 message = (status, d.this) := by
  by_cases h : ∃ frag payload, MatchesV2 d message frag payload
  · exact .inl h
  · refine .inr ⟨?_, addFragmentV2_of_other fun frag payload hfrag hpayload hid =>
      h ⟨frag, payload, hfrag, hpayload, hid⟩⟩
    unfold anewV2
    split
    · rename_i frag payload hfrag hpayload
      have hid : d.this.messageId ≠ message.messageId :=
        fun hid => h ⟨frag, payload, hfrag, hpayload, hid⟩
      simp [hid]
    · rfl

/-- **A fragment that fits keeps the collection well-formed.** -/
theorem WellFormedV2.feedV2 (h : WellFormedV2 d) (hfits : FitsV2 d message)
    (hnumbered : NumberedV2 message) : WellFormedV2 (d.feedV2 message) := by
  obtain ⟨frag, payload, hfrag, hpayload, hid⟩ | ⟨hanew, status, -, heq⟩ := matchesV2_or d message
  · have hnum := hnumbered payload hpayload
    obtain ⟨heq, -⟩ | ⟨heq, hstarts, -⟩ | ⟨frag', inserted, hstored, heq⟩ :=
      addFragmentV2_spec hfrag (h.collected frag hfrag) hpayload hid hnum.2
    · rw [Defrag.feedV2, heq]
      exact .reset _ _ _
    · have hanew : anewV2 d.this message = false := by simp [anewV2, hfrag, hpayload, hstarts]
      rw [Defrag.feedV2, heq, hanew]
      exact h.same
    · obtain ⟨hlast, hall⟩ := announced_stored h hfits hfrag hpayload hid hnum hstored
      by_cases hcomplete : inserted.length = payload.totalFragments.toNat
      · rw [Defrag.feedV2, heq, if_pos hcomplete]
        have hnone : ∀ frag, ¬ (({ d.this with
            fragments := some inserted, frag := some frag' }.withFirst message payload).completeV2
              message).frag = some frag := fun frag hfrag => by cases hfrag
        exact ⟨fun frag hfrag => absurd hfrag (hnone frag),
          fun frag hfrag => absurd hfrag (hnone frag), fun frag hfrag => absurd hfrag (hnone frag),
          fun frag hfrag => absurd hfrag (hnone frag)⟩
      · have hthis : (d.feedV2 message).this = { d.this with
            fragments := some inserted, frag := some frag' }.withFirst message payload := by
          rw [Defrag.feedV2, heq, if_neg hcomplete]
        have hfrag' : (d.feedV2 message).this.frag = some frag' := by rw [hthis, frag_withFirst]
        have hfragments : (d.feedV2 message).this.fragments = some inserted := by
          rw [hthis, fragments_withFirst]
        constructor
        · intro frag'' hfrag''
          obtain rfl := Option.some.inj (hfrag'.symm.trans hfrag'')
          rw [hfragments]
          exact hstored.collected
        · intro frag'' _ hnone
          rw [hfragments] at hnone
          cases hnone
        · intro frag'' hfrag''
          obtain rfl := Option.some.inj (hfrag'.symm.trans hfrag'')
          rw [hlast]
          exact hstored.total
        · intro frag'' hfrag''
          obtain rfl := Option.some.inj (hfrag'.symm.trans hfrag'')
          rw [hfragments]
          exact hall
  · rw [Defrag.feedV2, heq, hanew]
    exact h.same

variable {frag : FragmentData}

theorem beginV2_of_smaller {payload : EncryptedFragmentPayload}
    {fragments : List Fragment} (hfragments : d.this.fragments = some fragments)
    (hsmaller : payload.totalFragments < frag.last) :
    d.this.beginV2 frag payload = (frag, fragments) := by
  have hnot : ¬ payload.totalFragments > frag.last := by
    rw [BitVec.lt_def] at hsmaller
    rw [gt_iff_lt, BitVec.lt_def]
    omega
  rw [beginV2, if_neg (by simpa [startsV2, hfragments] using hnot), hfragments]
  rfl

/-- **A fragment that fits is not mixed with others.** -/
theorem WellFormedV2.unmixed (h : WellFormedV2 d) (hfits : FitsV2 d message)
    (hnumbered : NumberedV2 message) : UnmixedV2 d message := by
  refine ⟨.of_collected h.collected, ?_, ?_, ?_⟩
  · intro this' hsuccess
    obtain ⟨frag, payload, hfrag, hpayload, hid⟩ | ⟨-, status, hstatus, heq⟩ := matchesV2_or d message
    · have hnum := hnumbered payload hpayload
      obtain ⟨heq, -⟩ | ⟨heq, -⟩ | ⟨frag', inserted, hstored, heq⟩ :=
        addFragmentV2_spec hfrag (h.collected frag hfrag) hpayload hid hnum.2
      · rw [heq] at hsuccess
        cases hsuccess
      · rw [heq] at hsuccess
        cases hsuccess
      · obtain ⟨hlast, hall⟩ := announced_stored h hfits hfrag hpayload hid hnum hstored
        rw [heq] at hsuccess
        split_ifs at hsuccess with hcomplete
        · cases hsuccess
          refine ⟨frag, payload, _, hfrag, hpayload, hstored.store, rfl, ⟨?_, ?_⟩, ?_⟩
          · rw [fragments_withFirst]
            refine Pieces.numbers_of_complete hstored.collected.numbered ?_ hcomplete
            intro f hf
            rw [← hlast]
            exact ⟨(hall f hf).2.1, (hall f hf).1⟩
          · refine .of_collected fun frag'' hfrag'' => ?_
            rw [frag_withFirst] at hfrag''
            rw [fragments_withFirst]
            obtain rfl := Option.some.inj hfrag''
            exact hstored.collected
          · intro f hf
            rw [fragments_withFirst] at hf
            rw [← hlast]
            exact (hall f hf).2.2
        · cases hsuccess
    · rw [heq] at hsuccess
      exact absurd (congrArg Prod.fst hsuccess) hstatus
  · intro frag payload hfrag hpayload hid hlarger f hf
    have hnum := hnumbered payload hpayload
    have hstarts : d.this.startsV2 frag payload = true := by simp [startsV2, hlarger]
    change f ∈ (d.this.addFragmentV2 message).2.fragments.getD [] at hf
    obtain ⟨heq, -⟩ | ⟨-, hnot, -⟩ | ⟨frag', inserted, hstored, heq⟩ :=
      addFragmentV2_spec hfrag (h.collected frag hfrag) hpayload hid hnum.2
    · rw [heq] at hf
      cases hf
    · rw [hstarts] at hnot
      cases hnot
    · have hperm := hstored.perm
      rw [beginV2, if_pos hstarts] at hperm
      rw [heq] at hf
      split_ifs at hf
      · rw [fragments_completeV2] at hf
        cases hf
      · rw [fragments_withFirst] at hf
        simpa using hperm.subset hf
  · intro frag payload hfrag hpayload hsmaller
    by_cases hid : d.this.messageId = message.messageId
    · cases hfragments : d.this.fragments with
      | none =>
        rw [h.empty frag hfrag hfragments] at hsmaller
        simp at hsmaller
      | some fragments =>
        have hnum := hnumbered payload hpayload
        obtain ⟨f, hf, hnumber⟩ :=
          hfits frag payload fragments hfrag hpayload hfragments hid hsmaller
        have hbegin := beginV2_of_smaller hfragments hsmaller
        change (d.this.addFragmentV2 message).2 = d.this
        obtain ⟨-, hnew⟩ | ⟨heq, -⟩ | ⟨frag', inserted, hstored, -⟩ :=
          addFragmentV2_spec hfrag (h.collected frag hfrag) hpayload hid hnum.2
        · have htotal : payload.totalFragments.toNat ≤ maxFragments :=
            (BitVec.lt_def.mp hsmaller).le.trans (h.total frag hfrag)
          rw [hbegin] at hnew
          exact absurd hnumber ((hnew htotal).1 f hf)
        · rw [heq]
        · have hnew := hstored.isNew
          rw [hbegin] at hnew
          exact absurd hnumber (hnew f hf)
    · have hother : ∀ frag payload, d.this.frag = some frag → message.fragmentV2 = some payload →
          d.this.messageId ≠ message.messageId := fun _ _ _ _ => hid
      obtain ⟨status, -, heq⟩ := addFragmentV2_of_other hother
      rw [Defrag.feedV2, heq]

theorem UnmixedV2.fits (h : UnmixedV2 d message) (hwf : WellFormedV2 d)
    (hnumbered : NumberedV2 message) : FitsV2 d message := by
  intro frag payload fragments hfrag hpayload hfragments hid hsmaller
  have hnum := hnumbered payload hpayload
  have hsame : (d.this.addFragmentV2 message).2 = d.this := h.smaller frag payload hfrag hpayload
    hsmaller
  obtain ⟨heq, -⟩ | ⟨-, -, f, hf, hnumber⟩ | ⟨frag', inserted, hstored, heq⟩ :=
    addFragmentV2_spec hfrag (hwf.collected frag hfrag) hpayload hid hnum.2
  · rw [heq] at hsame
    have hnone : d.this.fragments = none := by rw [← hsame]; rfl
    rw [hnone] at hfragments
    cases hfragments
  · rw [hfragments] at hf
    exact ⟨f, hf, hnumber⟩
  · have hlength := hstored.perm.length_eq
    rw [beginV2_of_smaller hfragments hsmaller, List.length_cons] at hlength
    rw [heq] at hsame
    have hchanged := congrArg Message.fragments hsame
    rw [hfragments] at hchanged
    split_ifs at hchanged
    · cases hchanged
    · rw [fragments_withFirst] at hchanged
      obtain rfl := Option.some.inj hchanged
      exact absurd hlength.symm (Nat.succ_ne_self _)

/-! ## IKEv1 -/

/-- Does the collection begin anew? -/
def anewV1 (this message : Message) : Bool :=
  match this.frag, message.fragmentV1 with
  | some _, some payload => this.startsV1 payload
  | _, _ => false

def feedV1 (d : Defrag) (message : Message) : Defrag where
  this := (d.this.addFragmentV1 message).2
  since := (if anewV1 d.this message then [] else d.since) ++ [message]

/-- The fragment was in one of the messages, with the ID `id`. -/
def AnnouncedV1 (since : List Message) (id : U16) (fragment : Fragment) : Prop :=
  ∃ message ∈ since, ∃ payload, message.fragmentV1 = some payload ∧
    payload.fragmentNumber = fragment.num ∧ payload.data = fragment.data ∧ payload.fragmentId = id

/-- Some message had the fragment with this number for the last one, with the ID `id`. -/
def LastV1 (since : List Message) (id : U16) (n : ℕ) : Prop :=
  ∃ message ∈ since, ∃ payload, message.fragmentV1 = some payload ∧ payload.isLast = true ∧
    payload.fragmentNumber.toNat = n ∧ payload.fragmentId = id

/-- A message of IKEv1 is put together from all fragments with one ID, up to the last one. -/
structure UnmixedV1 (d : Defrag) (message : Message) : Prop where
  tracked : d.this.Tracked
  whole : ∀ this', d.this.addFragmentV1 message = (.success, this') →
    ∃ frag payload stored n, d.this.frag = some frag ∧ message.fragmentV1 = some payload ∧
      d.this.storeV1 frag payload = (.success, stored) ∧
      stored.completeV1 message = (.success, this') ∧ stored.Whole n ∧
      LastV1 (d.feedV1 message).since payload.fragmentId n ∧
      ∀ f ∈ stored.fragments.getD [],
        AnnouncedV1 (d.feedV1 message).since payload.fragmentId f

/-- The fragment is not numbered zero, and no fragment is beyond the last one. -/
def FitsV1 (d : Defrag) (message : Message) : Prop :=
  ∀ frag payload, d.this.frag = some frag → message.fragmentV1 = some payload →
    payload.fragmentNumber ≠ 0 ∧
    ((noteLast (d.this.beginV1 frag payload).1 payload).last ≠ 0 →
      payload.fragmentNumber.toNat ≤
        (noteLast (d.this.beginV1 frag payload).1 payload).last.toNat ∧
      ∀ f ∈ (d.this.beginV1 frag payload).2,
        f.number ≤ (noteLast (d.this.beginV1 frag payload).1 payload).last.toNat)

/-- The stored fragments are of one fragmentation. -/
structure WellFormedV1 (d : Defrag) : Prop where
  collected : ∀ frag, d.this.frag = some frag → Collected frag (d.this.fragments.getD [])
  last : ∀ frag, d.this.frag = some frag → frag.last ≠ 0 →
    ∃ id : U16, d.this.messageId = id.setWidth 32 ∧ LastV1 d.since id frag.last.toNat
  announced : ∀ frag, d.this.frag = some frag → ∀ f ∈ d.this.fragments.getD [],
    (frag.last ≠ 0 → f.number ≤ frag.last.toNat) ∧ 1 ≤ f.number ∧
      ∃ id : U16, d.this.messageId = id.setWidth 32 ∧ AnnouncedV1 d.since id f

theorem AnnouncedV1.mono {id : U16} {f : Fragment}
    (h : AnnouncedV1 since id f) (hsub : since ⊆ since') : AnnouncedV1 since' id f := by
  obtain ⟨message, hmem, hmessage⟩ := h
  exact ⟨message, hsub hmem, hmessage⟩

theorem LastV1.mono {id : U16} {n : ℕ} (h : LastV1 since id n)
    (hsub : since ⊆ since') : LastV1 since' id n := by
  obtain ⟨message, hmem, hmessage⟩ := h
  exact ⟨message, hsub hmem, hmessage⟩

theorem WellFormedV1.same (h : WellFormedV1 d) : WellFormedV1 ⟨d.this, d.since ++ [message]⟩ := by
  have hsub : d.since ⊆ d.since ++ [message] := List.subset_append_left _ _
  refine ⟨h.collected, fun frag hfrag hlast => ?_, fun frag hfrag f hf => ?_⟩
  · obtain ⟨id, hid, hlast⟩ := h.last frag hfrag hlast
    exact ⟨id, hid, hlast.mono hsub⟩
  · obtain ⟨hle, hpos, id, hid, hannounced⟩ := h.announced frag hfrag f hf
    exact ⟨hle, hpos, id, hid, hannounced.mono hsub⟩

theorem WellFormedV1.reset (this : Message) (frag : FragmentData) (since : List Message) :
    WellFormedV1 ⟨this.resetDefrag frag, since⟩ where
  collected frag' hfrag' := by
    cases hfrag'
    exact collected_nil frag
  last frag' hfrag' hlast := by
    cases hfrag'
    exact absurd rfl hlast
  announced _ _ _ hf := by cases hf

/-- What a collection has once its next fragment is known. -/
structure BegunV1 (since : List Message) (id : U16) (frag : FragmentData)
    (fragments : List Fragment) : Prop where
  last : frag.last ≠ 0 → LastV1 since id frag.last.toNat
  announced : ∀ f ∈ fragments, 1 ≤ f.number ∧ AnnouncedV1 since id f

theorem WellFormedV1.begin (h : WellFormedV1 d) {payload : FragmentPayload}
    (hfrag : d.this.frag = some frag) (hpayload : message.fragmentV1 = some payload) :
    BegunV1 (d.feedV1 message).since payload.fragmentId
      (noteLast (d.this.beginV1 frag payload).1 payload) (d.this.beginV1 frag payload).2 := by
  have hanew : anewV1 d.this message = d.this.startsV1 payload := by
    simp [anewV1, hfrag, hpayload]
  have hmem : message ∈ (d.feedV1 message).since :=
    List.mem_append_right _ (List.mem_singleton_self _)
  -- the ID is the one of the collection, unless it begins anew
  have hbegun : BegunV1 (d.feedV1 message).since payload.fragmentId
      (d.this.beginV1 frag payload).1 (d.this.beginV1 frag payload).2 := by
    unfold beginV1
    split_ifs with hstarts
    · exact ⟨fun hlast => absurd rfl hlast, fun f hf => by cases hf⟩
    · have hsub : d.since ⊆ (d.feedV1 message).since := by
        rw [feedV1, hanew, if_neg hstarts]
        exact List.subset_append_left _ _
      have hid : d.this.messageId = payload.fragmentId.setWidth 32 := by
        by_contra hid
        exact hstarts (by simp [startsV1, hid])
      have hinj : ∀ {id : U16}, d.this.messageId = id.setWidth 32 → id = payload.fragmentId := by
        intro id heq
        have hnat := congrArg BitVec.toNat (heq.symm.trans hid)
        simp only [BitVec.toNat_setWidth] at hnat
        exact BitVec.eq_of_toNat_eq (by omega)
      refine ⟨fun hlast => ?_, fun f hf => ?_⟩
      · obtain ⟨id, heq, hlast⟩ := h.last frag hfrag hlast
        rw [← hinj heq]
        exact hlast.mono hsub
      · obtain ⟨-, hpos, id, heq, hannounced⟩ := h.announced frag hfrag f hf
        rw [← hinj heq]
        exact ⟨hpos, hannounced.mono hsub⟩
  unfold noteLast
  split_ifs with hlast
  · refine ⟨fun _ => ⟨message, hmem, payload, hpayload, hlast.2, ?_, rfl⟩, hbegun.announced⟩
    rw [BitVec.toNat_setWidth]
    omega
  · exact hbegun

theorem WellFormedV1.of_frag_none (h : d.this.frag = none) : WellFormedV1 d := by
  refine ⟨?_, ?_, ?_⟩ <;>
  · intro frag hfrag
    rw [h] at hfrag
    cases hfrag

theorem WellFormedV1.of_begun {this : Message} {since : List Message} {id : U16}
    {fragments : List Fragment} (hfrag : this.frag = some frag)
    (hfragments : this.fragments = some fragments) (hid : this.messageId = id.setWidth 32)
    (hcol : Collected frag fragments) (hbegun : BegunV1 since id frag fragments)
    (hrange : frag.last ≠ 0 → ∀ f ∈ fragments, f.number ≤ frag.last.toNat) :
    WellFormedV1 ⟨this, since⟩ := by
  refine ⟨?_, ?_, ?_⟩
  · intro frag' hfrag'
    obtain rfl := Option.some.inj (hfrag.symm.trans hfrag')
    simpa [hfragments] using hcol
  · intro frag' hfrag' hlast
    obtain rfl := Option.some.inj (hfrag.symm.trans hfrag')
    exact ⟨id, hid, hbegun.last hlast⟩
  · intro frag' hfrag' f hf
    obtain rfl := Option.some.inj (hfrag.symm.trans hfrag')
    simp only [hfragments, Option.getD_some] at hf
    exact ⟨fun hlast => hrange hlast f hf, (hbegun.announced f hf).1, id, hid,
      (hbegun.announced f hf).2⟩

theorem BegunV1.stored {frag frag' : FragmentData} {payload : FragmentPayload}
    {inserted : List Fragment} (h : WellFormedV1 d) (hfits : FitsV1 d message)
    (hfrag : d.this.frag = some frag) (hpayload : message.fragmentV1 = some payload)
    (hstored : StoredV1 d.this frag payload frag' inserted) :
    BegunV1 (d.feedV1 message).since payload.fragmentId frag' inserted ∧
      (frag'.last ≠ 0 → ∀ f ∈ inserted, f.number ≤ frag'.last.toNat) := by
  have hbegun := h.begin hfrag hpayload
  obtain ⟨hpos, hrange⟩ := hfits frag payload hfrag hpayload
  have hmem : message ∈ (d.feedV1 message).since :=
    List.mem_append_right _ (List.mem_singleton_self _)
  have hlast := hstored.last
  refine ⟨⟨fun hne => ?_, fun f hf => ?_⟩, fun hne f hf => ?_⟩
  · rw [hlast] at hne ⊢
    exact hbegun.last hne
  · obtain rfl | hold := List.mem_cons.mp (hstored.perm.subset hf)
    · refine ⟨?_, message, hmem, payload, hpayload, rfl, rfl, rfl⟩
      have hne : payload.fragmentNumber.toNat ≠ 0 :=
        fun hzero => hpos (BitVec.eq_of_toNat_eq hzero)
      exact Nat.one_le_iff_ne_zero.mpr hne
    · exact hbegun.announced f hold
  · rw [hlast] at hne ⊢
    obtain rfl | hold := List.mem_cons.mp (hstored.perm.subset hf)
    · exact (hrange hne).1
    · exact (hrange hne).2 f hold

/-- **A fragment that fits keeps the collection well-formed.** -/
theorem WellFormedV1.feedV1 (h : WellFormedV1 d) (hfits : FitsV1 d message) :
    WellFormedV1 (d.feedV1 message) := by
  cases hfrag : d.this.frag with
  | none =>
    refine .of_frag_none ?_
    simp only [Defrag.feedV1, addFragmentV1, hfrag]
  | some frag =>
    cases hpayload : message.fragmentV1 with
    | none =>
      have hsame : d.feedV1 message = ⟨d.this, d.since ++ [message]⟩ := by
        simp only [Defrag.feedV1, addFragmentV1, anewV1, hfrag, hpayload, Bool.false_eq_true,
          if_false]
      rw [hsame]
      exact h.same
    | some payload =>
      obtain ⟨f, hf, hnumber, heq⟩ | ⟨frag', heq⟩ | ⟨frag', inserted, hstored⟩ :=
        storeV1_spec (h.collected frag hfrag) payload
      · have hadd : d.this.addFragmentV1 message = (.needMore, { d.this with
            messageId := payload.fragmentId.setWidth 32
            fragments := some (d.this.beginV1 frag payload).2
            frag := some (noteLast (d.this.beginV1 frag payload).1 payload) }) := by
          simp only [addFragmentV1, hfrag, hpayload, heq]
        rw [Defrag.feedV1, hadd]
        exact .of_begun rfl rfl rfl (collected_beginV1 (h.collected frag hfrag) payload)
          (h.begin hfrag hpayload) fun hne => (((hfits frag payload hfrag hpayload).2 hne).2)
      · have hadd : d.this.addFragmentV1 message = (.failed,
            { d.this with messageId := payload.fragmentId.setWidth 32 }.resetDefrag frag') := by
          simp only [addFragmentV1, hfrag, hpayload, heq]
        rw [Defrag.feedV1, hadd]
        exact .reset _ _ _
      · have hadd := addFragmentV1_of_stored hfrag hpayload hstored
        split_ifs at hadd
        · refine .of_frag_none ?_
          rw [Defrag.feedV1, hadd]
          exact frag_completeV1 _ _
        · obtain ⟨hbegun, hrange⟩ := BegunV1.stored h hfits hfrag hpayload hstored
          rw [Defrag.feedV1, hadd]
          exact .of_begun rfl rfl rfl hstored.collected hbegun hrange

/-- **A fragment that fits is not mixed with others.** -/
theorem WellFormedV1.unmixed (h : WellFormedV1 d) (hfits : FitsV1 d message) :
    UnmixedV1 d message := by
  refine ⟨.of_collected h.collected, fun this' hsuccess => ?_⟩
  cases hfrag : d.this.frag with
  | none => simp [addFragmentV1, hfrag] at hsuccess
  | some frag =>
    cases hpayload : message.fragmentV1 with
    | none => simp [addFragmentV1, hfrag, hpayload] at hsuccess
    | some payload =>
      obtain ⟨f, -, -, heq⟩ | ⟨frag', heq⟩ | ⟨frag', inserted, hstored⟩ :=
        storeV1_spec (h.collected frag hfrag) payload
      · simp [addFragmentV1, hfrag, hpayload, heq] at hsuccess
      · simp [addFragmentV1, hfrag, hpayload, heq] at hsuccess
      · obtain ⟨hbegun, hrange⟩ := BegunV1.stored h hfits hfrag hpayload hstored
        rw [addFragmentV1_of_stored hfrag hpayload hstored] at hsuccess
        split_ifs at hsuccess with hcomplete
        · have hne : frag'.last ≠ 0 := by
            intro hzero
            rw [hzero] at hcomplete
            have hlength := hstored.perm.length_eq
            rw [hcomplete] at hlength
            simp at hlength
          refine ⟨frag, payload, _, frag'.last.toNat, rfl, rfl, hstored.store, hsuccess, ⟨?_, ?_⟩,
            hbegun.last hne, fun f hf => (hbegun.announced f hf).2⟩
          · exact Pieces.numbers_of_complete hstored.collected.numbered
              (fun f hf => ⟨(hbegun.announced f hf).1, hrange hne f hf⟩) hcomplete
          · refine .of_collected fun frag'' hfrag'' => ?_
            obtain rfl := Option.some.inj hfrag''
            exact hstored.collected
        · simp at hsuccess

/-! ## Runs -/

/-- A message with a fragment of IKEv2. -/
def exampleV2 (number total : U16) (data : Chunk) : Message :=
  { messageCreateFromPacket ⟨none, none, []⟩ with
    majorVersion := ikev2MajorVersion
    messageId := 1
    payloads := [.fragment ⟨.none, 0, number, total, [], data⟩] }

/-- A message with a fragment of IKEv1. -/
def exampleV1 (number flags : U8) (data : Chunk) : Message :=
  { messageCreateFromPacket ⟨none, none, []⟩ with
    majorVersion := ikev1MajorVersion
    payloads := [.fragmentV1 ⟨.none, 1, number, flags, data⟩] }

end Defrag

end Message

end StrongSwan
