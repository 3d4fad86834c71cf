import StrongSwan.Ipsec.SaMgr.Threads

/-!
# Which SAs threads get

A thread gets an SA only from the two calls that check one out, and then the first one that matches
or, after a wait, the one it waited for.

* `Pc.granted`: a section ends with an SA checked out, or waits to check it out.
* `Ends`: how the rest of a section ends, if it does, with one lemma per function.
* **`uses_step`**: where a thread has the SAs from that it uses.
* **`sa_step`**: what a step keeps of an SA, and where new ones are from.
-/

namespace StrongSwan

open Handover (Ok By)

/-- The entry whose SA a thread has got or waits for. -/
def Pc.granted : Pc → Option ℕ
  | .waitForEntry .checkout entry | .returned (.sa (some entry)) => some entry
  | _ => none

theorem Pc.granted_of_mem_checkedOut {pc : Pc} {k : ℕ} (h : k ∈ pc.checkedOut) :
    pc.granted = some k := by
  unfold Pc.checkedOut at h
  split at h
  · obtain rfl := Finset.mem_singleton.mp h
    rfl
  · cases h

theorem Pc.granted_of_checkedOut {result : Result} (h : Pc.checkedOut (.returned result) = ∅) :
    Pc.granted (.returned result) = none := by
  cases result with
  | sa entry =>
    cases entry with
    | none => rfl
    | some k => simp [Pc.checkedOut] at h
  | _ => rfl

def Call.checksOut : Call → Option (Sa → Bool)
  | .checkoutByReqid reqid inbound => some fun sa => sa.matchByReqid reqid inbound
  | .checkoutBySpi spi dst => some fun sa => sa.matchBySpiDst spi dst
  | _ => none

namespace SaMgr

variable {createAead : U16 → Chunk → U16 → Chunk → Option Aead} {spiHash : U32 → U32}

/-! ## How sections end -/

section Ends

/-- The rest of a section can only leave the mutex at places of a kind. -/
def Ends (P : Pc → Prop) (x : Option (SaMgr × Pc)) : Prop := ∀ left, x = some left → P left.2

variable {P : Pc → Prop} {m : SaMgr} {k : ℕ}

theorem Ends.leave {pc : Pc} (m : SaMgr) (h : P pc) : Ends P (some (m, pc)) := by
  rintro _ ⟨⟩
  exact h

theorem Ends.bind {α : Type} {x : Option α} {f : α → Option (SaMgr × Pc)}
    (h : ∀ a, x = some a → Ends P (f a)) : Ends P (x.bind f) := by
  intro left hleft
  obtain ⟨a, ha, hleft⟩ := Option.bind_eq_some_iff.mp hleft
  exact h a ha left hleft

theorem ends_lockEntry {caller : Locker} (hwait : P (.waitForEntry caller k))
    (hnone : ∀ result, Pc.checkedOut (.returned result) = ∅ → P (.returned result))
    (hsome : caller = .checkout → P (.returned (.sa (some k)))) :
    Ends P (m.lockEntry caller k) := by
  refine .bind fun ⟨m, waited⟩ _ => ?_
  cases waited with
  | waits => exact .leave m hwait
  | returns locked =>
    cases caller with
    | updateSa newSrc newDst =>
      cases locked with
      | false => exact .leave m (hnone _ rfl)
      | true => exact .bind fun e _ => .leave _ (hnone _ rfl)
    | querySa =>
      cases locked with
      | false => exact .leave m (hnone _ rfl)
      | true => exact .bind fun e _ => .leave _ (hnone _ rfl)
    | checkout =>
      cases locked with
      | false => exact .leave m (hnone _ rfl)
      | true => exact .leave m (hsome rfl)

variable (hnone : ∀ pc : Pc, pc.granted = none → P pc)
include hnone

theorem ends_flushEntries (rest : List ℕ) : Ends P (m.flushEntries rest) := by
  induction rest generalizing m with
  | nil => exact .leave m (hnone _ rfl)
  | cons current rest ih =>
    refine .bind fun ⟨m, removal⟩ _ => ?_
    cases removal with
    | waits loop => exact .leave m (hnone _ rfl)
    | returns removable =>
      cases removable with
      | false => exact ih
      | true => exact .bind fun _ _ => .bind fun _ _ => ih

theorem ends_afterRemoval (caller : Deleter) (removal : Removal) :
    Ends P (m.afterRemoval caller k removal) := by
  cases removal with
  | waits loop => exact .leave m (hnone _ rfl)
  | returns removable =>
    cases caller with
    | flushSas =>
      cases removable with
      | false => exact .bind fun rest _ => ends_flushEntries hnone rest
      | true =>
        exact .bind fun rest _ => .bind fun _ _ => .bind fun _ _ => ends_flushEntries hnone rest
    | delSa =>
      cases removable with
      | false => exact .leave m (hnone _ rfl)
      | true => exact .bind fun _ _ => .leave _ (hnone _ rfl)
    | saExpired =>
      cases removable with
      | false => exact .leave m (hnone _ rfl)
      | true => exact .bind fun _ _ => .bind fun _ _ => .leave _ (hnone _ rfl)

theorem ends_resumeWaitRemoveEntry (caller : Deleter) (loop : RemoveLoop) :
    Ends P (m.resumeWaitRemoveEntry caller loop k) := by
  cases loop <;> exact .bind fun _ _ => ends_afterRemoval hnone caller _

theorem ends_getSpiLoop (spiMin spiMax : U32) (draws : List U32) :
    Ends P (m.getSpiLoop spiMin spiMax draws) := by
  induction draws generalizing m with
  | nil => exact .leave m (hnone _ rfl)
  | cons spiNew draws ih =>
    refine .bind fun ⟨allocated, m⟩ _ => ?_
    cases allocated with
    | false => exact ih
    | true => exact .leave m (hnone _ rfl)

theorem ends_addSa (args : SaArgs) (update : Bool) :
    Ends P (m.addSa createAead args update) := by
  unfold addSa
  split
  · exact .leave m (hnone _ rfl)
  · refine .bind fun found _ => ?_
    split_ifs <;> exact .leave _ (hnone _ rfl)

theorem ends_saExpired (spi hardOffset : U32) : Ends P (m.saExpired k spi hardOffset) := by
  unfold saExpired
  split
  · exact .leave m (hnone _ rfl)
  · refine .bind fun e _ => ?_
    split
    · exact .leave m (hnone _ rfl)
    · dsimp only
      split
      · exact .leave _ (hnone _ rfl)
      · exact .bind fun _ _ => ends_afterRemoval hnone .saExpired _

/-- **Only a checkout gives an SA**, and it is the first one that matches. -/
theorem ends_call (call : Call) (hgrants : ∀ p pc j, call.checksOut = some p →
    m.findFirst (fun _ sa => p sa) m.sas = some (some j) → pc.granted = some j → P pc) :
    Ends P (m.call createAead call) := by
  have hresult : ∀ result, Pc.checkedOut (.returned result) = ∅ → P (.returned result) :=
    fun _ hout => hnone _ (Pc.granted_of_checkedOut hout)
  have hlock : ∀ {caller : Locker} {entry : ℕ}, caller ≠ .checkout →
      Ends P (m.lockEntry caller entry) := by
    intro caller entry hcaller
    refine ends_lockEntry (hnone _ ?_) hresult fun h => absurd h hcaller
    cases caller with
    | checkout => exact absurd rfl hcaller
    | _ => rfl
  have hcheckout : ∀ p, call.checksOut = some p → Ends P (m.checkout fun _ sa => p sa) := by
    intro p hp
    refine .bind fun found hfound => ?_
    cases found with
    | none => exact .leave m (hresult _ rfl)
    | some entry =>
      exact ends_lockEntry (hgrants p _ entry hp hfound rfl) hresult fun _ =>
        hgrants p _ entry hp hfound rfl
  cases call with
  | getSpi spiMin spiMax draws => exact ends_getSpiLoop hnone _ _ _
  | addSa args update => exact ends_addSa hnone args update
  | updateSa spi src dst newSrc newDst newEncap =>
    cases newEncap with
    | false => exact .leave m (hresult _ rfl)
    | true =>
      refine .bind fun found _ => ?_
      cases found with
      | none => exact .leave m (hresult _ rfl)
      | some entry => exact hlock (by simp)
  | querySa src dst spi =>
    refine .bind fun found _ => ?_
    cases found with
    | none => exact .leave m (hresult _ rfl)
    | some entry => exact hlock (by simp)
  | delSa src dst spi =>
    refine .bind fun found _ => ?_
    cases found with
    | none => exact .leave m (hresult _ rfl)
    | some entry => exact .bind fun _ _ => ends_afterRemoval hnone .delSa _
  | checkoutByReqid reqid inbound => exact hcheckout _ rfl
  | checkoutBySpi spi dst => exact hcheckout _ rfl
  | flushSas => exact ends_flushEntries hnone _
  | saExpired entry spi hardOffset => exact ends_saExpired hnone spi hardOffset

end Ends

/-! ## Steps -/

variable {s s' : State} {event : Event} {t k : ℕ}

/-- The thread has the SA checked out, or waits to check it out. -/
def Thread.Uses (thread : Thread) (k : ℕ) : Prop :=
  k ∈ thread.held ∨ thread.pc = .waitForEntry .checkout k

/-- **Where a thread has its SAs from**: it used them before, or has just looked for one. -/
theorem uses_step (h : s.step createAead event = some s') (huses : (s'.threads t).Uses k) :
    (s.threads t).Uses k ∨ ∃ call p, event = .call t call ∧ call.checksOut = some p ∧
      s.mgr.findFirst (fun _ sa => p sa) s.mgr.sas = some (some k) := by
  by_cases ht : t = event.thread
  swap
  · rw [threads_step h ht] at huses
    exact .inl huses
  -- what a section grants is all that is new
  have hleave : ∀ {x : Option (SaMgr × Pc)} {Q : Prop}, x.map (s.leave t) = some s' →
      Ends (fun pc => pc.granted = some k → Q) x → (s.threads t).Uses k ∨ Q := by
    intro x Q hx hends
    obtain ⟨left, hleft, rfl⟩ := Option.map_eq_some_iff.mp hx
    rw [State.threads_leave_self] at huses
    obtain hk | hpc := huses
    · obtain hk | hk := Finset.mem_union.mp hk
      · exact .inr (hends left hleft (Pc.granted_of_mem_checkedOut hk))
      · exact .inl (.inl hk)
    · change left.2 = _ at hpc
      exact .inr (hends left hleft (by rw [hpc]; rfl))
  have hnone : ∀ {Q : Prop} (pc : Pc), pc.granted = none → pc.granted = some k → Q := by
    intro Q pc hnone hsome
    rw [hnone] at hsome
    cases hsome
  subst ht
  cases event with
  | call t call =>
    rw [State.step] at h
    split at h
    · refine hleave h (ends_call hnone call fun p pc j hp hfound hj hk => ?_)
      obtain rfl := Option.some.inj (hj.symm.trans hk)
      exact ⟨call, p, rfl, hp, hfound⟩
    · exact .inl (Option.some.inj h ▸ huses)
  | resume t =>
    rw [State.step] at h
    split at h
    · rename_i caller entry hpc
      have hsame : caller = .checkout → entry = k → (s.threads t).Uses k := by
        rintro rfl rfl
        exact .inr hpc
      refine (hleave (Q := caller = .checkout ∧ entry = k) h ?_).elim .inl
        fun hQ => .inl (hsame hQ.1 hQ.2)
      refine .bind fun e _ => ends_lockEntry (fun hk => ?_)
        (fun _ hout => hnone _ (Pc.granted_of_checkedOut hout)) fun hcaller hk =>
          ⟨hcaller, Option.some.inj hk⟩
      cases caller with
      | checkout => exact ⟨rfl, Option.some.inj hk⟩
      | _ => cases hk
    · exact (hleave (Q := False) h (ends_resumeWaitRemoveEntry hnone _ _)).imp_right False.elim
    · exact .inl (Option.some.inj h ▸ huses)
  | destroyFound t =>
    rw [State.step] at h
    split at h
    · exact (hleave (Q := False) h (.bind fun _ _ => .leave _ (hnone _ rfl))).imp_right False.elim
    · exact .inl (Option.some.inj h ▸ huses)
  | checkin t entry =>
    rw [Event.thread, threads_checkin h] at huses
    exact .inl (huses.imp_left Finset.mem_of_mem_erase)
  | use t entry use =>
    rw [State.step] at h
    split_ifs at h
    · obtain ⟨e, -, hs'⟩ := Option.bind_eq_some_iff.mp h
      rw [← Option.some.inj hs'] at huses
      exact .inl huses
    · exact .inl (Option.some.inj h ▸ huses)

/-- What a step keeps of an SA; its ESP context only changes while it is used. -/
def Kept (event : Event) (k : ℕ) (sa sa' : Sa) : Prop :=
  sa'.spi = sa.spi ∧ sa'.reqid = sa.reqid ∧ sa'.inbound = sa.inbound ∧
    ((∃ t context, event = .use t k (.espContext context)) ∨ sa'.espContext = sa.espContext)

theorem Kept.trans {event : Event} {k : ℕ} {a b c : Sa} (h : Kept event k a b)
    (h' : Kept event k b c) : Kept event k a c := by
  obtain ⟨hspi, hreqid, hinbound, hcontext⟩ := h
  obtain ⟨hspi', hreqid', hinbound', hcontext'⟩ := h'
  refine ⟨hspi'.trans hspi, hreqid'.trans hreqid, hinbound'.trans hinbound, ?_⟩
  obtain huse | hcontext := hcontext
  · exact .inl huse
  · exact hcontext'.imp_right fun hcontext' => hcontext'.trans hcontext

theorem quiet_kept (s : State) (event : Event) (move : Handover.Move Sa)
    (h : Allowed createAead s event move) :
    Handover.Quiet (fun sa => ∃ t args update, event = .call t (.addSa args update) ∧
      Sa.create createAead args = some sa) (Kept event) move := by
  cases move with
  | create sa => exact h
  | modify k f =>
    intro sa
    obtain hid | ⟨t, spi, hardOffset, -, rfl⟩ | ⟨t, use, hevent, -, rfl⟩ | ⟨newSrc, newDst, -, rfl⟩ := h
    · rw [hid]
      exact ⟨rfl, rfl, rfl, .inr rfl⟩
    · obtain ⟨soft, hard, heq⟩ := sa.expire_eq (hardOffset = 0)
      dsimp only
      rw [heq]
      exact ⟨rfl, rfl, rfl, .inr rfl⟩
    · cases use with
      | espContext context => exact ⟨rfl, rfl, rfl, .inl ⟨t, context, hevent⟩⟩
      | usestats now bytes =>
        obtain ⟨use, soft, hard, heq⟩ := sa.updateUsestats_eq now bytes
        rw [SaUse.apply, heq]
        exact ⟨rfl, rfl, rfl, .inr rfl⟩
    · exact ⟨rfl, rfl, rfl, .inr rfl⟩
  | _ => trivial

/-- **What becomes of SAs in a step.** An SA that is there was there, or is a new one. -/
theorem sa_step (hok : ∀ j, Ok s.view j) (h : s.step createAead event = some s') {e' : SaEntry}
    (he' : s'.mgr.entries k = some e') :
    (∃ e, s.mgr.entries k = some e ∧ Kept event k e.sa e'.sa) ∨
      s.mgr.created ≤ k ∧ ∃ t args update sa, event = .call t (.addSa args update) ∧
        Sa.create createAead args = some sa ∧ Kept event k sa e'.sa := by
  obtain ⟨s₁, hs₁, hby⟩ := does_step createAead hok event
  obtain rfl := Option.some.inj (hs₁.symm.trans h)
  have hcell : s₁.view.cells k = some e'.cell := by
    rw [cells_view, he']
    rfl
  obtain ⟨c, hc, hkept, -⟩ | ⟨hnext, sa, ⟨t, args, update, hevent, hsa⟩, hkept⟩ :=
    hby.quiet (R := Kept event) (fun _ _ => ⟨rfl, rfl, rfl, .inr rfl⟩) Kept.trans (quiet_kept s event) hcell
  · obtain ⟨e, he, rfl⟩ := Option.map_eq_some_iff.mp hc
    exact .inl ⟨e, he, hkept⟩
  · exact .inr ⟨hnext, t, args, update, sa, hevent, hsa, hkept⟩

end SaMgr

end StrongSwan
