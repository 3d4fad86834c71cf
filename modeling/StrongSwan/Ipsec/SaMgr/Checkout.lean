import StrongSwan.Ipsec.SaMgr.Threads

/-!
# Checkout and deletion of SAs

* `ok_run` gives what holds of an entry in every state, `does_step` what a step does to it.
* `held_step`: a thread gives nothing back in a step that removes an entry.
* **`checkout_exclusive`**: threads never share an SA, and an entry is removed once, when nobody
  else uses it.
-/

namespace StrongSwan

/-- The entry a thread waits on. -/
def Pc.waitsOn : Pc → Option ℕ
  | .waitForEntry _ entry => some entry
  | .waitRemoveEntry _ _ current => some current
  | _ => none

/-- The element at which a thread has an enumerator open. -/
def Pc.enumerator : Pc → Option ℕ
  | .waitRemoveEntry _ _ current => some current
  | _ => none

theorem Pc.key_role_of_waitsOn {pc : Pc} {k : ℕ} (h : pc.waitsOn = some k) :
    pc.role.key = some k := by
  cases pc with
  | waitForEntry _ _ => exact h
  | waitRemoveEntry _ loop _ => cases loop <;> exact h
  | _ => cases h

open Handover (Ok By)

namespace SaMgr

variable {createAead : U16 → Chunk → U16 → Chunk → Option Aead} {spiHash : U32 → U32}
variable {s s' : State} {event : Event} {k : ℕ}

/-- The entry is not locked, and no thread other than `t` waits on it. -/
def Unused (s : State) (t k : ℕ) : Prop :=
  (∃ e, s.mgr.entries k = some e ∧ e.locked = false) ∧
    ∀ t', t' ≠ t → (s.threads t').pc.waitsOn ≠ some k

theorem held_step (h : s.step createAead event = some s') :
    (s.threads event.thread).held ⊆ (s'.threads event.thread).held ∨
      s'.mgr.sas = s.mgr.sas ∧ ∀ j, s'.mgr.entries j = none → s.mgr.entries j = none := by
  have hleave : ∀ {t : ℕ} {x : Option (SaMgr × Pc)}, x.map (s.leave t) = some s' →
      (s.threads t).held ⊆ (s'.threads t).held := by
    intro t x hx
    obtain ⟨left, -, rfl⟩ := Option.map_eq_some_iff.mp hx
    rw [State.threads_leave_self]
    exact Finset.subset_union_right
  have hset : ∀ {m : SaMgr} {k : ℕ} {e : SaEntry}, ∀ j, (m.setEntry k e).entries j = none →
      m.entries j = none := by
    intro m k e j hj
    by_cases hjk : j = k
    · subst hjk
      rw [entries_setEntry_self] at hj
      cases hj
    · rwa [entries_setEntry_of_ne _ hjk] at hj
  cases event with
  | call t call =>
    rw [State.step] at h
    split at h
    · exact .inl (hleave h)
    · exact .inl (Option.some.inj h ▸ subset_rfl)
  | resume t =>
    rw [State.step] at h
    split at h
    · exact .inl (hleave h)
    · exact .inl (hleave h)
    · exact .inl (Option.some.inj h ▸ subset_rfl)
  | destroyFound t =>
    rw [State.step] at h
    split at h
    · exact .inl (hleave h)
    · exact .inl (Option.some.inj h ▸ subset_rfl)
  | checkin t entry =>
    rw [State.step] at h
    split_ifs at h
    · obtain ⟨m, hm, hs'⟩ := Option.bind_eq_some_iff.mp h
      rw [← Option.some.inj hs']
      rw [checkin] at hm
      obtain ⟨found, -, hm⟩ := Option.bind_eq_some_iff.mp hm
      cases found with
      | none => exact .inr (by rw [Option.some.inj hm]; exact ⟨rfl, fun _ => id⟩)
      | some k =>
        obtain ⟨e, -, hm⟩ := Option.bind_eq_some_iff.mp hm
        split_ifs at hm
        · exact .inr (by rw [← Option.some.inj hm]; exact ⟨rfl, hset⟩)
        · exact .inr (by rw [Option.some.inj hm]; exact ⟨rfl, fun _ => id⟩)
    · exact .inl (Option.some.inj h ▸ subset_rfl)
  | use t entry use =>
    rw [State.step] at h
    split_ifs at h
    · obtain ⟨e, -, hs'⟩ := Option.bind_eq_some_iff.mp h
      rw [← Option.some.inj hs']
      exact .inl subset_rfl
    · exact .inl (Option.some.inj h ▸ subset_rfl)

theorem unused_of_step (hok : Ok s.view k) (h : s.step createAead event = some s') {e : SaEntry}
    (he : s.mgr.entries k = some e)
    (hgone : k ∈ s.mgr.sas ∧ k ∉ s'.mgr.sas ∨ s'.mgr.entries k = none) (hok' : Ok s'.view k) :
    Unused s event.thread k := by
  have hcell : s.view.cells k = some e.cell := by
    rw [cells_view, he]
    rfl
  -- after the step nobody refers to the entry but the thread that removed it
  have hdead : ∀ t', k ∈ (s'.threads t').held ∨ t' ≠ event.thread ∧
      (s'.threads t').pc.waitsOn = some k → False := by
    intro t' ht'
    have halive := hok'.alive (t := t') (ht'.imp_right fun ht' => Pc.key_role_of_waitsOn ht'.2)
    obtain ⟨c, hc⟩ := halive
    have hgone' : k ∉ s'.mgr.sas := by
      obtain ⟨-, hgone⟩ | hgone := hgone
      · exact hgone
      · rw [cells_view, hgone] at hc
        cases hc
    obtain hheld | ⟨-, hwaits⟩ := ht'
    · exact hgone' (hok'.held (t := t') hheld hc).1
    · cases hpc : (s'.threads t').pc with
      | waitForEntry caller k' =>
        rw [hpc] at hwaits
        obtain rfl := Option.some.inj hwaits
        exact hgone' (hok'.waiting (t := t') (congrArg Pc.role hpc))
      | waitRemoveEntry caller loop k' =>
        rw [hpc] at hwaits
        obtain rfl := Option.some.inj hwaits
        have hrole := congrArg Pc.role hpc
        cases loop with
        | locked => exact hgone' (hok'.removing (t := t') (.inl hrole) hc).1
        | waiting => exact hgone' (hok'.removing (t := t') (.inr hrole) hc).1
      | returned _ =>
        rw [hpc] at hwaits
        cases hwaits
      | found _ =>
        rw [hpc] at hwaits
        cases hwaits
  refine ⟨⟨e, he, ?_⟩, fun t' hne hwaits => ?_⟩
  · by_contra hlocked
    obtain ⟨t', ht'⟩ := hok.locked hcell (by simpa [SaEntry.cell] using hlocked)
    by_cases hne : t' = event.thread
    · subst hne
      obtain hsub | ⟨hsas, hentries⟩ := held_step h
      · exact hdead _ (.inl (hsub ht'))
      · obtain ⟨hk, hk'⟩ | hnone := hgone
        · exact hk' (hsas ▸ hk)
        · rw [hentries k hnone] at he
          cases he
    · refine hdead t' (.inl ?_)
      rw [threads_step h hne]
      exact ht'
  · refine hdead t' (.inr ⟨hne, ?_⟩)
    rw [threads_step h hne]
    exact hwaits

theorem removed_run (hok : ∀ j, Ok s.view j) {events : List Event} {s'' : State}
    (h : LTS.Steps (system createAead spiHash) s events s'') (hk : k < s.mgr.created) :
    (k ∉ s.mgr.sas → k ∉ s''.mgr.sas) ∧ (s.mgr.entries k = none → s''.mgr.entries k = none) := by
  have hinv := h.preserves (C := fun _ => True)
    (I := fun s' => (∀ j, Ok s'.view j) ∧ k < s'.mgr.created ∧
      (k ∉ s.mgr.sas → k ∉ s'.mgr.sas) ∧ (s.mgr.entries k = none → s'.mgr.entries k = none))
    ?_ (fun _ _ => trivial) ⟨hok, hk, id, id⟩
  · exact hinv.2.2
  rintro s₁ event s₂ - ⟨hok₁, hk₁, hsas, hentries⟩ hstep
  obtain ⟨s₃, hs₃, hby⟩ := does_step createAead hok₁ event
  obtain rfl := Option.some.inj (hs₃.symm.trans hstep)
  obtain ⟨hnext, hlinked, hcells⟩ := hby.removed hk₁
  refine ⟨hby.ok hok₁, hnext, fun hnot => hlinked (hsas hnot), fun hnone => ?_⟩
  rw [cells_view, cells_view, Option.map_eq_none_iff, Option.map_eq_none_iff] at hcells
  exact hcells (hentries hnone)

/-- **SA checkout is exclusive and safe against deletion.** In every state of every run of any
number of threads, every section is defined, so none uses an entry or a list element that was freed;
an SA that a thread has checked out is installed, locked and held by no other thread; the entries
that threads wait on are allocated, and the enumerators they left open are at elements of the list.
A section that unlinks or destroys an entry finds it allocated, not locked and with no other thread
waiting on it, destroys no installed entry, and from then on the entry is never in the list again, or
never allocated again. -/
theorem checkout_exclusive {events : List Event}
    (h : LTS.Run (system createAead spiHash) events s) :
    (∀ event, ∃ s', s.step createAead event = some s') ∧
      (∀ t t' k, k ∈ (s.threads t).held → k ∈ (s.threads t').held → t = t') ∧
      (∀ t k, k ∈ (s.threads t).held → k ∈ s.mgr.sas ∧
        ∃ e, s.mgr.entries k = some e ∧ e.locked = true) ∧
      (∀ t k, (s.threads t).pc.waitsOn = some k → ∃ e, s.mgr.entries k = some e) ∧
      (∀ t k, (s.threads t).pc.enumerator = some k → k ∈ s.mgr.sas) ∧
      ∀ event s' k, s.step createAead event = some s' →
        (k ∈ s.mgr.sas → k ∉ s'.mgr.sas → Unused s event.thread k ∧
          ∀ events' s'', LTS.Steps (system createAead spiHash) s' events' s'' → k ∉ s''.mgr.sas) ∧
        ∀ e, s.mgr.entries k = some e → s'.mgr.entries k = none → Unused s event.thread k ∧
          k ∉ s'.mgr.sas ∧ ∀ events' s'',
            LTS.Steps (system createAead spiHash) s' events' s'' → s''.mgr.entries k = none := by
  have hok := ok_run h
  have hentry : ∀ {k c}, s.view.cells k = some c → ∃ e, s.mgr.entries k = some e ∧ e.cell = c :=
    fun hc => Option.map_eq_some_iff.mp hc
  refine ⟨fun event => ?_, fun t t' k => (hok k).holder, fun t k hk => ?_, fun t k hk => ?_,
    fun t k hk => ?_, fun event s' k hstep => ?_⟩
  · obtain ⟨s', hs', -⟩ := does_step createAead hok event
    exact ⟨s', hs'⟩
  · obtain ⟨c, hc⟩ := (hok k).alive (t := t) (.inl hk)
    obtain ⟨hlinked, hlocked⟩ := (hok k).held (t := t) hk hc
    obtain ⟨e, he, rfl⟩ := hentry hc
    exact ⟨hlinked, e, he, hlocked⟩
  · obtain ⟨c, hc⟩ := (hok k).alive (t := t) (.inr (Pc.key_role_of_waitsOn hk))
    obtain ⟨e, he, -⟩ := hentry hc
    exact ⟨e, he⟩
  · cases hpc : (s.threads t).pc with
    | waitRemoveEntry caller loop current =>
      rw [hpc] at hk
      obtain rfl := Option.some.inj hk
      have hrole := congrArg Pc.role hpc
      obtain ⟨c, hc⟩ := (hok current).alive (t := t) (.inr (Pc.key_role_of_waitsOn
        (by rw [hpc]; rfl)))
      cases loop with
      | locked => exact ((hok current).removing (t := t) (.inl hrole) hc).1
      | waiting => exact ((hok current).removing (t := t) (.inr hrole) hc).1
    | returned _ =>
      rw [hpc] at hk
      cases hk
    | waitForEntry _ _ =>
      rw [hpc] at hk
      cases hk
    | found _ =>
      rw [hpc] at hk
      cases hk
  · obtain ⟨s₁, hs₁, hby⟩ := does_step createAead hok event
    obtain rfl := Option.some.inj (hs₁.symm.trans hstep)
    have hok' := hby.ok hok
    have hremoved : ∀ {e}, s.mgr.entries k = some e → k < s₁.mgr.created := fun he =>
      (hby.removed (lt_created (hok k) he)).1
    refine ⟨fun hk hk' => ?_, fun e he hnone => ?_⟩
    · obtain ⟨c, hc⟩ := (hok k).linked hk
      obtain ⟨e, he, -⟩ := hentry hc
      exact ⟨unused_of_step (hok k) hstep he (.inl ⟨hk, hk'⟩) (hok' k), fun events' s'' hrun =>
        (removed_run hok' hrun (hremoved he)).1 hk'⟩
    · refine ⟨unused_of_step (hok k) hstep he (.inr hnone) (hok' k), fun hk' => ?_,
        fun events' s'' hrun => (removed_run hok' hrun (hremoved he)).2 hnone⟩
      obtain ⟨c, hc⟩ := (hok' k).linked hk'
      rw [cells_view, hnone] at hc
      cases hc

/-- One thread checks an SA out, another one deletes it. -/
theorem checkout_exclusive_del :
    let host := fun last : U8 => (⟨.inet, [10, 0, 0, last], 0, rfl⟩ : Host)
    let createAead := fun _ _ _ _ => some (EspPacket.nullAead 4)
    let events := [.call 0 (.addSa (.plain 7 (host 1) (host 2) true) false),
      .call 0 (.checkoutBySpi 7 (host 2)), .call 1 (.delSa (host 1) (host 2) 7), .checkin 0 0]
    ∃ s s', LTS.Run (system createAead id) events s ∧
      s.step createAead (.resume 1) = some s' ∧ 0 ∈ s.mgr.sas ∧ 0 ∉ s'.mgr.sas ∧
      Unused s 1 0 ∧ ∀ events' s'', LTS.Steps (system createAead id) s' events' s'' →
        0 ∉ s''.mgr.sas := by
  intro host createAead events
  obtain ⟨s, s', hs, hstep, hlinked, hunlinked⟩ : ∃ s s',
      events.foldlM (State.step createAead) (State.init id) = some s ∧
        s.step createAead (.resume 1) = some s' ∧ 0 ∈ s.mgr.sas ∧ 0 ∉ s'.mgr.sas :=
    ⟨_, _, rfl, rfl, by decide, by decide⟩
  have hrun : LTS.Run (system createAead id) events s := ⟨_, rfl, LTS.steps_ofOption.mpr hs⟩
  have hsafe := (checkout_exclusive hrun).2.2.2.2.2 (.resume 1) s' 0 hstep
  exact ⟨s, s', hrun, hstep, hlinked, hunlinked, hsafe.1 hlinked hunlinked⟩

end SaMgr

end StrongSwan
