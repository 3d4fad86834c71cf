import StrongSwan.Ipsec.SaMgr.Threads

/-!
# The identity of SAs

SAs are found by their SPI and addresses, which `add_sa` keeps different, but `update_sa` does not.

* `Distinct`: no two installed SAs have the same SPI and addresses.
* `Fits`: if the section writes new addresses to an SA, no other one has them with the same SPI.
* `step_readdresses`, `addSa_cases`: what the two sections that may break `Distinct` do.
* **`triples_distinct_iff`**: `Distinct` holds along a run exactly when all its sections fit.
-/

namespace StrongSwan

open Handover (Ok By)

namespace SaMgr

variable {createAead : U16 → Chunk → U16 → Chunk → Option Aead} {spiHash : U32 → U32}
variable {s s' : State} {event : Event} {k : ℕ} {e : SaEntry}

/-- No two installed SAs have the same SPI and addresses. -/
def Distinct (m : SaMgr) : Prop :=
  ∀ k k' e e', k ∈ m.sas → k' ∈ m.sas → m.entries k = some e → m.entries k' = some e' →
    e.sa.sameTriple e'.sa = true → k = k'

/-- Every installed SA is the only one that is found by its SPI and addresses. -/
def Identified (m : SaMgr) : Prop :=
  Distinct m ∧ ∀ k e spi src dst, k ∈ m.sas → m.entries k = some e →
    e.sa.matchBySpiSrcDst spi src dst = true →
    m.findFirst (fun _ sa => sa.matchBySpiSrcDst spi src dst) m.sas = some (some k)

/-- No installed SA other than the one that gets new addresses has them, with the same SPI. -/
def Fits (s : State) (event : Event) : Prop :=
  ∀ k newSrc newDst e, Readdresses s event k newSrc newDst → s.mgr.entries k = some e →
    ∀ k' e', k' ∈ s.mgr.sas → k' ≠ k → s.mgr.entries k' = some e' →
      e'.sa.matchBySpiSrcDst e.sa.spi newSrc newDst = false

theorem lockEntry_updateSa {m : SaMgr} (he : m.entries k = some e) (hlocked : e.locked = false)
    (hdoomed : e.awaitsDeletion = false) (newSrc newDst : Host) :
    m.lockEntry (.updateSa newSrc newDst) k =
      some (m.setEntry k { e with sa := readdress newSrc newDst e.sa, locked := false },
        .returned (.status .success)) := by
  rw [lockEntry_free he hdoomed hlocked]
  simp [waitedForEntry, readdress]

variable (createAead) in
/-- **A section of `update_sa` that writes**: it changes the addresses of one SA. -/
theorem step_readdresses {newSrc newDst : Host} (h : Readdresses s event k newSrc newDst)
    (he : s.mgr.entries k = some e) : ∃ s' e', s.step createAead event = some s' ∧
      s'.mgr.sas = s.mgr.sas ∧ s'.mgr.entries k = some e' ∧
      e'.sa = readdress newSrc newDst e.sa ∧
      ∀ k', k' ≠ k → s'.mgr.entries k' = s.mgr.entries k' := by
  have hafter : ∀ e₁ : SaEntry, e₁.sa = readdress newSrc newDst e.sa →
      s.step createAead event =
        some (s.leave event.thread (s.mgr.setEntry k e₁, .returned (.status .success))) →
      ∃ s' e', s.step createAead event = some s' ∧ s'.mgr.sas = s.mgr.sas ∧
        s'.mgr.entries k = some e' ∧ e'.sa = readdress newSrc newDst e.sa ∧
        ∀ k', k' ≠ k → s'.mgr.entries k' = s.mgr.entries k' := fun e₁ hsa hstep =>
    ⟨_, _, hstep, rfl, entries_setEntry_self .., hsa, fun k' hk' => entries_setEntry_of_ne _ hk' _⟩
  cases h with
  | call hpc hfound he' hlocked hdoomed =>
    obtain rfl := Option.some.inj (he.symm.trans he')
    have hlock := lockEntry_updateSa he hlocked hdoomed newSrc newDst
    refine hafter ({ e with sa := readdress newSrc newDst e.sa, locked := false }) rfl ?_
    rw [State.step, hpc]
    simp only [call, updateSa, Bool.not_true, Bool.false_eq_true, if_false, hfound,
      Option.bind_eq_bind, Option.bind_some, hlock]
    rfl
  | resume hpc he' hlocked hdoomed =>
    obtain rfl := Option.some.inj (he.symm.trans he')
    have hlock := lockEntry_updateSa (entries_setEntry_self s.mgr k
      { e with waitingThreads := e.waitingThreads - 1 }) hlocked hdoomed newSrc newDst
    rw [setEntry_setEntry] at hlock
    refine hafter ({ e with
      sa := readdress newSrc newDst e.sa
      waitingThreads := e.waitingThreads - 1
      locked := false }) rfl ?_
    rw [State.step, hpc]
    simp only [resumeWaitForEntry, he, Option.bind_eq_bind, Option.bind_some, hlock]
    rfl

/-- **`add_sa`**: it installs nothing, or an SA whose SPI and addresses no installed one has. -/
theorem addSa_cases {m m' : SaMgr} {pc : Pc} {args : SaArgs} {update : Bool}
    (halloc : ∀ k ∈ m.sas, ∃ e, m.entries k = some e)
    (h : m.addSa createAead args update = some (m', pc)) :
    (m'.sas = m.sas ∧ m'.entries = m.entries) ∨
      ∃ sa, Sa.create createAead args = some sa ∧ m'.sas = m.created :: m.sas ∧
        m'.entries = Function.update m.entries m.created (some (.create sa)) ∧
        ∀ k ∈ m.sas, ∀ e, m.entries k = some e →
          e.sa.matchBySpiSrcDst args.spi args.src args.dst = false := by
  rw [addSa] at h
  cases hsa : Sa.create createAead args with
  | none =>
    rw [hsa] at h
    cases h
    exact .inl ⟨rfl, rfl⟩
  | some sa =>
    obtain ⟨spis, hspis⟩ : ∃ spis, (if update then
        { m with allocatedSpis := (m.allocatedSpis.remove args.spi).2 } else m) =
          { m with allocatedSpis := spis } := by
      cases update <;> exact ⟨_, rfl⟩
    obtain ⟨found, hfound, -, hnone⟩ := findFirst_spec (m := { m with allocatedSpis := spis })
      (p := fun _ sa => sa.matchBySpiSrcDst args.spi args.src args.dst) halloc
    simp only [hsa, hspis, hfound, Option.bind_eq_bind, Option.bind_some] at h
    cases found with
    | some k =>
      cases h
      exact .inl ⟨rfl, rfl⟩
    | none =>
      cases h
      exact .inr ⟨sa, rfl, rfl, rfl, hnone rfl⟩

/-- The SA keeps its SPI and addresses. -/
def SameTriple (_ : ℕ) (sa sa' : Sa) : Prop := sa'.spi = sa.spi ∧ sa'.src = sa.src ∧ sa'.dst = sa.dst

theorem SameTriple.trans {a b c : Sa} (h : SameTriple k a b) (h' : SameTriple k b c) :
    SameTriple k a c :=
  ⟨h'.1.trans h.1, h'.2.1.trans h.2.1, h'.2.2.trans h.2.2⟩

variable (createAead) in
theorem quiet_allowed (hread : ∀ k newSrc newDst, ¬Readdresses s event k newSrc newDst)
    (hadd : ∀ t args update, event ≠ .call t (.addSa args update)) (move : Handover.Move Sa)
    (h : Allowed createAead s event move) : Handover.Quiet (fun _ => False) SameTriple move := by
  cases move with
  | create sa =>
    obtain ⟨t, args, update, hevent, -⟩ := h
    exact absurd hevent (hadd _ _ _)
  | modify k f =>
    intro sa
    obtain hid | ⟨t, spi, hardOffset, -, rfl⟩ | ⟨t, use, -, -, rfl⟩ | ⟨newSrc, newDst, h, -⟩ := h
    · rw [hid]
      exact ⟨rfl, rfl, rfl⟩
    · obtain ⟨soft, hard, heq⟩ := sa.expire_eq (hardOffset = 0)
      dsimp only
      rw [heq]
      exact ⟨rfl, rfl, rfl⟩
    · cases use with
      | espContext context => exact ⟨rfl, rfl, rfl⟩
      | usestats now bytes =>
        obtain ⟨use, soft, hard, heq⟩ := sa.updateUsestats_eq now bytes
        rw [SaUse.apply, heq]
        exact ⟨rfl, rfl, rfl⟩
    · exact absurd h (hread _ _ _)
  | _ => trivial

theorem distinct_readdress {newSrc newDst : Host} (hdistinct : Distinct s.mgr)
    (hfits : Fits s event) (hread : Readdresses s event k newSrc newDst)
    (h : s.step createAead event = some s') : Distinct s'.mgr := by
  obtain ⟨e, he⟩ : ∃ e, s.mgr.entries k = some e := by
    cases hread with
    | call _ _ he _ _ => exact ⟨_, he⟩
    | resume _ he _ _ => exact ⟨_, he⟩
  obtain ⟨s₁, e', hs₁, hsas, he', hsa, hother⟩ := step_readdresses createAead hread he
  obtain rfl := Option.some.inj (hs₁.symm.trans h)
  have hnew : ∀ {j ej}, j ∈ s.mgr.sas → j ≠ k → s.mgr.entries j = some ej →
      e'.sa.sameTriple ej.sa = false := by
    intro j ej hj hne hej
    rw [hsa]
    exact hfits k newSrc newDst e hread he j ej hj hne hej
  intro k₁ k₂ e₁ e₂ hk₁ hk₂ he₁ he₂ hsame
  rw [hsas] at hk₁ hk₂
  by_cases h₁ : k₁ = k <;> by_cases h₂ : k₂ = k
  · rw [h₁, h₂]
  · subst h₁
    obtain rfl := Option.some.inj (he'.symm.trans he₁)
    rw [hother k₂ h₂] at he₂
    rw [hnew hk₂ h₂ he₂] at hsame
    cases hsame
  · subst h₂
    obtain rfl := Option.some.inj (he'.symm.trans he₂)
    rw [hother k₁ h₁] at he₁
    have hsame' := Sa.sameTriple_symm hsame
    rw [hnew hk₁ h₁ he₁] at hsame'
    cases hsame'
  · rw [hother k₁ h₁] at he₁
    rw [hother k₂ h₂] at he₂
    exact hdistinct k₁ k₂ e₁ e₂ hk₁ hk₂ he₁ he₂ hsame

theorem distinct_addSa {m m' : SaMgr} {pc : Pc} {args : SaArgs} {update : Bool}
    (halloc : ∀ k ∈ m.sas, ∃ e, m.entries k = some e) (hnew : m.created ∉ m.sas)
    (hdistinct : Distinct m) (h : m.addSa createAead args update = some (m', pc)) :
    Distinct m' := by
  obtain ⟨hsas, hentries⟩ | ⟨sa, hsa, hsas, hentries, hnone⟩ := addSa_cases halloc h
  · unfold Distinct
    rw [hsas, hentries]
    exact hdistinct
  have hself : m'.entries m.created = some (.create sa) := by
    rw [hentries, Function.update_self]
  have hother : ∀ {k}, k ∈ m.sas → m'.entries k = m.entries k := by
    intro k hk
    rw [hentries, Function.update_of_ne (ne_of_mem_of_not_mem hk hnew)]
  have hdiffers : ∀ {k e}, k ∈ m.sas → m.entries k = some e → sa.sameTriple e.sa = false := by
    intro k e hk he
    obtain ⟨hspi, hsrc, hdst, -⟩ := Sa.create_eq hsa
    rw [Sa.sameTriple, hspi, hsrc, hdst]
    exact hnone k hk e he
  intro k₁ k₂ e₁ e₂ hk₁ hk₂ he₁ he₂ hsame
  rw [hsas] at hk₁ hk₂
  obtain rfl | hk₁ := List.mem_cons.mp hk₁ <;> obtain rfl | hk₂ := List.mem_cons.mp hk₂
  · rfl
  · obtain rfl := Option.some.inj (hself.symm.trans he₁)
    rw [hother hk₂] at he₂
    rw [SaEntry.create, hdiffers hk₂ he₂] at hsame
    cases hsame
  · obtain rfl := Option.some.inj (hself.symm.trans he₂)
    rw [hother hk₁] at he₁
    have hsame' := Sa.sameTriple_symm hsame
    rw [SaEntry.create, hdiffers hk₁ he₁] at hsame'
    cases hsame'
  · rw [hother hk₁] at he₁
    rw [hother hk₂] at he₂
    exact hdistinct k₁ k₂ e₁ e₂ hk₁ hk₂ he₁ he₂ hsame

/-- **A section that fits keeps the SAs distinct.** -/
theorem distinct_step (hok : ∀ j, Ok s.view j) (hdistinct : Distinct s.mgr) (hfits : Fits s event)
    (h : s.step createAead event = some s') : Distinct s'.mgr := by
  by_cases hread : ∃ k newSrc newDst, Readdresses s event k newSrc newDst
  · obtain ⟨k, newSrc, newDst, hread⟩ := hread
    exact distinct_readdress hdistinct hfits hread h
  by_cases hadd : ∃ t args update, event = .call t (.addSa args update)
  · obtain ⟨t, args, update, rfl⟩ := hadd
    rw [State.step] at h
    split at h
    · obtain ⟨left, hleft, rfl⟩ := Option.map_eq_some_iff.mp h
      exact distinct_addSa (exists_entry hok) ((hok _).fresh le_rfl).1 hdistinct hleft
    · rwa [← Option.some.inj h]
  have hquiet := quiet_allowed createAead (fun k src dst h => hread ⟨k, src, dst, h⟩)
    fun t args update h => hadd ⟨t, args, update, h⟩
  obtain ⟨s₁, hs₁, hby⟩ := does_step createAead hok event
  obtain rfl := Option.some.inj (hs₁.symm.trans h)
  -- what is installed was installed with the same triple
  have hold : ∀ {k e'}, k ∈ s₁.mgr.sas → s₁.mgr.entries k = some e' →
      k ∈ s.mgr.sas ∧ ∃ e, s.mgr.entries k = some e ∧ SameTriple k e.sa e'.sa := by
    intro k e' hk he'
    have hcell : s₁.view.cells k = some e'.cell := by
      rw [cells_view, he']
      rfl
    obtain ⟨c, hc, hsame, hlinked⟩ | ⟨-, x, hx, -⟩ := hby.quiet (R := SameTriple)
      (fun _ _ => ⟨rfl, rfl, rfl⟩) SameTriple.trans hquiet hcell
    swap
    · exact absurd hx id
    obtain ⟨e, he, rfl⟩ := Option.map_eq_some_iff.mp hc
    exact ⟨hlinked hk, e, he, hsame⟩
  intro k k' e e' hk hk' he he' hsame
  obtain ⟨hk, e₁, he₁, h₁⟩ := hold hk he
  obtain ⟨hk', e₂, he₂, h₂⟩ := hold hk' he'
  refine hdistinct k k' e₁ e₂ hk hk' he₁ he₂ ?_
  rwa [← Sa.sameTriple_congr h₁ h₂]

/-- **A section that does not fit makes two SAs the same.** -/
theorem not_distinct_step (hok : ∀ j, Ok s.view j) (hfits : ¬Fits s event)
    (h : s.step createAead event = some s') : ¬Distinct s'.mgr := by
  unfold Fits at hfits
  push Not at hfits
  obtain ⟨k, newSrc, newDst, e, hread, he, k', e₂, hk', hne, he₂, hmatch⟩ := hfits
  have hk : k ∈ s.mgr.sas := by
    cases hread with
    | call _ hfound _ _ _ =>
      obtain ⟨_, hfound', hsome, -⟩ := findFirst_spec (exists_entry hok)
        (p := fun _ sa => sa.matchBySpiSrcDst _ _ _)
      exact (hsome k (Option.some.inj (hfound'.symm.trans hfound))).1
    | @resume t _ _ _ _ hpc _ _ _ => exact (hok k).waiting (t := t) (congrArg Pc.role hpc)
  obtain ⟨s₁, e', hs₁, hsas, he', hsa, hother⟩ := step_readdresses createAead hread he
  obtain rfl := Option.some.inj (hs₁.symm.trans h)
  intro hdistinct
  refine hne (hdistinct k' k e₂ e' (hsas ▸ hk') (hsas ▸ hk) ((hother k' hne).trans he₂) he'
    (Sa.sameTriple_symm ?_))
  rw [hsa]
  exact Bool.ne_false_iff.mp hmatch

theorem identified_of_distinct (hok : ∀ j, Ok s.view j) (h : Distinct s.mgr) :
    Identified s.mgr := by
  refine ⟨h, fun k e spi src dst hk he hmatch => ?_⟩
  obtain ⟨found, hfound, hsome, hnone⟩ := findFirst_spec (exists_entry hok)
    (p := fun _ sa => sa.matchBySpiSrcDst spi src dst)
  rw [hfound]
  cases found with
  | none =>
    rw [hnone rfl k hk e he] at hmatch
    cases hmatch
  | some k' =>
    obtain ⟨hk', e', he', hmatch'⟩ := hsome k' rfl
    rw [h k k' e e' hk hk' he he' (Sa.sameTriple_of_match hmatch hmatch')]

/-- **The identity of SAs.** Along any sequence of sections of any calls, in every state no two
installed SAs have the same SPI and addresses, and each is the one that is found by them, exactly
when no section writes new addresses to an SA that another one has already, with the same SPI. -/
theorem triples_distinct_iff (events : List Event) :
    (∀ es es' s, events = es ++ es' → LTS.Run (system createAead spiHash) es s →
      Identified s.mgr) ↔
      ∀ es event es' s, events = es ++ event :: es' → LTS.Run (system createAead spiHash) es s →
        Fits s event := by
  constructor
  · intro hall es event es' s hevents hrun
    by_contra hfits
    have hok := ok_run hrun
    obtain ⟨s', hstep, -⟩ := does_step createAead hok event
    obtain ⟨s₀, hs₀, hsteps⟩ := hrun
    refine not_distinct_step hok hfits hstep (hall (es ++ [event]) es' s' ?_ ?_).1
    · rw [hevents, List.append_assoc, List.singleton_append]
    · exact ⟨s₀, hs₀, hsteps.snoc hstep⟩
  · intro hfits es es' s hevents hrun
    refine identified_of_distinct (ok_run hrun) ?_
    induction es using List.reverseRecOn generalizing s es' with
    | nil =>
      obtain ⟨s₀, rfl, hsteps⟩ := hrun
      obtain rfl := LTS.steps_nil.mp hsteps
      intro k k' e e' hk
      cases hk
    | append_singleton es event ih =>
      obtain ⟨s₀, hs₀, hsteps⟩ := hrun
      obtain ⟨s₁, hsteps, hstep⟩ := LTS.steps_snoc.mp hsteps
      have hevents' : events = es ++ event :: es' := by
        rw [hevents, List.append_assoc, List.singleton_append]
      have hrun₁ : LTS.Run (system createAead spiHash) es s₁ := ⟨s₀, hs₀, hsteps⟩
      exact distinct_step (ok_run hrun₁) (ih (event :: es') s₁ hevents' hrun₁)
        (hfits es event es' s₁ hevents' hrun₁) hstep

/-- Two SAs to different peers have the same SPI, and the first peer moves to the address of the
second one: then both SAs have the same SPI and addresses, and only the newer one is found. -/
theorem not_identified :
    let host := fun last : U8 => (⟨.inet, [10, 0, 0, last], 0, rfl⟩ : Host)
    let createAead := fun _ _ _ _ => some (EspPacket.nullAead 4)
    ∃ s, LTS.Run (system createAead id) [
        .call 0 (.addSa (.plain 7 (host 1) (host 2) false) false),
        .call 0 (.addSa (.plain 7 (host 1) (host 3) false) false),
        .call 0 (.updateSa 7 (host 1) (host 2) (host 1) (host 3) true)] s ∧
      s.mgr.sas = [1, 0] ∧ s.mgr.findFirst
        (fun _ sa => sa.matchBySpiSrcDst 7 (host 1) (host 3)) s.mgr.sas = some (some 1) ∧
      ¬Identified s.mgr := by
  intro host createAead
  refine ⟨_, ⟨_, rfl, LTS.steps_ofOption.mpr rfl⟩, rfl, rfl, fun h => ?_⟩
  have heq := h.1 0 1 _ _ (by decide) (by decide) rfl rfl (by decide)
  cases heq

end SaMgr

end StrongSwan
