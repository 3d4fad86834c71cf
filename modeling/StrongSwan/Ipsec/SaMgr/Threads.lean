import StrongSwan.Ipsec.SaMgr
import StrongSwan.Lib.Handover

/-!
# Threads that share the SA manager

`State` is the manager with any number of threads, in calls, in waits or between them, and with the
SAs they have checked out. A step is a section of one thread under the mutex.

* `State.view`: the manager as objects that threads hand over, with the entries as their cells.
* `Does`: a section succeeds and makes moves of the handover only, with one lemma per function.
* **`does_step`**: so does every step.
-/

namespace StrongSwan

def Pc.checkedOut : Pc → Finset ℕ
  | .returned (.sa (some entry)) => {entry}
  | _ => ∅

/-- What a thread does with an SA that it has checked out. -/
inductive SaUse
  | espContext (espContext : EspContext Aead)
  | usestats (now : U64) (bytes : U32)

def SaUse.apply : SaUse → Sa → Sa
  | .espContext context, sa => { sa with espContext := context }
  | .usestats now bytes, sa => sa.updateUsestats now bytes

open Handover (Role Move By Ok)

/-- What a thread does while it does not hold the mutex. -/
def Pc.role : Pc → Role
  | .returned _ => .idle
  | .waitForEntry _ entry => .waiting entry
  | .waitRemoveEntry _ .locked current => .removing current
  | .waitRemoveEntry _ .waiting current => .draining current
  | .found entry => .owning entry

/-- The entry as an object with the fields that guard it. -/
def SaEntry.cell (e : SaEntry) : Handover.Cell Sa :=
  ⟨e.sa, e.locked, e.waitingThreads, e.awaitsDeletion⟩

namespace SaMgr

structure Thread where
  pc : Pc
  /-- the SAs it has checked out -/
  held : Finset ℕ

structure State where
  mgr : SaMgr
  threads : ℕ → Thread

inductive Event
  | call (thread : ℕ) (call : Call)
  | resume (thread : ℕ)
  | destroyFound (thread : ℕ)
  | checkin (thread entry : ℕ)
  | use (thread entry : ℕ) (use : SaUse)

def Event.thread : Event → ℕ
  | .call t _ | .resume t | .destroyFound t | .checkin t _ | .use t _ _ => t

variable (createAead : U16 → Chunk → U16 → Chunk → Option Aead) (spiHash : U32 → U32)

namespace State

/-- The state when a thread has left the mutex. -/
def leave (s : State) (t : ℕ) (left : SaMgr × Pc) : State where
  mgr := left.1
  threads := Function.update s.threads t ⟨left.2, left.2.checkedOut ∪ (s.threads t).held⟩

@[simp] theorem threads_leave_self (s : State) (t : ℕ) (left : SaMgr × Pc) :
    (s.leave t left).threads t = ⟨left.2, left.2.checkedOut ∪ (s.threads t).held⟩ :=
  Function.update_self ..

/-- One section of a thread. A thread that is not in the place for an event stays where it is. -/
def step (s : State) : Event → Option State
  | .call t call =>
    match (s.threads t).pc with
    | .returned _ => (s.mgr.call createAead call).map (s.leave t)
    | _ => some s
  | .resume t =>
    match (s.threads t).pc with
    | .waitForEntry caller entry => (s.mgr.resumeWaitForEntry caller entry).map (s.leave t)
    | .waitRemoveEntry caller loop current =>
      (s.mgr.resumeWaitRemoveEntry caller loop current).map (s.leave t)
    | _ => some s
  | .destroyFound t =>
    match (s.threads t).pc with
    | .found entry => (s.mgr.destroyFound entry).map (s.leave t)
    | _ => some s
  | .checkin t entry =>
    if entry ∈ (s.threads t).held then do
      let mgr ← s.mgr.checkin entry
      let thread := { s.threads t with held := (s.threads t).held.erase entry }
      some ⟨mgr, Function.update s.threads t thread⟩
    else some s
  | .use t entry use =>
    if entry ∈ (s.threads t).held then do
      let e ← s.mgr.entries entry
      some { s with mgr := s.mgr.setEntry entry { e with sa := use.apply e.sa } }
    else some s

def init : State := ⟨create spiHash, fun _ => ⟨.returned (.status .success), ∅⟩⟩

end State

/-- The manager with its threads; steps into undefined behaviour have no successor. -/
def system : LTS.System State Event :=
  LTS.ofOption (· = State.init spiHash) (State.step createAead)

/-! ## The handover -/

/-- The manager as a state of the handover, when threads do and hold what is given. -/
def view (m : SaMgr) (role : ℕ → Role) (held : ℕ → Finset ℕ) : Handover.State ℕ Sa where
  cells k := (m.entries k).map SaEntry.cell
  linked := m.sas
  next := m.created
  role := role
  held := held

def State.view (s : State) : Handover.State ℕ Sa :=
  s.mgr.view (fun t => (s.threads t).pc.role) fun t => (s.threads t).held

theorem cells_view (s : State) (k : ℕ) : s.view.cells k = (s.mgr.entries k).map SaEntry.cell := rfl

section Sections

/-! A section of thread `t`, which finds the other threads in their roles. -/

variable (role : ℕ → Role) (held : ℕ → Finset ℕ) (t : ℕ) (C : Move Sa → Prop)

/-- The state within the section, with what the thread itself does and holds. -/
def within (m : SaMgr) (r : Role) (h : Finset ℕ) : Handover.State ℕ Sa :=
  m.view (Function.update role t r) (Function.update held t h)

/-- **The rest of a section succeeds**, and gets from the given state to the one it leaves by moves
of the handover. -/
def Does (a : Handover.State ℕ Sa) (x : Option (SaMgr × Pc)) : Prop :=
  ∃ m pc, x = some (m, pc) ∧
    By C t a (within role held t m pc.role (pc.checkedOut ∪ held t))

variable {role held t C}

theorem Does.by {a b : Handover.State ℕ Sa} {x : Option (SaMgr × Pc)} (h : By C t a b)
    (hx : Does role held t C b x) : Does role held t C a x := by
  obtain ⟨m, pc, hx, hb⟩ := hx
  exact ⟨m, pc, hx, h.trans hb⟩

theorem Does.leave (m : SaMgr) (pc : Pc) {h : Finset ℕ} (hh : pc.checkedOut ∪ held t = h) :
    Does role held t C (within role held t m pc.role h) (some (m, pc)) := by
  refine ⟨m, pc, rfl, ?_⟩
  rw [hh]
  exact By.refl _

variable {m : SaMgr} {r : Role} {h : Finset ℕ} {k : ℕ} {e : SaEntry}

theorem cells_within (he : m.entries k = some e) :
    (within role held t m r h).cells k = some e.cell :=
  congrArg (Option.map SaEntry.cell) he

theorem entry_of_cells {c : Handover.Cell Sa} (hc : (within role held t m r h).cells k = some c) :
    ∃ e, m.entries k = some e ∧ e.cell = c := Option.map_eq_some_iff.mp hc

theorem cells_setEntry (m : SaMgr) (k : ℕ) (e : SaEntry) :
    (fun j => ((m.setEntry k e).entries j).map SaEntry.cell) =
      Function.update (fun j => (m.entries j).map SaEntry.cell) k (some e.cell) := by
  funext j
  by_cases hj : j = k
  · subst hj
    simp [setEntry]
  · simp [setEntry, hj]

theorem role_within : (within role held t m r h).role t = r := Function.update_self ..

theorem held_within : (within role held t m r h).held t = h := Function.update_self ..

/-! ### Moves within a section -/

/-- The moves of a section may be any that keep the SAs. -/
def Free (C : Move Sa → Prop) : Prop :=
  ∀ move, Handover.Quiet (fun _ => False) (fun _ sa sa' => sa' = sa) move → C move

theorem by_of_eq {move : Move Sa} {a b b' : Handover.State ℕ Sa} (hC : C move)
    (hstep : Handover.Step a (t, move) b') (hb : b = b') : By C t a b := by
  subst hb
  exact By.single hC hstep

variable (role held t)

theorem by_acquire (hC : Free C) (hk : k ∈ m.sas) (he : m.entries k = some e)
    (hlocked : e.locked = false) (hdoomed : e.awaitsDeletion = false) :
    By C t (within role held t m r h)
      (within role held t (m.setEntry k { e with locked := true }) r (insert k h)) := by
  refine by_of_eq (hC (.acquire k) trivial)
    (Handover.Step.acquire hk (cells_within he) hlocked hdoomed) ?_
  simp [within, view, cells_setEntry, Handover.State.setCell, Handover.State.setHeld, SaEntry.cell]

theorem by_release (hC : Free C) (hk : k ∈ h) (he : m.entries k = some e) :
    By C t (within role held t m r h)
      (within role held t (m.setEntry k { e with locked := false }) r (h.erase k)) := by
  refine by_of_eq (hC (.release k) trivial)
    (Handover.Step.release (held_within ▸ hk) (cells_within he)) ?_
  simp [within, view, cells_setEntry, Handover.State.setCell, Handover.State.setHeld, SaEntry.cell]

theorem by_wait (hC : Free C) (hk : k ∈ m.sas) (he : m.entries k = some e) :
    By C t (within role held t m .idle h) (within role held t
      (m.setEntry k { e with waitingThreads := e.waitingThreads + 1 }) (.waiting k) h) := by
  refine by_of_eq (hC (.wait k) trivial)
    (Handover.Step.wait role_within hk (cells_within he)) ?_
  simp [within, view, cells_setEntry, Handover.State.setCell, Handover.State.setRole, SaEntry.cell]

theorem by_wake (hC : Free C) (he : m.entries k = some e) :
    By C t (within role held t m (.waiting k) h) (within role held t
      (m.setEntry k { e with waitingThreads := e.waitingThreads - 1 }) .idle h) := by
  refine by_of_eq (hC (.wake k) trivial) (Handover.Step.wake role_within (cells_within he)) ?_
  simp [within, view, cells_setEntry, Handover.State.setCell, Handover.State.setRole, SaEntry.cell]

theorem by_doom (hC : Free C) (hk : k ∈ m.sas) (he : m.entries k = some e)
    (hdoomed : e.awaitsDeletion = false) :
    By C t (within role held t m .idle h) (within role held t
      (m.setEntry k { e with awaitsDeletion := true }) (.removing k) h) := by
  refine by_of_eq (hC (.doom k) trivial)
    (Handover.Step.doom role_within hk (cells_within he) hdoomed) ?_
  simp [within, view, cells_setEntry, Handover.State.setCell, Handover.State.setRole, SaEntry.cell]

theorem by_drain (hC : Free C) (he : m.entries k = some e) (hlocked : e.locked = false) :
    By C t (within role held t m (.removing k) h) (within role held t m (.draining k) h) := by
  refine by_of_eq (hC (.drain k) trivial)
    (Handover.Step.drain role_within (cells_within he) hlocked) ?_
  simp [within, view, Handover.State.setRole]

theorem by_unlink (hC : Free C) (he : m.entries k = some e) (hwaiting : e.waitingThreads = 0) :
    By C t (within role held t m (.draining k) h)
      (within role held t { m with sas := m.sas.erase k } (.owning k) h) := by
  refine by_of_eq (hC (.unlink k) trivial)
    (Handover.Step.unlink role_within (cells_within he) hwaiting) ?_
  simp [within, view, Handover.State.setRole, Handover.State.setLinked]

theorem by_destroy (hC : Free C) :
    By C t (within role held t m (.owning k) h) (within role held t
      { m with entries := Function.update m.entries k none } .idle h) := by
  refine by_of_eq (hC (.destroy k) trivial) (Handover.Step.destroy role_within) ?_
  have hcells : (fun j => (Function.update m.entries k none j).map SaEntry.cell) =
      Function.update (fun j => (m.entries j).map SaEntry.cell) k none := by
    funext j
    by_cases hj : j = k
    · subst hj
      simp
    · simp [hj]
  simp [within, view, Handover.State.setCell, Handover.State.setRole, hcells]

theorem by_modify {f : Sa → Sa} (hC : C (.modify k f)) (he : m.entries k = some e) :
    By C t (within role held t m r h)
      (within role held t (m.setEntry k { e with sa := f e.sa }) r h) := by
  refine by_of_eq hC (Handover.Step.modify t f (cells_within he)) ?_
  simp [within, view, cells_setEntry, Handover.State.setCell, SaEntry.cell]

variable {role held t}

/-! ### Functions -/

theorem entry_of_mem (hok : ∀ j, Ok (within role held t m r h) j) (hk : k ∈ m.sas) :
    ∃ e, m.entries k = some e := by
  obtain ⟨c, hc⟩ := (hok k).linked hk
  obtain ⟨e, he, -⟩ := entry_of_cells hc
  exact ⟨e, he⟩

theorem findFirst_spec {p : ℕ → Sa → Bool} {sas : List ℕ}
    (halloc : ∀ k ∈ sas, ∃ e, m.entries k = some e) :
    ∃ found, m.findFirst p sas = some found ∧
      (∀ k, found = some k → k ∈ sas ∧ ∃ e, m.entries k = some e ∧ p k e.sa = true) ∧
      (found = none → ∀ k ∈ sas, ∀ e, m.entries k = some e → p k e.sa = false) := by
  induction sas with
  | nil => exact ⟨none, rfl, by simp, by simp⟩
  | cons k sas ih =>
    obtain ⟨e, he⟩ := halloc k List.mem_cons_self
    obtain ⟨found, hfound, hsome, hnone⟩ := ih fun k hk => halloc k (List.mem_cons_of_mem _ hk)
    rw [findFirst, he, Option.bind_eq_bind, Option.bind_some]
    by_cases hp : p k e.sa = true
    · refine ⟨some k, if_pos hp, ?_, by simp⟩
      rintro _ ⟨⟩
      exact ⟨List.mem_cons_self, e, he, hp⟩
    · refine ⟨found, (if_neg hp).trans hfound, fun j hj => ?_, fun h j hj e' he' => ?_⟩
      · exact ⟨List.mem_cons_of_mem _ (hsome j hj).1, (hsome j hj).2⟩
      · obtain rfl | hj := List.mem_cons.mp hj
        · obtain rfl := Option.some.inj (he.symm.trans he')
          exact Bool.eq_false_iff.mpr hp
        · exact hnone h j hj e' he'

/-- The move of `update_sa`. -/
def readdress (newSrc newDst : Host) (sa : Sa) : Sa := (sa.setSource newSrc).setDestination newDst

theorem lockEntry_doomed (he : m.entries k = some e) (hdoomed : e.awaitsDeletion = true)
    (caller : Locker) : m.lockEntry caller k = m.waitedForEntry caller k false := by
  simp [lockEntry, waitForEntry, he, hdoomed]

theorem lockEntry_locked (he : m.entries k = some e) (hdoomed : e.awaitsDeletion = false)
    (hlocked : e.locked = true) (caller : Locker) : m.lockEntry caller k =
      some (m.setEntry k { e with waitingThreads := e.waitingThreads + 1 },
        .waitForEntry caller k) := by
  simp [lockEntry, waitForEntry, he, hdoomed, hlocked]

theorem lockEntry_free (he : m.entries k = some e) (hdoomed : e.awaitsDeletion = false)
    (hlocked : e.locked = false) (caller : Locker) : m.lockEntry caller k =
      (m.setEntry k { e with locked := true }).waitedForEntry caller k true := by
  simp [lockEntry, waitForEntry, he, hdoomed, hlocked]

/-- **A call of `wait_for_entry` with what follows.** -/
theorem does_lockEntry (hC : Free C) (hok : ∀ j, Ok (within role held t m .idle (held t)) j)
    (hk : k ∈ m.sas) (he : m.entries k = some e) {caller : Locker}
    (hupdate : ∀ newSrc newDst, caller = .updateSa newSrc newDst → e.locked = false →
      e.awaitsDeletion = false → C (.modify k (readdress newSrc newDst))) :
    Does role held t C (within role held t m .idle (held t)) (m.lockEntry caller k) := by
  cases hdoomed : e.awaitsDeletion with
  | true =>
    rw [lockEntry_doomed he hdoomed]
    cases caller <;> exact .leave m _ (Finset.empty_union _)
  | false =>
    cases hlocked : e.locked with
    | true =>
      rw [lockEntry_locked he hdoomed hlocked]
      exact .by (by_wait role held t hC hk he) (.leave _ _ (Finset.empty_union _))
    | false =>
      have hnot : k ∉ held t := by
        intro hmem
        have hlock := ((hok k).held (t := t) (by rwa [held_within]) (cells_within he)).2
        rw [SaEntry.cell, hlocked] at hlock
        cases hlock
      have hlock := by_acquire role held t (h := held t) (r := .idle) hC hk he hlocked hdoomed
      have hrelease := fun (m : SaMgr) (e : SaEntry) (he : m.entries k = some e) =>
        by_release role held t (r := .idle) hC (Finset.mem_insert_self k (held t)) he
      rw [Finset.erase_insert hnot] at hrelease
      rw [lockEntry_free he hdoomed hlocked]
      refine .by hlock ?_
      cases caller with
      | updateSa newSrc newDst =>
        have hmodify := by_modify role held t (r := .idle)
          (h := insert k (held t)) (hupdate _ _ rfl hlocked hdoomed)
          (entries_setEntry_self m k { e with locked := true })
        refine .by (hmodify.trans (hrelease _ _ (entries_setEntry_self ..))) ?_
        simpa [waitedForEntry, readdress] using .leave _ (.returned _) (Finset.empty_union _)
      | querySa =>
        refine .by (hrelease _ _ (entries_setEntry_self ..)) ?_
        simpa [waitedForEntry] using .leave _ (.returned _) (Finset.empty_union _)
      | checkout => exact .leave _ _ rfl

/-! A wait in `wait_remove_entry` leaves the mutex, or the entry is ready to be unlinked. -/

theorem does_waitWaiting (hok : ∀ j, Ok (within role held t m (.draining k) (held t)) j)
    (hk : k ∈ m.sas) {f : Removal → Option (SaMgr × Pc)}
    (hwaiting : Does role held t C (within role held t m (.draining k) (held t))
      (f (.waits .waiting)))
    (htrue : ∀ e, m.entries k = some e → e.waitingThreads = 0 →
      Does role held t C (within role held t m (.draining k) (held t)) (f (.returns true))) :
    Does role held t C (within role held t m (.draining k) (held t))
      ((m.waitWaiting k).bind f) := by
  obtain ⟨e, he⟩ := entry_of_mem hok hk
  rw [waitWaiting, he, Option.bind_eq_bind, Option.bind_some, Option.bind_some]
  split_ifs with hwaits
  · exact hwaiting
  · exact htrue e he (by omega)

theorem does_waitLocked (hC : Free C)
    (hok : ∀ j, Ok (within role held t m (.removing k) (held t)) j)
    (hk : k ∈ m.sas) {f : Removal → Option (SaMgr × Pc)}
    (hlocked : Does role held t C (within role held t m (.removing k) (held t))
      (f (.waits .locked)))
    (hwaiting : Does role held t C (within role held t m (.draining k) (held t))
      (f (.waits .waiting)))
    (htrue : ∀ e, m.entries k = some e → e.waitingThreads = 0 →
      (∀ j, Ok (within role held t m (.draining k) (held t)) j) →
      Does role held t C (within role held t m (.draining k) (held t)) (f (.returns true))) :
    Does role held t C (within role held t m (.removing k) (held t))
      ((m.waitLocked k).bind f) := by
  obtain ⟨e, he⟩ := entry_of_mem hok hk
  rw [waitLocked, he, Option.bind_eq_bind, Option.bind_some]
  cases hlock : e.locked with
  | true => exact hlocked
  | false =>
    have hdrain := by_drain role held t (h := held t) hC he hlock
    refine .by hdrain (does_waitWaiting (hdrain.ok hok) hk hwaiting fun e he hzero => ?_)
    exact htrue e he hzero (hdrain.ok hok)

theorem does_waitRemoveEntry (hC : Free C) (hok : ∀ j, Ok (within role held t m .idle (held t)) j)
    (hk : k ∈ m.sas) {f : SaMgr × Removal → Option (SaMgr × Pc)}
    (hlocked : ∀ m, Does role held t C (within role held t m (.removing k) (held t))
      (f (m, .waits .locked)))
    (hwaiting : ∀ m, Does role held t C (within role held t m (.draining k) (held t))
      (f (m, .waits .waiting)))
    (hfalse : Does role held t C (within role held t m .idle (held t)) (f (m, .returns false)))
    (htrue : ∀ m' e, m'.sas = m.sas → m'.entries k = some e → e.waitingThreads = 0 →
      (∀ j, Ok (within role held t m' (.draining k) (held t)) j) →
      Does role held t C (within role held t m' (.draining k) (held t)) (f (m', .returns true))) :
    Does role held t C (within role held t m .idle (held t)) ((m.waitRemoveEntry k).bind f) := by
  obtain ⟨e, he⟩ := entry_of_mem hok hk
  rw [waitRemoveEntry, he, Option.bind_eq_bind, Option.bind_some]
  cases hdoomed : e.awaitsDeletion with
  | true => exact hfalse
  | false =>
    have hdoom := by_doom role held t (h := held t) hC hk he hdoomed
    refine .by hdoom ?_
    generalize hm : m.setEntry k { e with awaitsDeletion := true } = doomed at hdoom
    have hsas : doomed.sas = m.sas := hm ▸ rfl
    have hwait := does_waitLocked hC (hdoom.ok hok) (hsas ▸ hk)
      (f := fun removal => f (doomed, removal)) (hlocked _) (hwaiting _)
      fun e' he' => htrue doomed e' hsas he'
    simpa [Option.bind_assoc] using hwait

theorem removeAt_eq (hk : k ∈ m.sas) :
    m.removeAt k = some { m with sas := m.sas.erase k } := by
  simp [removeAt, LinkedList.removeAt, hk]

/-- **`remove_at` and `destroy_entry`**, with what follows. -/
theorem does_remove (hC : Free C) (hok : ∀ j, Ok (within role held t m (.draining k) (held t)) j)
    (hk : k ∈ m.sas) (he : m.entries k = some e) (hzero : e.waitingThreads = 0)
    {f : SaMgr → Option (SaMgr × Pc)}
    (hf : ∀ m', m'.sas = m.sas.erase k → (∀ j, Ok (within role held t m' .idle (held t)) j) →
      Does role held t C (within role held t m' .idle (held t)) (f m')) :
    Does role held t C (within role held t m (.draining k) (held t))
      ((m.removeAt k).bind fun m => (m.destroyEntry k).bind f) := by
  have hunlink := by_unlink role held t (h := held t) hC he hzero
  have hdestroy := by_destroy role held t (h := held t) (k := k)
    (m := { m with sas := m.sas.erase k }) hC
  rw [removeAt_eq hk, Option.bind_some, destroyEntry, he, Option.bind_eq_bind, Option.bind_some,
    Option.bind_some]
  exact .by (hunlink.trans hdestroy) (hf _ rfl ((hunlink.trans hdestroy).ok hok))

/-- **The loop of `flush_entries`**, over elements that are still in the list. -/
theorem does_flushEntries (hC : Free C) {rest : List ℕ} (hnodup : rest.Nodup)
    (hrest : ∀ k ∈ rest, k ∈ m.sas) (hok : ∀ j, Ok (within role held t m .idle (held t)) j) :
    Does role held t C (within role held t m .idle (held t)) (m.flushEntries rest) := by
  induction rest generalizing m with
  | nil => exact .leave m _ (Finset.empty_union _)
  | cons k rest ih =>
    obtain ⟨hk, hnodup⟩ := List.nodup_cons.mp hnodup
    have hsub := fun j hj => hrest j (List.mem_cons_of_mem _ hj)
    refine does_waitRemoveEntry hC hok (hrest k List.mem_cons_self)
      (fun m => .leave m _ (Finset.empty_union _)) (fun m => .leave m _ (Finset.empty_union _))
      (ih hnodup hsub hok) fun m' e hsas he hzero hok' => ?_
    refine does_remove hC hok' (hsas ▸ hrest k List.mem_cons_self) he hzero fun m'' hsas' hok'' => ?_
    refine ih hnodup (fun j hj => ?_) hok''
    rw [hsas', hsas]
    exact (List.mem_erase_of_ne (ne_of_mem_of_not_mem hj hk)).mpr (hsub j hj)

/-- **What follows `wait_remove_entry`** when the entry is ready to be unlinked. -/
theorem does_waitedRemoveEntry (hC : Free C)
    (hok : ∀ j, Ok (within role held t m (.draining k) (held t)) j) (hk : k ∈ m.sas)
    (he : m.entries k = some e) (hzero : e.waitingThreads = 0) (caller : Deleter) :
    Does role held t C (within role held t m (.draining k) (held t))
      (m.waitedRemoveEntry caller k true) := by
  cases caller with
  | flushSas =>
    obtain ⟨visited, rest, hrest, hsas⟩ := LinkedList.exists_following hk
    have hnodup : m.sas.Nodup := (hok k).nodup
    rw [hsas] at hnodup
    obtain ⟨hnot, hrestnodup⟩ := List.nodup_cons.mp hnodup.of_append_right
    rw [waitedRemoveEntry, hrest, Option.bind_eq_bind, Option.bind_some]
    refine does_remove hC hok hk he hzero fun m' hsas' hok' =>
      does_flushEntries hC hrestnodup (fun j hj => ?_) hok'
    rw [hsas']
    refine (List.mem_erase_of_ne (ne_of_mem_of_not_mem hj hnot)).mpr ?_
    rw [hsas]
    exact List.mem_append_right _ (List.mem_cons_of_mem _ hj)
  | delSa =>
    rw [waitedRemoveEntry, removeAt_eq hk, Option.bind_eq_bind, Option.bind_some]
    exact .by (by_unlink role held t hC he hzero) (.leave _ (.found k) (Finset.empty_union _))
  | saExpired =>
    exact does_remove hC hok hk he hzero fun m' _ _ => .leave _ _ (Finset.empty_union _)

/-! ### Calls -/

theorem exists_findFirst (hok : ∀ j, Ok (within role held t m r h) j) (p : ℕ → Sa → Bool) :
    ∃ found, m.findFirst p m.sas = some found ∧
      (∀ k, found = some k → k ∈ m.sas ∧ ∃ e, m.entries k = some e ∧ p k e.sa = true) ∧
      (found = none → ∀ k ∈ m.sas, ∀ e, m.entries k = some e → p k e.sa = false) :=
  findFirst_spec fun _ hk => entry_of_mem hok hk

theorem does_deleteEntry (hC : Free C) (hok : ∀ j, Ok (within role held t m .idle (held t)) j)
    (hk : k ∈ m.sas) {caller : Deleter} (hcaller : caller ≠ .flushSas) :
    Does role held t C (within role held t m .idle (held t)) (m.deleteEntry caller k) := by
  refine does_waitRemoveEntry hC hok hk (fun m => .leave m _ (Finset.empty_union _))
    (fun m => .leave m _ (Finset.empty_union _)) ?_ fun m' e hsas he hzero hok' =>
      does_waitedRemoveEntry hC hok' (hsas ▸ hk) he hzero caller
  cases caller with
  | flushSas => exact absurd rfl hcaller
  | delSa => exact .leave m _ (Finset.empty_union _)
  | saExpired => exact .leave m _ (Finset.empty_union _)

theorem does_getSpiLoop (hok : ∀ j, Ok (within role held t m .idle (held t)) j)
    (spiMin spiMax : U32) (draws : List U32) :
    Does role held t C (within role held t m .idle (held t))
      (m.getSpiLoop spiMin spiMax draws) := by
  induction draws with
  | nil => exact .leave m _ (Finset.empty_union _)
  | cons spiNew draws ih =>
    rw [getSpiLoop]
    generalize htonl (spiMin + spiNew % (spiMax - spiMin + 1)) = spi
    obtain ⟨found, hfound, -⟩ := exists_findFirst hok fun _ sa => sa.spi = spi && sa.inbound = true
    have hallocate : m.allocateSpi spi = some (false, m) ∨ ∃ spis,
        m.allocateSpi spi = some (true, { m with allocatedSpis := spis }) := by
      rw [allocateSpi, hfound]
      split_ifs
      · exact .inl rfl
      · cases found with
        | some k => exact .inl rfl
        | none => exact .inr ⟨_, rfl⟩
    obtain hallocate | ⟨spis, hallocate⟩ := hallocate
    · rw [hallocate]
      exact ih
    · rw [hallocate]
      exact .leave { m with allocatedSpis := spis } _ (Finset.empty_union _)

theorem by_create {sa : Sa} (hC : C (.create sa)) (spis : Hashtable U32 U32) :
    By C t (within role held t m .idle h) (within role held t
      { m.setEntry m.created (.create sa) with
        sas := m.created :: m.sas
        created := m.created + 1
        allocatedSpis := spis } .idle h) := by
  refine by_of_eq hC (Handover.Step.create t sa) ?_
  have hcells := cells_setEntry m m.created (.create sa)
  simp only [within, view, Handover.State.setCell, hcells]
  rfl

theorem does_addSa (createAead : U16 → Chunk → U16 → Chunk → Option Aead)
    (hok : ∀ j, Ok (within role held t m .idle (held t)) j) (args : SaArgs) (update : Bool)
    (hC : ∀ sa, Sa.create createAead args = some sa → C (.create sa)) :
    Does role held t C (within role held t m .idle (held t))
      (m.addSa createAead args update) := by
  rw [addSa]
  cases hsa : Sa.create createAead args with
  | none => exact .leave m _ (Finset.empty_union _)
  | some sa =>
    obtain ⟨spis, hspis⟩ : ∃ spis, (if update then
        { m with allocatedSpis := (m.allocatedSpis.remove args.spi).2 } else m) =
          { m with allocatedSpis := spis } := by
      cases update <;> exact ⟨_, rfl⟩
    obtain ⟨found, hfound, -⟩ := exists_findFirst (m := { m with allocatedSpis := spis }) hok
      fun _ sa => sa.matchBySpiSrcDst args.spi args.src args.dst
    simp only [hspis, hfound, Option.bind_eq_bind, Option.bind_some]
    cases found with
    | some k => exact .leave { m with allocatedSpis := spis } _ (Finset.empty_union _)
    | none => exact .by (by_create (hC sa hsa) spis) (.leave _ _ (Finset.empty_union _))

theorem does_saExpired (hC : Free C) (hok : ∀ j, Ok (within role held t m .idle (held t)) j)
    (k : ℕ) (spi hardOffset : U32)
    (hexpire : C (.modify k fun sa => sa.expire (hardOffset = 0))) :
    Does role held t C (within role held t m .idle (held t))
      (m.saExpired k spi hardOffset) := by
  by_cases hk : k ∈ m.sas
  · obtain ⟨e, he⟩ := entry_of_mem hok hk
    have hmodify := by_modify role held t (r := .idle) (h := held t) hexpire he
    have hdelete := does_deleteEntry hC (hmodify.ok hok) hk (k := k)
      (show Deleter.saExpired ≠ .flushSas by decide)
    simp only [saExpired, hk, not_true_eq_false, if_false, he, Option.bind_eq_bind,
      Option.bind_some]
    by_cases hspi : spi ≠ e.sa.spi
    · rw [if_pos hspi]
      exact .leave m _ (Finset.empty_union _)
    rw [if_neg hspi]
    by_cases hoffset : hardOffset ≠ 0
    · rw [if_pos hoffset]
      exact .by hmodify (.leave _ _ (Finset.empty_union _))
    · rw [if_neg hoffset]
      exact .by hmodify hdelete
  · rw [saExpired, if_pos hk]
    exact .leave m _ (Finset.empty_union _)

theorem does_findFirst (hC : Free C) (hok : ∀ j, Ok (within role held t m .idle (held t)) j)
    (p : ℕ → Sa → Bool) (caller : Locker) (result : Result)
    (hresult : Pc.checkedOut (.returned result) = ∅)
    (hupdate : ∀ k e newSrc newDst, m.findFirst p m.sas = some (some k) → m.entries k = some e →
      caller = .updateSa newSrc newDst → e.locked = false → e.awaitsDeletion = false →
      C (.modify k (readdress newSrc newDst))) :
    Does role held t C (within role held t m .idle (held t))
      ((m.findFirst p m.sas).bind fun found => match found with
        | some entry => m.lockEntry caller entry
        | none => some (m, .returned result)) := by
  obtain ⟨found, hfound, hsome, -⟩ := exists_findFirst hok p
  rw [hfound, Option.bind_some]
  cases found with
  | none => exact .leave m (.returned result) (by rw [hresult, Finset.empty_union])
  | some k =>
    obtain ⟨hk, e, he, -⟩ := hsome k rfl
    exact does_lockEntry hC hok hk he fun newSrc newDst => hupdate k e newSrc newDst hfound he

/-- **A call up to its first wait.** -/
theorem does_call (createAead : U16 → Chunk → U16 → Chunk → Option Aead) (hC : Free C)
    (hok : ∀ j, Ok (within role held t m .idle (held t)) j) (call : Call)
    (hcreate : ∀ args update sa, call = .addSa args update → Sa.create createAead args = some sa →
      C (.create sa))
    (hupdate : ∀ spi src dst newSrc newDst k e, call = .updateSa spi src dst newSrc newDst true →
      m.findFirst (fun _ sa => sa.matchBySpiSrcDst spi src dst) m.sas = some (some k) →
      m.entries k = some e → e.locked = false → e.awaitsDeletion = false →
      C (.modify k (readdress newSrc newDst)))
    (hexpire : ∀ k spi hardOffset, call = .saExpired k spi hardOffset →
      C (.modify k fun sa => sa.expire (hardOffset = 0))) :
    Does role held t C (within role held t m .idle (held t)) (m.call createAead call) := by
  cases call with
  | getSpi spiMin spiMax draws => exact does_getSpiLoop hok _ _ draws
  | addSa args update => exact does_addSa createAead hok args update fun sa => hcreate _ _ _ rfl
  | updateSa spi src dst newSrc newDst newEncap =>
    cases newEncap with
    | false => exact .leave m _ (Finset.empty_union _)
    | true =>
      refine does_findFirst hC hok _ (.updateSa newSrc newDst) (.status .failed) rfl ?_
      rintro k e _ _ hfound he ⟨⟩
      exact hupdate spi src dst newSrc newDst k e rfl hfound he
  | querySa src dst spi =>
    exact does_findFirst hC hok _ .querySa (.status .notFound) rfl (by simp)
  | delSa src dst spi =>
    obtain ⟨found, hfound, hsome, -⟩ :=
      exists_findFirst hok fun _ sa => sa.matchBySpiSrcDst spi src dst
    rw [SaMgr.call, delSa, hfound, Option.bind_eq_bind, Option.bind_some]
    cases found with
    | none => exact .leave m _ (Finset.empty_union _)
    | some k => exact does_deleteEntry hC hok (hsome k rfl).1 (by decide)
  | checkoutByReqid reqid inbound =>
    exact does_findFirst hC hok _ .checkout (.sa none) rfl (by simp)
  | checkoutBySpi spi dst =>
    exact does_findFirst hC hok _ .checkout (.sa none) rfl (by simp)
  | flushSas => exact does_flushEntries hC (hok 0).nodup (fun _ => id) hok
  | saExpired k spi hardOffset =>
    exact does_saExpired hC hok k spi hardOffset (hexpire _ _ _ rfl)

/-- **A wake-up in `wait_for_entry`.** -/
theorem does_resumeWaitForEntry (hC : Free C)
    (hok : ∀ j, Ok (within role held t m (.waiting k) (held t)) j) {caller : Locker}
    (hupdate : ∀ newSrc newDst e, m.entries k = some e → caller = .updateSa newSrc newDst →
      e.locked = false → e.awaitsDeletion = false → C (.modify k (readdress newSrc newDst))) :
    Does role held t C (within role held t m (.waiting k) (held t))
      (m.resumeWaitForEntry caller k) := by
  have hk : k ∈ m.sas := (hok k).waiting role_within
  obtain ⟨e, he⟩ := entry_of_mem hok hk
  have hwake := by_wake role held t (h := held t) hC he
  rw [resumeWaitForEntry, he, Option.bind_eq_bind, Option.bind_some]
  exact .by hwake (does_lockEntry hC (hwake.ok hok) hk (entries_setEntry_self ..)
    fun newSrc newDst => hupdate newSrc newDst e he)

/-- **A wake-up in `wait_remove_entry`.** -/
theorem does_resumeWaitRemoveEntry (hC : Free C) (caller : Deleter) (loop : RemoveLoop)
    (hok : ∀ j, Ok (within role held t m (Pc.waitRemoveEntry caller loop k).role (held t)) j) :
    Does role held t C (within role held t m (Pc.waitRemoveEntry caller loop k).role (held t))
      (m.resumeWaitRemoveEntry caller loop k) := by
  obtain ⟨c, hc⟩ := (hok k).alive (t := t) (.inr (by rw [role_within]; cases loop <;> rfl))
  cases loop with
  | locked =>
    have hk : k ∈ m.sas := ((hok k).removing (.inl role_within) hc).1
    refine does_waitLocked hC hok hk (.leave m (.waitRemoveEntry caller .locked k)
      (Finset.empty_union _)) (.leave m (.waitRemoveEntry caller .waiting k)
      (Finset.empty_union _)) fun e he hzero hok' => ?_
    exact does_waitedRemoveEntry hC hok' hk he hzero caller
  | waiting =>
    have hk : k ∈ m.sas := ((hok k).removing (.inr role_within) hc).1
    refine does_waitWaiting hok hk (.leave m (.waitRemoveEntry caller .waiting k)
      (Finset.empty_union _)) fun e he hzero => ?_
    exact does_waitedRemoveEntry hC hok hk he hzero caller

/-- **The end of `del_sa`.** -/
theorem does_destroyFound (hC : Free C)
    (hok : ∀ j, Ok (within role held t m (.owning k) (held t)) j) :
    Does role held t C (within role held t m (.owning k) (held t)) (m.destroyFound k) := by
  obtain ⟨c, hc⟩ := (hok k).alive (t := t) (.inr (by rw [role_within]; rfl))
  obtain ⟨e, he, -⟩ := entry_of_cells hc
  rw [destroyFound, destroyEntry, he]
  exact .by (by_destroy role held t hC) (.leave _ _ (Finset.empty_union _))

end Sections

/-! ## Steps -/

/-- The section writes new addresses to an entry. -/
inductive Readdresses (s : State) : Event → ℕ → Host → Host → Prop
  | call {t k : ℕ} {spi : U32} {src dst newSrc newDst : Host} {result : Result} {e : SaEntry} :
      (s.threads t).pc = .returned result →
      s.mgr.findFirst (fun _ sa => sa.matchBySpiSrcDst spi src dst) s.mgr.sas = some (some k) →
      s.mgr.entries k = some e → e.locked = false → e.awaitsDeletion = false →
      Readdresses s (.call t (.updateSa spi src dst newSrc newDst true)) k newSrc newDst
  | resume {t k : ℕ} {newSrc newDst : Host} {e : SaEntry} :
      (s.threads t).pc = .waitForEntry (.updateSa newSrc newDst) k →
      s.mgr.entries k = some e → e.locked = false → e.awaitsDeletion = false →
      Readdresses s (.resume t) k newSrc newDst

/-- The moves that a step can consist of. -/
def Allowed (s : State) (event : Event) : Move Sa → Prop
  | .create sa => ∃ t args update, event = .call t (.addSa args update) ∧
      Sa.create createAead args = some sa
  | .modify k f => (∀ sa, f sa = sa) ∨
      (∃ t spi hardOffset, event = .call t (.saExpired k spi hardOffset) ∧
        f = fun sa => sa.expire (hardOffset = 0)) ∨
      (∃ t use, event = .use t k use ∧ k ∈ (s.threads t).held ∧ f = use.apply) ∨
      ∃ newSrc newDst, Readdresses s event k newSrc newDst ∧ f = readdress newSrc newDst
  | _ => True

theorem free_allowed (s : State) (event : Event) : Free (Allowed createAead s event) := by
  intro move hquiet
  cases move with
  | create sa => exact absurd hquiet id
  | modify k f => exact .inl hquiet
  | _ => trivial

theorem view_update (s : State) (m : SaMgr) (t : ℕ) (thread : Thread) :
    State.view ⟨m, Function.update s.threads t thread⟩ =
      within (fun t => (s.threads t).pc.role) (fun t => (s.threads t).held) t m thread.pc.role
        thread.held := by
  rw [State.view, within, view, view]
  congr 1
  · funext t'
    by_cases ht : t' = t
    · subst ht
      simp
    · simp [ht]
  · funext t'
    by_cases ht : t' = t
    · subst ht
      simp
    · simp [ht]

theorem view_eq_within (s : State) (t : ℕ) :
    s.view = within (fun t => (s.threads t).pc.role) (fun t => (s.threads t).held) t s.mgr
      (s.threads t).pc.role (s.threads t).held := by
  have h := view_update s s.mgr t (s.threads t)
  rwa [Function.update_eq_self] at h

variable {s : State}

theorem exists_leave {t : ℕ} {C : Move Sa → Prop} {x : Option (SaMgr × Pc)}
    (h : Does (fun t => (s.threads t).pc.role) (fun t => (s.threads t).held) t C s.view x) :
    ∃ s', x.map (s.leave t) = some s' ∧ By C t s.view s'.view := by
  obtain ⟨m, pc, rfl, hby⟩ := h
  refine ⟨_, rfl, ?_⟩
  rw [State.leave, view_update]
  exact hby

/-- **What a step does**: it is defined, and consists of moves of the handover by its thread. -/
theorem does_step (hok : ∀ j, Ok s.view j) (event : Event) :
    ∃ s', s.step createAead event = some s' ∧
      By (Allowed createAead s event) event.thread s.view s'.view := by
  have hfree := free_allowed createAead s event
  cases event with
  | call t call =>
    rw [State.step]
    cases hpc : (s.threads t).pc with
    | returned result =>
      refine exists_leave ?_
      have hview := view_eq_within s t
      rw [hpc] at hview
      rw [hview] at hok ⊢
      refine does_call createAead hfree hok call ?_ ?_ ?_
      · rintro args update sa rfl hsa
        exact ⟨t, args, update, rfl, hsa⟩
      · rintro spi src dst newSrc newDst k e rfl hfound he hlocked hdoomed
        exact .inr (.inr (.inr ⟨newSrc, newDst, .call hpc hfound he hlocked hdoomed, rfl⟩))
      · rintro k spi hardOffset rfl
        exact .inr (.inl ⟨t, spi, hardOffset, rfl, rfl⟩)
    | _ => exact ⟨s, rfl, By.refl _⟩
  | resume t =>
    rw [State.step]
    have hview := view_eq_within s t
    cases hpc : (s.threads t).pc with
    | waitForEntry caller k =>
      refine exists_leave ?_
      rw [hpc] at hview
      rw [hview] at hok ⊢
      refine does_resumeWaitForEntry hfree hok fun newSrc newDst e he hcaller hlocked hdoomed => ?_
      subst hcaller
      exact .inr (.inr (.inr ⟨newSrc, newDst, .resume hpc he hlocked hdoomed, rfl⟩))
    | waitRemoveEntry caller loop k =>
      refine exists_leave ?_
      rw [hpc] at hview
      rw [hview] at hok ⊢
      exact does_resumeWaitRemoveEntry hfree caller loop hok
    | _ => exact ⟨s, rfl, By.refl _⟩
  | destroyFound t =>
    rw [State.step]
    have hview := view_eq_within s t
    cases hpc : (s.threads t).pc with
    | found k =>
      refine exists_leave ?_
      rw [hpc] at hview
      rw [hview] at hok ⊢
      exact does_destroyFound hfree hok
    | _ => exact ⟨s, rfl, By.refl _⟩
  | checkin t k =>
    rw [State.step]
    split_ifs with hk
    · obtain ⟨c, hc⟩ := (hok k).alive (t := t) (.inl hk)
      obtain ⟨hlinked, hlocked⟩ := (hok k).held (t := t) hk hc
      rw [view_eq_within s t] at hok
      obtain ⟨e, he, rfl⟩ := Option.map_eq_some_iff.mp hc
      obtain ⟨found, hfound, hsome, hnone⟩ := exists_findFirst hok fun entry _ => entry = k
      have heq : found = some k := by
        cases found with
        | none => exact absurd (hnone rfl k hlinked e he) (by simp)
        | some k' =>
          obtain ⟨-, _, -, heq⟩ := hsome k' rfl
          rw [of_decide_eq_true heq]
      change e.locked = true at hlocked
      rw [checkin, hfound, heq]
      simp only [Option.bind_eq_bind, Option.bind_some, he, hlocked, if_true]
      refine ⟨_, rfl, ?_⟩
      rw [view_update, view_eq_within s t]
      exact by_release _ _ t hfree hk he
    · exact ⟨s, rfl, By.refl _⟩
  | use t k use =>
    rw [State.step]
    split_ifs with hk
    · obtain ⟨c, hc⟩ := (hok k).alive (t := t) (.inl hk)
      obtain ⟨e, he, rfl⟩ := Option.map_eq_some_iff.mp hc
      rw [he]
      refine ⟨_, rfl, ?_⟩
      have hmodify := by_modify (fun t => (s.threads t).pc.role)
        (fun t => (s.threads t).held) t (r := (s.threads t).pc.role) (f := use.apply)
        (C := Allowed createAead s (.use t k use)) (h := (s.threads t).held)
        (.inr (.inr (.inl ⟨t, use, rfl, hk, rfl⟩))) he
      have hview := view_update s (s.mgr.setEntry k { e with sa := use.apply e.sa }) t (s.threads t)
      rw [Function.update_eq_self] at hview
      rw [hview, view_eq_within s t]
      exact hmodify
    · exact ⟨s, rfl, By.refl _⟩

variable {createAead spiHash}

theorem exists_entry (hok : ∀ j, Ok s.view j) (k : ℕ) (hk : k ∈ s.mgr.sas) :
    ∃ e, s.mgr.entries k = some e := by
  obtain ⟨c, hc⟩ := (hok k).linked hk
  obtain ⟨e, he, -⟩ := Option.map_eq_some_iff.mp hc
  exact ⟨e, he⟩

theorem exists_entry_of_uses {t k : ℕ} (hok : Ok s.view k)
    (h : k ∈ (s.threads t).held ∨ (s.threads t).pc.role.key = some k) :
    ∃ e, s.mgr.entries k = some e := by
  obtain ⟨c, hc⟩ := hok.alive (t := t) h
  obtain ⟨e, he, -⟩ := Option.map_eq_some_iff.mp hc
  exact ⟨e, he⟩

theorem lt_created {k : ℕ} (hok : Ok s.view k) {e : SaEntry} (he : s.mgr.entries k = some e) :
    k < s.mgr.created := by
  by_contra hge
  have hnone := (hok.fresh (not_lt.mp hge)).2
  rw [cells_view, he] at hnone
  cases hnone

theorem threads_step {s s' : State} {event : Event}
    (h : s.step createAead event = some s') {t' : ℕ} (ht : t' ≠ event.thread) :
    s'.threads t' = s.threads t' := by
  have hleave : ∀ {t : ℕ} {x : Option (SaMgr × Pc)}, t' ≠ t → x.map (s.leave t) = some s' →
      s'.threads t' = s.threads t' := by
    intro t x hne hx
    obtain ⟨left, -, rfl⟩ := Option.map_eq_some_iff.mp hx
    exact Function.update_of_ne hne _ _
  cases event with
  | call t call =>
    rw [State.step] at h
    split at h
    · exact hleave ht h
    · rw [Option.some.inj h]
  | resume t =>
    rw [State.step] at h
    split at h
    · exact hleave ht h
    · exact hleave ht h
    · rw [Option.some.inj h]
  | destroyFound t =>
    rw [State.step] at h
    split at h
    · exact hleave ht h
    · rw [Option.some.inj h]
  | checkin t entry =>
    rw [State.step] at h
    split_ifs at h
    · obtain ⟨m, -, hs'⟩ := Option.bind_eq_some_iff.mp h
      rw [← Option.some.inj hs']
      exact Function.update_of_ne ht _ _
    · rw [Option.some.inj h]
  | use t entry use =>
    rw [State.step] at h
    split_ifs at h
    · obtain ⟨e, -, hs'⟩ := Option.bind_eq_some_iff.mp h
      rw [← Option.some.inj hs']
    · rw [Option.some.inj h]

theorem threads_checkin {s s' : State} {t entry : ℕ}
    (h : s.step createAead (.checkin t entry) = some s') :
    s'.threads t = ⟨(s.threads t).pc, (s.threads t).held.erase entry⟩ := by
  rw [State.step] at h
  split_ifs at h with hheld
  · obtain ⟨m, -, hs'⟩ := Option.bind_eq_some_iff.mp h
    obtain rfl := Option.some.inj hs'
    exact Function.update_self ..
  · obtain rfl := Option.some.inj h
    rw [Finset.erase_eq_of_notMem hheld]

/-- **The handover keeps its invariant in every run.** -/
theorem ok_run {events : List Event}
    (h : LTS.Run (system createAead spiHash) events s) (j : ℕ) : Ok s.view j := by
  refine h.invariant (I := fun s => ∀ j, Ok s.view j) ?_ (fun {s event s'} hok hstep => ?_) j
  · rintro _ rfl
    exact Handover.ok_init
  · obtain ⟨s₁, hs₁, hby⟩ := does_step createAead hok event
    obtain rfl := Option.some.inj (hs₁.symm.trans hstep)
    exact hby.ok hok

end SaMgr

end StrongSwan
