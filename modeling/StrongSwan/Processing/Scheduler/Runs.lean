import StrongSwan.Processing.Scheduler.Order

/-!
# Runs of the scheduler

* `Scheduler.step`, `Scheduler.run`: operations one after the other, with the events that left.
* `run_of_bounded`: as long as no more than 2^31 events are queued.
* **`correct_iff`**: the scheduler is a priority queue exactly then.
-/

namespace StrongSwan

/-- What is done with a scheduler: jobs are scheduled, or an event is removed. -/
inductive SchedulerOp
  | scheduleJob (now : Timeval) (job : ℕ) (s : U32)
  | scheduleJobMs (now : Timeval) (job : ℕ) (ms : U32)
  | scheduleJobTv (job : ℕ) (tv : Timeval)
  | removeEvent

namespace SchedulerOp

/-- The event that is added. -/
def event : SchedulerOp → Option Event
  | scheduleJob now job s => some ⟨{ now with sec := now.sec + s.toNat }, job⟩
  | scheduleJobMs now job ms => some ⟨timeradd now ⟨ms.toNat / 1000, ms.toNat % 1000 * 1000⟩, job⟩
  | scheduleJobTv job tv => some ⟨tv, job⟩
  | removeEvent => none

/-- How many events are queued after operations. -/
def queued (ops : List SchedulerOp) : ℕ :=
  ops.foldl (fun n op => if op.event.isSome then n + 1 else n - 1) 0

theorem queued_snoc (ops : List SchedulerOp) (op : SchedulerOp) :
    queued (ops ++ [op]) = if op.event.isSome then queued ops + 1 else queued ops - 1 := by
  rw [queued, List.foldl_append]
  rfl

end SchedulerOp

namespace Scheduler

/-- An operation, and the event that leaves. -/
def step (this : Scheduler) : SchedulerOp → Option (Option Event × Scheduler)
  | .scheduleJob now job s => (this.scheduleJob now job s).map fun this => (none, this)
  | .scheduleJobMs now job ms => (this.scheduleJobMs now job ms).map fun this => (none, this)
  | .scheduleJobTv job tv => (this.scheduleJobTv job tv).map fun this => (none, this)
  | .removeEvent => this.removeEvent

/-- Operations on a new scheduler, and the events that left, in their order. -/
def run (ops : List SchedulerOp) : Option (Scheduler × List Event) :=
  ops.foldlM (fun (this, left) op => (this.step op).map fun (event, this) => (this, left ++ event.toList))
    (create, [])

theorem run_snoc (ops : List SchedulerOp) (op : SchedulerOp) :
    run (ops ++ [op]) = (run ops).bind fun (this, left) =>
      (this.step op).map fun (event, this) => (this, left ++ event.toList) := by
  rw [run, List.foldlM_append]
  simp only [List.foldlM_cons, List.foldlM_nil, bind_pure]
  rfl

def added (ops : List SchedulerOp) : Multiset Event := ↑(ops.filterMap SchedulerOp.event)

theorem added_snoc (ops : List SchedulerOp) (op : SchedulerOp) :
    added (ops ++ [op]) = added ops + ↑op.event.toList := by
  rw [added, added, List.filterMap_append, ← Multiset.coe_add]
  cases hevent : op.event <;> simp [hevent]

/-- An operation of a priority queue. -/
structure Serves (this : Scheduler) (op : SchedulerOp) (event : Option Event) (this' : Scheduler) : Prop where
  wf : this'.Wf
  events : this.events + ↑op.event.toList = this'.events + ↑event.toList
  least : ∀ e ∈ event, ∀ other ∈ this.events, timevalCmp e.time other.time ≤ 0
  empty : op = .removeEvent → event = none → this.events = 0

/-- A scheduler works on operations as a priority queue does: no access is out of bounds, a heap has all
events that were added and did not leave, the least one leaves, and those that leave one after the other do
so in their order. -/
structure Correct (ops : List SchedulerOp) : Prop where
  heap : ∀ before, before <+: ops → ∃ this left, run before = some (this, left) ∧ this.Wf ∧
    added before = this.events + ↑left
  serves : ∀ before op, before ++ [op] <+: ops → ∃ this left event this',
    run before = some (this, left) ∧ this.step op = some (event, this') ∧ Serves this op event this'
  sorted : ∀ before n, before ++ List.replicate n .removeEvent <+: ops → ∃ this left this' left',
    run before = some (this, left) ∧
      run (before ++ List.replicate n .removeEvent) = some (this', left ++ left') ∧
      left'.Pairwise fun a b => timevalCmp a.time b.time ≤ 0

section Runs

variable {this : Scheduler} {ops : List SchedulerOp} {op : SchedulerOp}

theorem step_add {e : Event} (he : op.event = some e) :
    this.step op = (this.scheduleJobTv e.job e.time).map fun this => (none, this) := by
  cases op with
  | removeEvent => cases he
  | scheduleJob | scheduleJobMs | scheduleJobTv =>
    cases he
    rfl

theorem eq_removeEvent (he : op.event = none) : op = .removeEvent := by
  cases op with
  | removeEvent => rfl
  | scheduleJob | scheduleJobMs | scheduleJobTv => cases he

theorem eventCount_eq (this : Scheduler) : this.eventCount.toNat = this.events.card := by
  rw [Scheduler.events, BinaryHeap.card_elements]

/-- **An operation is served** if there is a position for the event. -/
theorem serves_step (op : SchedulerOp) (hw : this.Wf)
    (hbound : op.event.isSome → this.eventCount.toNat < 2 ^ 31) :
    ∃ event this', this.step op = some (event, this') ∧ Serves this op event this' := by
  cases hevent : op.event with
  | some e =>
    obtain ⟨this', hschedule, hw', hevents⟩ :=
      scheduleJobTv_spec hw (hbound (by rw [hevent]; rfl)) e.job e.time
    refine ⟨none, this', by rw [step_add hevent, hschedule]; rfl, hw', ?_, by simp, ?_⟩
    · rw [hevents, hevent]
      simp [Multiset.add_comm, ← Multiset.singleton_add]
    · rintro rfl
      cases hevent
  | none =>
    rw [eq_removeEvent hevent]
    by_cases hempty : this.eventCount = 0
    · refine ⟨none, this, removeEvent_empty hempty, hw, rfl, by simp, fun _ _ => ?_⟩
      rw [← Multiset.card_eq_zero, ← eventCount_eq, hempty]
      rfl
    · obtain ⟨e, this', hremove, hw', hevents, hleast⟩ := removeEvent_spec hw hempty
      refine ⟨some e, this', hremove, hw', ?_, ?_, by simp⟩
      · rw [hevents]
        simp [SchedulerOp.event, Multiset.add_comm, ← Multiset.singleton_add]
      · rintro _ ⟨⟩
        exact hleast

theorem Serves.card {event : Option Event} {this' : Scheduler} (hs : Serves this op event this') {n : ℕ}
    (hn : this.events.card = n) (hevent : op.event.isSome → event = none) :
    this'.events.card = if op.event.isSome then n + 1 else n - 1 := by
  have hcard := congrArg Multiset.card hs.events
  rw [Multiset.card_add, Multiset.card_add, hn] at hcard
  cases hop : op.event with
  | some e =>
    rw [hop, hevent (by rw [hop]; rfl)] at hcard
    simpa using hcard.symm
  | none =>
    rw [hop] at hcard
    cases hleft : event with
    | some e =>
      rw [hleft] at hcard
      simp only [Option.toList_none, Multiset.coe_nil, Multiset.card_zero, add_zero, Option.toList_some,
        Multiset.coe_card, List.length_singleton] at hcard
      simp only [Option.isSome_none, Bool.false_eq_true, if_false]
      omega
    | none =>
      have hempty := hs.empty (eq_removeEvent hop) hleft
      rw [hempty] at hn
      rw [hleft] at hcard
      simp only [Option.toList_none, Multiset.coe_nil, Multiset.card_zero, add_zero] at hcard hn
      simp only [Option.isSome_none, Bool.false_eq_true, if_false]
      omega

/-- No more than 2^31 events are queued at a time. -/
def Bounded (ops : List SchedulerOp) : Prop :=
  ∀ before op, before ++ [op] <+: ops → op.event.isSome → SchedulerOp.queued before < 2 ^ 31

theorem Bounded.of_prefix {ops' : List SchedulerOp} (h : Bounded ops) (hp : ops' <+: ops) : Bounded ops' :=
  fun before op hbefore => h before op (hbefore.trans hp)

/-- What is known of the scheduler after operations. -/
structure After (ops : List SchedulerOp) (this : Scheduler) (left : List Event) : Prop where
  run : run ops = some (this, left)
  wf : this.Wf
  added : added ops = this.events + ↑left
  card : this.events.card = SchedulerOp.queued ops

/-- **Runs with a bounded number of events.** -/
theorem run_of_bounded (h : Bounded ops) : ∃ this left, After ops this left := by
  induction ops using List.reverseRecOn with
  | nil => exact ⟨create, [], rfl, wf_create, rfl, rfl⟩
  | append_singleton ops op ih =>
    obtain ⟨this, left, hafter⟩ := ih (h.of_prefix (List.prefix_append ops [op]))
    obtain ⟨event, this', hstep, hs⟩ := serves_step op hafter.wf fun hadd => by
      rw [eventCount_eq, hafter.card]
      exact h ops op (List.prefix_refl _) hadd
    have hnone : op.event.isSome → event = none := by
      intro hadd
      obtain ⟨e, he⟩ := Option.isSome_iff_exists.mp hadd
      rw [step_add he] at hstep
      obtain ⟨_, -, hpair⟩ := Option.map_eq_some_iff.mp hstep
      exact (congrArg Prod.fst hpair).symm
    refine ⟨this', left ++ event.toList, ?_, hs.wf, ?_, ?_⟩
    · rw [run_snoc, hafter.run]
      simp [hstep]
    · rw [added_snoc, hafter.added, ← Multiset.coe_add, add_right_comm, hs.events,
        add_right_comm, add_assoc]
    · rw [SchedulerOp.queued_snoc]
      exact hs.card hafter.card hnone

theorem sorted_of_after {n : ℕ} {left : List Event} (hafter : After ops this left) :
    ∃ this' left', After (ops ++ List.replicate n .removeEvent) this' (left ++ left') ∧
      this'.events + ↑left' = this.events ∧
      left'.Pairwise (fun a b => timevalCmp a.time b.time ≤ 0) ∧
      ∀ a ∈ left', ∀ b ∈ this'.events, timevalCmp a.time b.time ≤ 0 := by
  induction n with
  | zero => exact ⟨this, [], by simpa using hafter, by simp, .nil, by simp⟩
  | succ n ih =>
    obtain ⟨this₁, left₁, hafter₁, hevents, hpairwise, hbound⟩ := ih
    obtain ⟨event, this₂, hstep, hs⟩ := serves_step .removeEvent hafter₁.wf fun hadd => by cases hadd
    have hrest := hs.events
    rw [SchedulerOp.event, Option.toList_none, Multiset.coe_nil, add_zero] at hrest
    have hmem : ∀ e ∈ event, e ∈ this₁.events := by
      rintro e rfl
      rw [hrest]
      simp
    refine ⟨this₂, left₁ ++ event.toList, ⟨?_, hs.wf, ?_, ?_⟩, ?_, ?_, ?_⟩
    · rw [List.replicate_succ', ← List.append_assoc, run_snoc, hafter₁.run]
      simp [hstep]
    · rw [List.replicate_succ', ← List.append_assoc, added_snoc, hafter₁.added, SchedulerOp.event, hrest]
      simp only [Option.toList_none, Multiset.coe_nil, add_zero, ← Multiset.coe_add]
      abel
    · rw [List.replicate_succ', ← List.append_assoc, SchedulerOp.queued_snoc]
      exact hs.card hafter₁.card fun hadd => by cases hadd
    · rw [← hevents, hrest, ← Multiset.coe_add]
      abel
    · rw [List.pairwise_append]
      refine ⟨hpairwise, by cases event <;> simp, fun a ha b hb => hbound a ha b (hmem b ?_)⟩
      exact Option.mem_toList.mp hb
    · intro a ha b hb
      have hb' : b ∈ this₁.events := by
        rw [hrest]
        exact Multiset.mem_add.mpr (.inl hb)
      rcases List.mem_append.mp ha with ha | ha
      · exact hbound a ha b hb'
      · exact hs.least a (Option.mem_toList.mp ha) b hb'

/-- If another event were added there would be no position for it. -/
theorem bounded_of_correct (h : Correct ops) {ops' : List SchedulerOp} (hp : ops' <+: ops) : Bounded ops' := by
  induction ops' using List.reverseRecOn with
  | nil =>
    intro before op hbefore
    simp at hbefore
  | append_singleton ops' op ih =>
    have hbounded := ih ((List.prefix_append _ _).trans hp)
    intro before op' hbefore hadd
    rcases List.prefix_concat_iff.mp hbefore with heq | hbefore
    · obtain ⟨rfl, hlast⟩ := List.append_inj' heq rfl
      cases hlast
      obtain ⟨this, left, hafter⟩ := run_of_bounded hbounded
      rw [← hafter.card, ← eventCount_eq]
      by_contra hnot
      have hle := hafter.wf.fits.trans hafter.wf.heapSize_le
      obtain ⟨e, he⟩ := Option.isSome_iff_exists.mp hadd
      obtain ⟨this', left', event, this'', hrun, hstep, -⟩ := h.serves before op hp
      rw [hafter.run] at hrun
      cases hrun
      rw [step_add he, scheduleJobTv_full hafter.wf (by omega)] at hstep
      cases hstep
    · exact hbounded before op' hbefore hadd

/-- **The scheduler is a priority queue** if and only if no more than 2^31 events are queued at a time. -/
theorem correct_iff (ops : List SchedulerOp) : Correct ops ↔
    ∀ before op, before ++ [op] <+: ops → op.event.isSome → SchedulerOp.queued before < 2 ^ 31 := by
  change Correct ops ↔ Bounded ops
  constructor
  · intro h
    exact bounded_of_correct h (List.prefix_refl _)
  · intro h
    refine ⟨fun before hbefore => ?_, fun before op hbefore => ?_, fun before n hbefore => ?_⟩
    · obtain ⟨this, left, hafter⟩ := run_of_bounded (h.of_prefix hbefore)
      exact ⟨this, left, hafter.run, hafter.wf, hafter.added⟩
    · obtain ⟨this, left, hafter⟩ := run_of_bounded (h.of_prefix ((List.prefix_append _ _).trans hbefore))
      obtain ⟨event, this', hstep, hs⟩ := serves_step op hafter.wf fun hadd => by
        rw [eventCount_eq, hafter.card]
        exact h before op hbefore hadd
      exact ⟨this, left, event, this', hafter.run, hstep, hs⟩
    · obtain ⟨this, left, hafter⟩ := run_of_bounded (h.of_prefix ((List.prefix_append _ _).trans hbefore))
      obtain ⟨this', left', hafter', -, hpairwise, -⟩ := sorted_of_after (n := n) hafter
      exact ⟨this, left, this', left', hafter.run, hafter'.run, hpairwise⟩

/-- With 2^31 events that are queued, another one has no position. -/
theorem not_correct : ¬ ∀ ops, Correct ops := by
  intro h
  have hqueued : ∀ n, SchedulerOp.queued (List.replicate n (.scheduleJobTv 0 ⟨0, 0⟩)) = n := by
    intro n
    induction n with
    | zero => rfl
    | succ n ih =>
      rw [List.replicate_succ', SchedulerOp.queued_snoc, ih]
      rfl
  have hbounded := (correct_iff (List.replicate (2 ^ 31) (.scheduleJobTv 0 ⟨0, 0⟩) ++
    [.scheduleJobTv 0 ⟨0, 0⟩])).mp (h _)
  have hlt := hbounded _ _ (List.prefix_refl _) rfl
  rw [hqueued] at hlt
  exact lt_irrefl _ hlt

end Runs

end Scheduler

end StrongSwan
