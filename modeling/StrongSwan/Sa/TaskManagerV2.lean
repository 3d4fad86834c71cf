import StrongSwan.Collections.PtrArray
import StrongSwan.Encoding.Message
import StrongSwan.Utils.Timeval

/-!
# Tasks that change their queue

* `TaskManager` of an IKE_SA, with its arrays of queued, active and passive tasks.
* `reset`, `adoptTasks`, `adoptChildTasks`: the loops that drain, refill and sieve these arrays.
* `reset_spec`, `adoptTasks_spec`, `adoptChildTasks_spec`: the tasks in every array afterwards.

What a task does when it is migrated to another IKE_SA is a parameter.
-/

namespace StrongSwan

inductive TaskType
  | ikeInit
  | ikeNatd
  | ikeMobike
  | ikeAuth
  | ikeAuthLifetime
  | ikeCertPre
  | ikeCertPost
  | ikeConfig
  | ikeRekey
  | ikeReauth
  | ikeReauthComplete
  | ikeRedirect
  | ikeVerifyPeerCert
  | ikeMidSync
  | ikeDelete
  | ikeDpd
  | ikeVendor
  | ikeMe
  | childCreate
  | childDelete
  | childRekey
  | mainMode
  | aggressiveMode
  | informational
  | isakmpDelete
  | xauth
  | modeConfig
  | quickMode
  | quickDelete
  | isakmpVendor
  | isakmpNatd
  | isakmpDpd
  | isakmpCertPre
  | isakmpCertPost
  deriving DecidableEq, Repr

structure QueuedTask (Task : Type) where
  task : Task
  /-- time before which the task is not to be initiated -/
  time : Timeval

inductive TaskQueue
  | active
  | passive
  | queued

/-- The exchange handled as responder. -/
structure Responding where
  mid : U32
  packets : Option (PtrArray Packet)
  defrag : Option Message

/-- The exchange handled as initiator. -/
structure Initiating where
  mid : U32
  packets : Option (PtrArray Packet)
  type : ExchangeType
  defrag : Option Message

structure TaskManager (Task IkeSa : Type) where
  ikeSa : IkeSa
  responding : Responding
  initiating : Initiating
  queuedTasks : PtrArray (QueuedTask Task)
  activeTasks : PtrArray Task
  passiveTasks : PtrArray Task
  /-- the task manager has been reset -/
  isReset : Bool

def UINT_MAX : U32 := 0xffffffff

def clearPackets (array : Option (PtrArray Packet)) : Option (PtrArray Packet) :=
  array.map fun array => (array.drain (fun _ _ => ()) ()).2

namespace TaskManager

variable {Task IkeSa : Type} (getType : Task → TaskType) (migrate : Task → IkeSa → Task)

/-- `queue_task_delayed` at `time`, with the time of the job that is scheduled for a delayed task -/
def queueTaskDelayed (this : TaskManager Task IkeSa) (task : Task) (delay : U32) (time : Timeval) :
    TaskManager Task IkeSa × Option Timeval :=
  if delay ≠ 0 then
    let time := { time with sec := time.sec + delay.toNat }
    ({ this with queuedTasks := this.queuedTasks.insert ARRAY_TAIL ⟨task, time⟩ }, some time)
  else ({ this with queuedTasks := this.queuedTasks.insert ARRAY_TAIL ⟨task, time⟩ }, none)

def queueTask (this : TaskManager Task IkeSa) (task : Task) (time : Timeval) :
    TaskManager Task IkeSa := (this.queueTaskDelayed task 0 time).1

/-- `adopt_tasks`: both managers afterwards -/
def adoptTasks (this other : TaskManager Task IkeSa) (now : Timeval) :
    TaskManager Task IkeSa × TaskManager Task IkeSa :=
  let moved := other.queuedTasks.drain
    (fun queued tasks => tasks.insert ARRAY_HEAD ⟨migrate queued.task this.ikeSa, now⟩)
    this.queuedTasks
  ({ this with queuedTasks := moved.1 }, { other with queuedTasks := moved.2 })

/-- The tasks `migrate_child_tasks` is about. -/
def createsChild (task : Task) : Bool := getType task == .childCreate

/-- The task is queued at the next reading of the clock. -/
def migrateChildTask (task : Task) (state : TaskManager Task IkeSa × (ℕ → Timeval)) :
    TaskManager Task IkeSa × (ℕ → Timeval) :=
  (state.1.queueTask (migrate task state.1.ikeSa) (state.2 0), fun n => state.2 (n + 1))

/-- `migrate_child_tasks`; `clock` are the readings of the clock that are left. -/
def migrateChildTasks (this other : TaskManager Task IkeSa) (queue : TaskQueue)
    (clock : ℕ → Timeval) :
    (TaskManager Task IkeSa × (ℕ → Timeval)) × TaskManager Task IkeSa :=
  match queue with
  | .active =>
    let moved := other.activeTasks.sieve (createsChild getType) (migrateChildTask migrate) 0
      (this, clock)
    (moved.1, { other with activeTasks := moved.2 })
  | .queued =>
    let moved := other.queuedTasks.sieve (fun queued => createsChild getType queued.task)
      (fun queued => migrateChildTask migrate queued.task) 0 (this, clock)
    (moved.1, { other with queuedTasks := moved.2 })
  | .passive => ((this, clock), other)

/-- `adopt_child_tasks`: both managers afterwards -/
def adoptChildTasks (this other : TaskManager Task IkeSa) (clock : ℕ → Timeval) :
    TaskManager Task IkeSa × TaskManager Task IkeSa :=
  let active := migrateChildTasks getType migrate this other .active clock
  let queued := migrateChildTasks getType migrate active.1.1 active.2 .queued active.1.2
  (queued.1.1, queued.2)

def reset (this : TaskManager Task IkeSa) (initiate respond : U32) (now : Timeval) :
    TaskManager Task IkeSa :=
  let responding : Responding :=
    { mid := if respond ≠ UINT_MAX then respond else this.responding.mid
      packets := clearPackets this.responding.packets
      defrag := none }
  let initiating : Initiating :=
    { mid := if initiate ≠ UINT_MAX then initiate else this.initiating.mid
      packets := clearPackets this.initiating.packets
      type := .undefined
      defrag := none }
  let queuedTasks := this.queuedTasks.forEach
    (fun queued => ⟨migrate queued.task this.ikeSa, now⟩) 0
  let activated := this.activeTasks.drain
    (fun task tasks => tasks.insert ARRAY_HEAD ⟨migrate task this.ikeSa, now⟩) queuedTasks
  { this with
    responding
    initiating
    queuedTasks := activated.1
    activeTasks := activated.2
    isReset := true }

/-! ## The tasks afterwards -/

theorem toList_foldr_insert {α : Type} (f : α → QueuedTask Task) (tasks : List α)
    (array : PtrArray (QueuedTask Task)) :
    (tasks.foldr (fun task array => array.insert ARRAY_HEAD (f task)) array).toList =
      tasks.map f ++ array.toList := by
  induction tasks with
  | nil => rfl
  | cons task tasks ih =>
    rw [List.foldr_cons, PtrArray.toList_insert_head, ih]
    rfl

theorem reset_spec (this : TaskManager Task IkeSa) (initiate respond : U32) (now : Timeval) :
    (this.reset migrate initiate respond now).queuedTasks.toList =
        this.activeTasks.toList.map (fun task => ⟨migrate task this.ikeSa, now⟩) ++
          this.queuedTasks.toList.map (fun queued => ⟨migrate queued.task this.ikeSa, now⟩) ∧
      (this.reset migrate initiate respond now).activeTasks.toList = [] ∧
      (this.reset migrate initiate respond now).passiveTasks = this.passiveTasks := by
  have hqueued := PtrArray.forEach_spec
    (fun queued : QueuedTask Task => (⟨migrate queued.task this.ikeSa, now⟩ : QueuedTask Task))
    (show this.queuedTasks.toList = [] ++ this.queuedTasks.toList from rfl)
  obtain ⟨hactive, hempty⟩ := PtrArray.drain_spec
    (fun task (tasks : PtrArray (QueuedTask Task)) =>
      tasks.insert ARRAY_HEAD ⟨migrate task this.ikeSa, now⟩)
    (this.queuedTasks.forEach (fun queued => ⟨migrate queued.task this.ikeSa, now⟩) 0)
    (Eq.refl this.activeTasks.toList)
  refine ⟨?_, hempty, rfl⟩
  refine (congrArg PtrArray.toList hactive).trans ?_
  rw [toList_foldr_insert fun task => (⟨migrate task this.ikeSa, now⟩ : QueuedTask Task)]
  exact congrArg _ hqueued

theorem adoptTasks_spec (this other : TaskManager Task IkeSa) (now : Timeval) :
    (adoptTasks migrate this other now).1.queuedTasks.toList =
        other.queuedTasks.toList.map (fun queued => ⟨migrate queued.task this.ikeSa, now⟩) ++
          this.queuedTasks.toList ∧
      (adoptTasks migrate this other now).2.queuedTasks.toList = [] := by
  obtain ⟨hmoved, hempty⟩ := PtrArray.drain_spec
    (fun (queued : QueuedTask Task) (tasks : PtrArray (QueuedTask Task)) =>
      tasks.insert ARRAY_HEAD ⟨migrate queued.task this.ikeSa, now⟩)
    this.queuedTasks (Eq.refl other.queuedTasks.toList)
  refine ⟨?_, hempty⟩
  refine (congrArg PtrArray.toList hmoved).trans ?_
  exact toList_foldr_insert
    (fun queued : QueuedTask Task => (⟨migrate queued.task this.ikeSa, now⟩ : QueuedTask Task)) _ _

theorem foldl_migrateChildTask (tasks : List Task) :
    ∀ (this : TaskManager Task IkeSa) (clock : ℕ → Timeval), ∃ array clock' added,
      tasks.foldl (fun state task => migrateChildTask migrate task state) (this, clock) =
          ({ this with queuedTasks := array }, clock') ∧
        array.toList = this.queuedTasks.toList ++ added ∧
        added.map QueuedTask.task = tasks.map (migrate · this.ikeSa) := by
  induction tasks with
  | nil => exact fun this clock => ⟨_, clock, [], rfl, (List.append_nil _).symm, rfl⟩
  | cons task tasks ih =>
    intro this clock
    obtain ⟨array, clock', added, hfold, hlist, htasks⟩ :=
      ih (this.queueTask (migrate task this.ikeSa) (clock 0)) fun n => clock (n + 1)
    refine ⟨array, clock', ⟨migrate task this.ikeSa, clock 0⟩ :: added, ?_, ?_, ?_⟩
    · rw [List.foldl_cons]
      exact hfold
    · rw [hlist, List.append_cons]
      exact congrArg (· ++ added) (PtrArray.toList_insert_tail _ _)
    · rw [List.map_cons, htasks]
      rfl

theorem migrateChildTasks_active (this other : TaskManager Task IkeSa) (clock : ℕ → Timeval) :
    ∃ array clock' rest added,
      migrateChildTasks getType migrate this other .active clock =
          (({ this with queuedTasks := array }, clock'), { other with activeTasks := rest }) ∧
        array.toList = this.queuedTasks.toList ++ added ∧
        added.map QueuedTask.task =
          (other.activeTasks.toList.filter (createsChild getType)).map (migrate · this.ikeSa) ∧
        rest.toList = other.activeTasks.toList.filter fun task => !createsChild getType task := by
  obtain ⟨hmoved, hrest⟩ := PtrArray.sieve_spec (createsChild getType) (migrateChildTask migrate)
    (this, clock) (show other.activeTasks.toList = [] ++ other.activeTasks.toList from rfl)
  obtain ⟨array, clock', added, hfold, hlist, htasks⟩ := foldl_migrateChildTask migrate
    (other.activeTasks.toList.filter (createsChild getType)) this clock
  refine ⟨array, clock', _, added, ?_, hlist, htasks, hrest⟩
  rw [migrateChildTasks]
  exact congrArg (fun state => (state, _)) (hmoved.trans hfold)

theorem migrateChildTasks_queued (this other : TaskManager Task IkeSa) (clock : ℕ → Timeval) :
    ∃ array clock' rest added,
      migrateChildTasks getType migrate this other .queued clock =
          (({ this with queuedTasks := array }, clock'), { other with queuedTasks := rest }) ∧
        array.toList = this.queuedTasks.toList ++ added ∧
        added.map QueuedTask.task =
          (other.queuedTasks.toList.filter fun queued => createsChild getType queued.task).map
            (fun queued => migrate queued.task this.ikeSa) ∧
        rest.toList =
          other.queuedTasks.toList.filter fun queued => !createsChild getType queued.task := by
  obtain ⟨hmoved, hrest⟩ := PtrArray.sieve_spec
    (fun queued : QueuedTask Task => createsChild getType queued.task)
    (fun queued => migrateChildTask migrate queued.task) (this, clock)
    (show other.queuedTasks.toList = [] ++ other.queuedTasks.toList from rfl)
  obtain ⟨array, clock', added, hfold, hlist, htasks⟩ := foldl_migrateChildTask migrate
    ((other.queuedTasks.toList.filter fun queued => createsChild getType queued.task).map
      QueuedTask.task) this clock
  rw [List.foldl_map] at hfold
  rw [List.map_map] at htasks
  refine ⟨array, clock', _, added, ?_, hlist, htasks, hrest⟩
  rw [migrateChildTasks]
  exact congrArg (fun state => (state, _)) (hmoved.trans hfold)

theorem adoptChildTasks_spec (this other : TaskManager Task IkeSa) (clock : ℕ → Timeval) :
    ∃ array active queued added,
      adoptChildTasks getType migrate this other clock =
          ({ this with queuedTasks := array },
            { other with activeTasks := active, queuedTasks := queued }) ∧
        array.toList = this.queuedTasks.toList ++ added ∧
        added.map QueuedTask.task =
          (other.activeTasks.toList.filter (createsChild getType)).map (migrate · this.ikeSa) ++
            (other.queuedTasks.toList.filter fun queued => createsChild getType queued.task).map
              (fun queued => migrate queued.task this.ikeSa) ∧
        active.toList = (other.activeTasks.toList.filter fun task => !createsChild getType task) ∧
        queued.toList =
          other.queuedTasks.toList.filter fun queued => !createsChild getType queued.task := by
  obtain ⟨array, clock', active, added, hactive, hlist, htasks, hrest⟩ :=
    migrateChildTasks_active getType migrate this other clock
  obtain ⟨array', _, queued, added', hqueued, hlist', htasks', hrest'⟩ :=
    migrateChildTasks_queued getType migrate { this with queuedTasks := array }
      { other with activeTasks := active } clock'
  refine ⟨array', active, queued, added ++ added', ?_, ?_, ?_, hrest, hrest'⟩
  · rw [adoptChildTasks, hactive]
    dsimp only
    rw [hqueued]
  · rw [hlist', hlist, List.append_assoc]
  · rw [List.map_append, htasks, htasks']

theorem tasks_exact (this other : TaskManager Task IkeSa) (initiate respond : U32) (now : Timeval)
    (clock : ℕ → Timeval) :
    ((this.reset migrate initiate respond now).queuedTasks.toList =
        this.activeTasks.toList.map (fun task => ⟨migrate task this.ikeSa, now⟩) ++
          this.queuedTasks.toList.map (fun queued => ⟨migrate queued.task this.ikeSa, now⟩) ∧
      (this.reset migrate initiate respond now).activeTasks.toList = [] ∧
      (this.reset migrate initiate respond now).passiveTasks = this.passiveTasks) ∧
    (∃ array rest, adoptTasks migrate this other now =
          ({ this with queuedTasks := array }, { other with queuedTasks := rest }) ∧
        array.toList =
          other.queuedTasks.toList.map (fun queued => ⟨migrate queued.task this.ikeSa, now⟩) ++
            this.queuedTasks.toList ∧
        rest.toList = []) ∧
    ∃ array active queued added,
      adoptChildTasks getType migrate this other clock =
          ({ this with queuedTasks := array },
            { other with activeTasks := active, queuedTasks := queued }) ∧
        array.toList = this.queuedTasks.toList ++ added ∧
        added.map QueuedTask.task =
          (other.activeTasks.toList.filter (createsChild getType)).map (migrate · this.ikeSa) ++
            (other.queuedTasks.toList.filter fun queued => createsChild getType queued.task).map
              (fun queued => migrate queued.task this.ikeSa) ∧
        active.toList = (other.activeTasks.toList.filter fun task => !createsChild getType task) ∧
        queued.toList =
          other.queuedTasks.toList.filter fun queued => !createsChild getType queued.task := by
  refine ⟨reset_spec migrate this initiate respond now, ?_,
    adoptChildTasks_spec getType migrate this other clock⟩
  obtain ⟨hqueued, hempty⟩ := adoptTasks_spec migrate this other now
  exact ⟨_, _, rfl, hqueued, hempty⟩

/-- The tasks of CHILD_SAs. -/
def ChildRelated (task : TaskType) : Bool :=
  task == .childCreate || task == .childDelete || task == .childRekey

def withQueued (array : PtrArray (QueuedTask TaskType)) : TaskManager TaskType Unit where
  ikeSa := ()
  responding := ⟨0, none, none⟩
  initiating := ⟨0, none, .undefined, none⟩
  queuedTasks := array
  activeTasks := .create 0 (by decide)
  passiveTasks := .create 0 (by decide)
  isReset := false

/-- The deletion of a CHILD_SA stays behind. -/
theorem not_adopts : ¬ ∀ (this other : TaskManager TaskType Unit) (clock : ℕ → Timeval),
    (adoptChildTasks id (fun task _ => task) this other clock).2.queuedTasks.toList =
      other.queuedTasks.toList.filter fun queued => !ChildRelated queued.task := by
  intro hall
  let empty : PtrArray (QueuedTask TaskType) := .create 0 (by decide)
  let delete := empty.insert ARRAY_TAIL ⟨.childDelete, ⟨0, 0⟩⟩
  have hdelete : delete.toList = [⟨.childDelete, ⟨0, 0⟩⟩] := by
    rw [PtrArray.toList_insert_tail, PtrArray.toList_create]
    rfl
  have hstays := hall (withQueued empty) (withQueued delete) fun _ => ⟨0, 0⟩
  obtain ⟨_, _, _, _, hadopt, -, -, -, hqueued⟩ :=
    adoptChildTasks_spec id (fun (task : TaskType) (_ : Unit) => task) (withQueued empty)
      (withQueued delete) fun _ => ⟨0, 0⟩
  rw [hadopt] at hstays
  have hboth := hqueued.symm.trans hstays
  rw [show (withQueued delete).queuedTasks.toList = [⟨.childDelete, ⟨0, 0⟩⟩] from hdelete] at hboth
  exact absurd (congrArg List.length hboth) (by decide)

end TaskManager

end StrongSwan
