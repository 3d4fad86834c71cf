import StrongSwan.Basic
import StrongSwan.Utils.Timeval

/-!
# The scheduler

Events are kept in a binary heap by their time. All accesses are checked: `none` if a position outside of
the heap is used, or one that nothing was written to.

* `peekEvent`, `removeEvent`, `scheduleJobTv`.
* `scheduleJob`, `scheduleJobMs`, `schedule`, `flush`.
-/

namespace StrongSwan

/-- `event_t`; a job is referred to by its address. -/
structure Event where
  time : Timeval
  job : ℕ

/-- `HEAP_SIZE_DEFAULT` -/
def heapSizeDefault : U32 := 64

/-- `private_scheduler_t`; the heap has one position more than its size, the first one is not used. -/
structure Scheduler where
  heap : ℕ → Option Event
  heapSize : U32
  eventCount : U32

namespace Scheduler

def create : Scheduler := ⟨fun _ => none, heapSizeDefault, 0⟩

/-- An event in the heap. -/
def read (this : Scheduler) (position : U32) : Option Event :=
  if 1 ≤ position ∧ position ≤ this.heapSize then this.heap position.toNat else none

/-- Put an event into the heap. -/
def write (this : Scheduler) (position : U32) (event : Event) : Option Scheduler :=
  if 1 ≤ position ∧ position ≤ this.heapSize then
    some { this with heap := Function.update this.heap position.toNat (some event) }
  else none

/-- Returns the top event without removing it, nothing if the heap is empty. -/
def peekEvent (this : Scheduler) : Option (Option Event) :=
  if this.eventCount > 0 then (this.read 1).map some else some none

def smallerChild (this : Scheduler) (child : U32) : Option U32 :=
  if child + 1 ≤ this.eventCount then do
    let right ← this.read (child + 1)
    let left ← this.read child
    -- the "right" child is smaller
    if timevalCmp right.time left.time < 0 then some (child + 1) else some child
  else some child

/-- Seep down the top event; no more often than there are events. -/
def seepDown (top : Event) : ℕ → Scheduler → U32 → Option Scheduler
  | 0, _, _ => none
  | fuel + 1, this, position =>
    if position <<< 1 ≤ this.eventCount then do
      let child ← this.smallerChild (position <<< 1)
      let event ← this.read child
      -- the top event fires before the smaller of the two children, stop
      if timevalCmp top.time event.time ≤ 0 then this.write position top
      else
        -- swap with the smaller child
        let this ← this.write position event
        seepDown top fuel this child
    else this.write position top

/-- Removes the top event from the heap and returns it, nothing if the heap is empty. -/
def removeEvent (this : Scheduler) : Option (Option Event × Scheduler) :=
  if this.eventCount = 0 then some (none, this)
  else do
    -- store the value to return
    let event ← this.read 1
    -- move the bottom event to the top
    let top ← this.read this.eventCount
    let this ← this.write 1 top
    let this := { this with eventCount := this.eventCount - 1 }
    if this.eventCount > 1 then
      let this ← seepDown top this.eventCount.toNat this 1
      some (some event, this)
    else some (some event, this)

def bubbleUp (event : Event) : ℕ → Scheduler → U32 → Option Scheduler
  | 0, _, _ => none
  | fuel + 1, this, position =>
    if position > 1 then do
      let parent ← this.read (position >>> 1)
      if timevalCmp parent.time event.time > 0 then
        -- parent has to be fired after the new event, move up
        let this ← this.write position parent
        bubbleUp event fuel this (position >>> 1)
      else this.write position event
    else this.write position event

/-- Double the size of the heap; what is behind it is lost. -/
def grow (this : Scheduler) : Scheduler where
  heap i := if i ≤ min this.heapSize.toNat (this.heapSize <<< 1).toNat then this.heap i else none
  heapSize := this.heapSize <<< 1
  eventCount := this.eventCount

def scheduleJobTv (this : Scheduler) (job : ℕ) (tv : Timeval) : Option Scheduler :=
  let event : Event := ⟨tv, job⟩
  let this := { this with eventCount := this.eventCount + 1 }
  let this := if this.eventCount > this.heapSize then this.grow else this
  -- "put" the event to the bottom, then bubble it up
  bubbleUp event this.eventCount.toNat this this.eventCount

/-- `schedule_job`; `now` is what `time_monotonic` returns. -/
def scheduleJob (this : Scheduler) (now : Timeval) (job : ℕ) (s : U32) : Option Scheduler :=
  this.scheduleJobTv job { now with sec := now.sec + s.toNat }

def scheduleJobMs (this : Scheduler) (now : Timeval) (job : ℕ) (ms : U32) : Option Scheduler :=
  this.scheduleJobTv job (timeradd now ⟨ms.toNat / 1000, ms.toNat % 1000 * 1000⟩)

/-- Get the event that fires, if there is one, and when to wake up for the next one otherwise. -/
def schedule (this : Scheduler) (now : Timeval) : Option ((Option Event ⊕ Option Timeval) × Scheduler) := do
  match ← this.peekEvent with
  | some event =>
    if timevalCmp now event.time ≥ 0 then
      let (event, this) ← this.removeEvent
      some (.inl event, this)
    else some (.inr (some event.time), this)
  | none => some (.inr none, this)

/-- Three events leave in the order of their times. -/
example : (do
    let this ← create.scheduleJob ⟨5, 0⟩ 1 10
    let this ← this.scheduleJobMs ⟨5, 999999⟩ 2 1
    let this ← this.scheduleJobTv 3 ⟨6, 0⟩
    let (first, this) ← this.removeEvent
    let (second, this) ← this.removeEvent
    let (third, this) ← this.removeEvent
    let (fourth, _) ← this.removeEvent
    some [first.map Event.job, second.map Event.job, third.map Event.job, fourth.map Event.job]) =
    some [some 3, some 2, some 1, none] := by decide +kernel

end Scheduler

end StrongSwan
