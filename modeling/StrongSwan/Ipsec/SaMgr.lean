import StrongSwan.Collections.Hashtable
import StrongSwan.Collections.LinkedList
import StrongSwan.Ipsec.Sa

/-!
# The SA manager

`SaMgr` keeps the installed SAs in a list of entries, which threads check out, wait for and remove.
A function here is what a thread does in one go while it holds the mutex: a call up to its end or to
its first wait on a condvar, or what follows a wait up to the next one. Signals are not modelled, as
a thread may wake up at any time.

* Entries are named by numbers, in the order of their creation. An access to one that is not
  allocated, or with an enumerator to a list element that was removed, gives `none`.
* `Pc`: where a thread leaves the mutex, with what it returns or waits for.
* `waitForEntry`, `waitRemoveEntry`: the handover between users and deleters of an entry.
* `call`, `resumeWaitForEntry`, `resumeWaitRemoveEntry`, `destroyFound`, `checkin`: the sections.
-/

namespace StrongSwan

/-- `ipsec_sa_entry_t`, without its condvar -/
structure SaEntry where
  sa : Sa
  /-- in use by a thread -/
  locked : Bool
  waitingThreads : ℕ
  awaitsDeletion : Bool

/-- `create_entry` -/
def SaEntry.create (sa : Sa) : SaEntry := ⟨sa, false, 0, false⟩

/-- `private_ipsec_sa_mgr_t`, with the entries allocated. -/
structure SaMgr where
  /-- installed SAs -/
  sas : List ℕ
  entries : ℕ → Option SaEntry
  /-- number of entries created so far -/
  created : ℕ
  /-- SPIs allocated using `getSpi` -/
  allocatedSpis : Hashtable U32 U32

/-- What a call returns. -/
inductive Result
  | status (status : Status)
  | spi (spi : U32)
  /-- usage statistics, unset if the SA is being removed -/
  | usestats (use : Option UseStats)
  /-- the SA of an entry, or `NULL` -/
  | sa (entry : Option ℕ)
  /-- whether to run an expiration again, and when -/
  | requeue (hardOffset : Option U32)

/-- The callers of `wait_for_entry`. -/
inductive Locker
  | updateSa (newSrc newDst : Host)
  | querySa
  | checkout

/-- The callers of `wait_remove_entry`. -/
inductive Deleter
  | flushSas
  | delSa
  | saExpired
  deriving DecidableEq

/-- The loops of `wait_remove_entry`. -/
inductive RemoveLoop
  | locked
  | waiting
  deriving DecidableEq

/-- Where a thread is while it does not hold the mutex. -/
inductive Pc
  | returned (result : Result)
  | waitForEntry (caller : Locker) (entry : ℕ)
  /-- the enumerator of the caller is at the entry -/
  | waitRemoveEntry (caller : Deleter) (loop : RemoveLoop) (current : ℕ)
  /-- in `delSa`, about to destroy what it found -/
  | found (entry : ℕ)

/-- The calls, but for `checkin`. -/
inductive Call
  | getSpi (spiMin spiMax : U32) (draws : List U32)
  | addSa (args : SaArgs) (update : Bool)
  | updateSa (spi : U32) (src dst newSrc newDst : Host) (newEncap : Bool)
  | querySa (src dst : Host) (spi : U32)
  | delSa (src dst : Host) (spi : U32)
  | checkoutByReqid (reqid : U32) (inbound : Bool)
  | checkoutBySpi (spi : U32) (dst : Host)
  | flushSas
  | saExpired (entry : ℕ) (spi hardOffset : U32)

namespace SaMgr

def create (spiHash : U32 → U32) : SaMgr where
  sas := []
  entries _ := none
  created := 0
  allocatedSpis := Hashtable.create spiHash (fun spi other => decide (spi = other)) 16

def setEntry (this : SaMgr) (entry : ℕ) (e : SaEntry) : SaMgr :=
  { this with entries := Function.update this.entries entry (some e) }

@[simp] theorem sas_setEntry (this : SaMgr) (entry : ℕ) (e : SaEntry) :
    (this.setEntry entry e).sas = this.sas := rfl

@[simp] theorem created_setEntry (this : SaMgr) (entry : ℕ) (e : SaEntry) :
    (this.setEntry entry e).created = this.created := rfl

@[simp] theorem entries_setEntry_self (this : SaMgr) (entry : ℕ) (e : SaEntry) :
    (this.setEntry entry e).entries entry = some e := Function.update_self ..

theorem entries_setEntry_of_ne (this : SaMgr) {entry other : ℕ} (h : other ≠ entry) (e : SaEntry) :
    (this.setEntry entry e).entries other = this.entries other := Function.update_of_ne h _ _

@[simp] theorem setEntry_setEntry (this : SaMgr) (entry : ℕ) (e e' : SaEntry) :
    (this.setEntry entry e).setEntry entry e' = this.setEntry entry e' := by
  simp [setEntry]

def destroyEntry (this : SaMgr) (entry : ℕ) : Option SaMgr := do
  let _ ← this.entries entry
  some { this with entries := Function.update this.entries entry none }

/-- `remove_at` with an enumerator at an entry -/
def removeAt (this : SaMgr) (current : ℕ) : Option SaMgr := do
  let sas ← LinkedList.removeAt current this.sas
  some { this with sas := sas }

/-- `find_first`, which compares the SAs of entries by address or by what they contain. -/
def findFirst (this : SaMgr) (p : ℕ → Sa → Bool) : List ℕ → Option (Option ℕ)
  | [] => some none
  | entry :: sas => do
    let e ← this.entries entry
    if p entry e.sa then some (some entry) else this.findFirst p sas

/-! ## Waiting for an entry -/

/-- `wait_for_entry`, which waits or returns whether it locked the entry. -/
inductive Waited
  | waits
  | returns (locked : Bool)

/-- `wait_for_entry` up to a wait in its loop or to its end. -/
def waitForEntry (this : SaMgr) (entry : ℕ) : Option (SaMgr × Waited) := do
  let e ← this.entries entry
  if e.locked && !e.awaitsDeletion then
    some (this.setEntry entry { e with waitingThreads := e.waitingThreads + 1 }, .waits)
  else if e.awaitsDeletion then some (this, .returns false)
  else some (this.setEntry entry { e with locked := true }, .returns true)

/-- What the callers of `wait_for_entry` do with its result. -/
def waitedForEntry (this : SaMgr) (caller : Locker) (entry : ℕ) (locked : Bool) :
    Option (SaMgr × Pc) :=
  match caller, locked with
  | .updateSa newSrc newDst, true => do
    let e ← this.entries entry
    let e := { e with sa := (e.sa.setSource newSrc).setDestination newDst }
    -- checkin the entry
    some (this.setEntry entry { e with locked := false }, .returned (.status .success))
  | .updateSa _ _, false => some (this, .returned (.status .success))
  | .querySa, true => do
    let e ← this.entries entry
    some (this.setEntry entry { e with locked := false }, .returned (.usestats (some e.sa.use)))
  | .querySa, false => some (this, .returned (.usestats none))
  | .checkout, true => some (this, .returned (.sa (some entry)))
  | .checkout, false => some (this, .returned (.sa none))

/-- A call of `wait_for_entry` with what follows. -/
def lockEntry (this : SaMgr) (caller : Locker) (entry : ℕ) : Option (SaMgr × Pc) := do
  match ← this.waitForEntry entry with
  | (this, .waits) => some (this, .waitForEntry caller entry)
  | (this, .returns locked) => this.waitedForEntry caller entry locked

/-! ## Removing an entry -/

/-- `wait_remove_entry` waits or returns whether the entry can be removed. -/
inductive Removal
  | waits (loop : RemoveLoop)
  | returns (removable : Bool)

/-- The second loop of `wait_remove_entry` -/
def waitWaiting (this : SaMgr) (entry : ℕ) : Option Removal := do
  let e ← this.entries entry
  some (if e.waitingThreads > 0 then .waits .waiting else .returns true)

/-- `wait_remove_entry` from its first loop on -/
def waitLocked (this : SaMgr) (entry : ℕ) : Option Removal := do
  let e ← this.entries entry
  if e.locked then some (.waits .locked) else this.waitWaiting entry

def waitRemoveEntry (this : SaMgr) (entry : ℕ) : Option (SaMgr × Removal) := do
  let e ← this.entries entry
  if e.awaitsDeletion then some (this, .returns false)
  else
    let this := this.setEntry entry { e with awaitsDeletion := true }
    let removal ← this.waitLocked entry
    some (this, removal)

/-- The loop of `flush_entries`, whose enumerator has still to visit the given elements. -/
def flushEntries (this : SaMgr) : List ℕ → Option (SaMgr × Pc)
  | [] => some (this, .returned (.status .success))
  | current :: rest => do
    match ← this.waitRemoveEntry current with
    | (this, .waits loop) => some (this, .waitRemoveEntry .flushSas loop current)
    | (this, .returns true) =>
      let this ← this.removeAt current
      let this ← this.destroyEntry current
      this.flushEntries rest
    | (this, .returns false) => this.flushEntries rest

/-- What the callers of `wait_remove_entry` do with its result. -/
def waitedRemoveEntry (this : SaMgr) (caller : Deleter) (current : ℕ) (removable : Bool) :
    Option (SaMgr × Pc) :=
  match caller, removable with
  | .flushSas, true => do
    let rest ← LinkedList.following current this.sas
    let this ← this.removeAt current
    let this ← this.destroyEntry current
    this.flushEntries rest
  | .flushSas, false => do
    let rest ← LinkedList.following current this.sas
    this.flushEntries rest
  | .delSa, true => do
    let this ← this.removeAt current
    some (this, .found current)
  | .delSa, false => some (this, .returned (.status .failed))
  | .saExpired, true => do
    let this ← this.removeAt current
    let this ← this.destroyEntry current
    some (this, .returned (.requeue none))
  | .saExpired, false => some (this, .returned (.requeue none))

/-- A wait in `wait_remove_entry`, or what follows its end. -/
def afterRemoval (this : SaMgr) (caller : Deleter) (current : ℕ) :
    Removal → Option (SaMgr × Pc)
  | .waits loop => some (this, .waitRemoveEntry caller loop current)
  | .returns removable => this.waitedRemoveEntry caller current removable

/-- A call of `wait_remove_entry` with what follows. -/
def deleteEntry (this : SaMgr) (caller : Deleter) (current : ℕ) : Option (SaMgr × Pc) := do
  let (this, removal) ← this.waitRemoveEntry current
  this.afterRemoval caller current removal

/-! ## Calls -/

def allocateSpi (this : SaMgr) (spi : U32) : Option (Bool × SaMgr) := do
  if (this.allocatedSpis.get spi).isSome then some (false, this)
  else
    let found ← this.findFirst (fun _ sa => sa.spi = spi && sa.inbound = true) this.sas
    if found.isSome then some (false, this)
    else some (true, { this with allocatedSpis := (this.allocatedSpis.put spi spi).2 })

/-- The loop of `get_spi`, with the numbers the RNG gives until it fails. -/
def getSpiLoop (this : SaMgr) (spiMin spiMax : U32) : List U32 → Option (SaMgr × Pc)
  | [] => some (this, .returned (.status .failed))
  | spiNew :: draws => do
    let spiNew := htonl (spiMin + spiNew % (spiMax - spiMin + 1))
    let (allocated, this) ← this.allocateSpi spiNew
    if allocated then some (this, .returned (.spi spiNew))
    else this.getSpiLoop spiMin spiMax draws

def getSpi (this : SaMgr) (spiMin spiMax : U32) (draws : List U32) : Option (SaMgr × Pc) :=
  let (spiMin, spiMax) := if spiMin > spiMax then (spiMax, spiMin) else (spiMin, spiMax)
  -- make sure the SPI is valid (not in range 0-255)
  this.getSpiLoop (umax spiMin 0x100) (umax spiMax 0x100) draws

def addSa (createAead : U16 → Chunk → U16 → Chunk → Option Aead) (this : SaMgr) (args : SaArgs)
    (update : Bool) : Option (SaMgr × Pc) :=
  match Sa.create createAead args with
  | none => some (this, .returned (.status .failed))
  | some saNew => do
    -- remove any pre-allocated SPIs
    let this := if update then
        { this with allocatedSpis := (this.allocatedSpis.remove args.spi).2 }
      else this
    let found ← this.findFirst
      (fun _ sa => sa.matchBySpiSrcDst args.spi args.src args.dst) this.sas
    if found.isSome then some (this, .returned (.status .failed))
    else
      let entry := this.created
      let this := this.setEntry entry (.create saNew)
      some ({ this with sas := entry :: this.sas, created := entry + 1 },
        .returned (.status .success))

def updateSa (this : SaMgr) (spi : U32) (src dst newSrc newDst : Host) (newEncap : Bool) :
    Option (SaMgr × Pc) :=
  if !newEncap then some (this, .returned (.status .notSupported))
  else do
    match ← this.findFirst (fun _ sa => sa.matchBySpiSrcDst spi src dst) this.sas with
    | some entry => this.lockEntry (.updateSa newSrc newDst) entry
    | none => some (this, .returned (.status .failed))

def querySa (this : SaMgr) (src dst : Host) (spi : U32) : Option (SaMgr × Pc) := do
  match ← this.findFirst (fun _ sa => sa.matchBySpiSrcDst spi src dst) this.sas with
  | some entry => this.lockEntry .querySa entry
  | none => some (this, .returned (.status .notFound))

def delSa (this : SaMgr) (src dst : Host) (spi : U32) : Option (SaMgr × Pc) := do
  match ← this.findFirst (fun _ sa => sa.matchBySpiSrcDst spi src dst) this.sas with
  | some entry => this.deleteEntry .delSa entry
  | none => some (this, .returned (.status .failed))

/-- `checkout_by_reqid` and `checkout_by_spi` -/
def checkout (this : SaMgr) (p : ℕ → Sa → Bool) : Option (SaMgr × Pc) := do
  match ← this.findFirst p this.sas with
  | some entry => this.lockEntry .checkout entry
  | none => some (this, .returned (.sa none))

/-- `sa_expired`, with `hard_offset = 0` for a hard expire. -/
def saExpired (this : SaMgr) (entry : ℕ) (spi hardOffset : U32) : Option (SaMgr × Pc) :=
  if entry ∉ this.sas then some (this, .returned (.requeue none))
  else do
    let e ← this.entries entry
    -- only if we find the right SA at this pointer location
    if spi ≠ e.sa.spi then some (this, .returned (.requeue none))
    else
      let this := this.setEntry entry { e with sa := e.sa.expire (hardOffset = 0) }
      if hardOffset ≠ 0 then some (this, .returned (.requeue (some hardOffset)))
      else this.deleteEntry .saExpired entry

/-- A call up to its first wait. -/
def call (createAead : U16 → Chunk → U16 → Chunk → Option Aead) (this : SaMgr) :
    Call → Option (SaMgr × Pc)
  | .getSpi spiMin spiMax draws => this.getSpi spiMin spiMax draws
  | .addSa args update => this.addSa createAead args update
  | .updateSa spi src dst newSrc newDst newEncap => this.updateSa spi src dst newSrc newDst newEncap
  | .querySa src dst spi => this.querySa src dst spi
  | .delSa src dst spi => this.delSa src dst spi
  | .checkoutByReqid reqid inbound => this.checkout fun _ sa => sa.matchByReqid reqid inbound
  | .checkoutBySpi spi dst => this.checkout fun _ sa => sa.matchBySpiDst spi dst
  | .flushSas => this.flushEntries this.sas
  | .saExpired entry spi hardOffset => this.saExpired entry spi hardOffset

/-- What follows a wake-up in `wait_for_entry`. -/
def resumeWaitForEntry (this : SaMgr) (caller : Locker) (entry : ℕ) : Option (SaMgr × Pc) := do
  let e ← this.entries entry
  (this.setEntry entry { e with waitingThreads := e.waitingThreads - 1 }).lockEntry caller entry

/-- What follows a wake-up in one of the loops of `wait_remove_entry`. -/
def resumeWaitRemoveEntry (this : SaMgr) (caller : Deleter) (loop : RemoveLoop) (current : ℕ) :
    Option (SaMgr × Pc) := do
  let removal ← match loop with
    | .locked => this.waitLocked current
    | .waiting => this.waitWaiting current
  this.afterRemoval caller current removal

/-- The end of `del_sa`, without the mutex. -/
def destroyFound (this : SaMgr) (found : ℕ) : Option (SaMgr × Pc) := do
  let this ← this.destroyEntry found
  some (this, .returned (.status .success))

/-- The SA of an entry is the object that the entry was created with. -/
def checkin (this : SaMgr) (sa : ℕ) : Option SaMgr := do
  match ← this.findFirst (fun entry _ => entry = sa) this.sas with
  | some entry => do
    let e ← this.entries entry
    if e.locked then some (this.setEntry entry { e with locked := false }) else some this
  | none => some this

end SaMgr

end StrongSwan
