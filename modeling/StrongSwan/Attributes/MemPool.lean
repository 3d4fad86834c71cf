import StrongSwan.Lib.System
import StrongSwan.Networking.Host
import StrongSwan.Collections.Hashtable
import StrongSwan.Collections.Array

/-!
# In-memory virtual IP pools

`MemPool` hands out the addresses of a subnet or a range as offsets from its base address. A lease
belongs to the entry of an identity, where it is online, possibly several times, or offline.

* `memPoolCreate`, `memPoolCreateRange`: the constructors.
* `offset2host`, `host2offset`: between offsets and addresses.
* `getExisting`, `getNew`, `getReassigned`: the three ways to a lease, `acquireAddress` around them.
* `releaseAddress`: give a lease back.
* `system`: a constructed pool and the calls made to it. `static_steps`: its base and size stay.

Identities are a type with a hash and an equality, and `chunkHashInc` stands for the keyed hash of
an address and a port.
-/

namespace StrongSwan

/-- Host bits a pool is limited to. -/
def POOL_LIMIT : ℤ := 4 * 8 - 1

structure UniqueLease where
  /-- lease, as offset -/
  offset : U32
  /-- hash of remote address, to allow duplicates -/
  hash : U32
  deriving DecidableEq

structure Entry (Id : Type) where
  id : Id
  online : Arr UniqueLease
  offline : Arr U32

def entryCreate {Id : Type} (id : Id) : Entry Id := ⟨id, .create 0, .create 0⟩

inductive MemPoolOp
  | existing
  | new
  | reassign
  deriving DecidableEq, Repr

structure MemPool (Id : Type) where
  base : Option Host
  /-- whether base is the network id of the subnet on which the pool is based -/
  baseIsNetworkId : Bool
  size : U32
  /-- next unused address -/
  unused : U32
  leases : Hashtable Id (Entry Id)

namespace MemPool

variable {Id : Type}

/-! ## Offsets -/

/-- Where the last four bytes of an address start. -/
def lastBlock (family : Family) : ℕ :=
  match family with
  | .inet => 0
  | .inet6 => 12

/-- Convert a pool offset to an address. -/
def offset2host (pool : MemPool Id) (offset : U32) : Option Host :=
  let offset := offset - 1
  if offset > pool.size then none
  else
    pool.base.bind fun base =>
      let pos := lastBlock base.family
      let addr := base.address.take pos ++ htoun32 (offset + untoh32 (base.address.drop pos))
      hostCreateFromChunk base.family addr 0

/-- Convert a host to a pool offset, `-1` if it is not in reach of the base address. -/
def host2offset (pool : MemPool Id) (addr : Host) : U32 :=
  match pool.base with
  | none => -1
  | some base =>
    let pos := lastBlock addr.family
    if addr.family ≠ base.family then -1
    -- only look at last /32 block
    else if addr.family = .inet6 ∧ addr.address.take 12 ≠ base.address.take 12 then -1
    else
      let hosti := untoh32 (addr.address.drop pos)
      let basei := untoh32 (base.address.drop pos)
      if hosti > basei + pool.size then -1 else hosti - basei + 1

/-! ## Leases -/

/-- `0` or `1`, what the offsets of a pool based on its network id are shifted by. -/
def shift (this : MemPool Id) : U32 := if this.baseIsNetworkId then 1 else 0

/-- Find or create the entry of `id` and append a lease to its online ones. -/
def insertOnline (this : MemPool Id) (id : Id) (lease : UniqueLease) : MemPool Id :=
  let leases := match this.leases.get id with
    | some _ => this.leases
    | none => (this.leases.put id (entryCreate id)).2
  { this with
    leases := leases.update id fun entry => { entry with online := entry.online.insert lease } }

section

variable (chunkHashInc : Chunk → U32 → U32)

/-- A unique hash for a remote address. -/
def hashAddr (addr : Option Host) : U32 :=
  match addr with
  | some addr => chunkHashInc addr.address (addr.port.setWidth 32)
  | none => 0

/-- Get an existing lease for `id`. -/
def getExisting (this : MemPool Id) (id : Id) (requested : Host) (peer : Option Host) :
    U32 × MemPool Id :=
  match this.leases.get id with
  | none => (0, this)
  | some entry =>
    -- a valid offline lease, refresh
    let current := entry.offline.elems.head?
    let offset := current.getD 0
    let this := if current.isSome then
        { this with
          leases := this.leases.update id fun entry =>
            { entry with
              online := entry.online.insert ⟨offset, hashAddr chunkHashInc peer⟩
              offline := entry.offline.remove 0 } }
      else this
    if offset ≠ 0 then (offset, this)
    else if peer.isNone then (0, this)
    else
      -- a valid online lease to reassign
      let online := ((this.leases.get id).getD entry).online
      let valid := fun lease : UniqueLease =>
        lease.offset = this.host2offset requested ∧ lease.hash = hashAddr chunkHashInc peer
      match online.elems.find? valid with
      | none => (0, this)
      | some lease =>
        -- an additional "online" entry
        (lease.offset, { this with
          leases := this.leases.update id fun entry =>
            { entry with
              online := entry.online.insertOwn (online.elems.findIdx valid) lease } })

/-- Get a new lease for `id`. -/
def getNew (this : MemPool Id) (id : Id) (peer : Option Host) : U32 × MemPool Id :=
  if this.unused < this.size then
    -- offsets start at 1
    let unused := this.unused + 1
    let offset := unused + this.shift
    (offset, { this with unused := unused }.insertOnline id ⟨offset, hashAddr chunkHashInc peer⟩)
  else (0, this)

/-- One turn of the loop in `getReassigned`: take the first offline lease of an entry, drop the
entry if nothing is left in it, and leave the loop with a lease. -/
def reassignEntry (offset : U32) (entry : Entry Id) : U32 × Option (Entry Id) × Bool :=
  let current := entry.offline.elems.head?
  let offset := current.getD offset
  let entry := if current.isSome then { entry with offline := entry.offline.remove 0 } else entry
  let isEmpty := entry.online.elems.isEmpty && entry.offline.elems.isEmpty
  (offset, if isEmpty then none else some entry, offset ≠ 0)

/-- Get a reassigned lease for `id` in case the pool is full. -/
def getReassigned (this : MemPool Id) (id : Id) (peer : Option Host) : U32 × MemPool Id :=
  let r := this.leases.enumerate reassignEntry 0
  let offset := r.1
  let this := { this with leases := r.2 }
  if offset ≠ 0 then (offset, this.insertOnline id ⟨offset, hashAddr chunkHashInc peer⟩)
  else (0, this)

def acquireAddress (this : MemPool Id) (id : Id) (requested : Host) (operation : MemPoolOp)
    (peer : Option Host) : Option Host × MemPool Id :=
  -- if the pool is empty (e.g. in the %config case) we simply return the requested address
  if this.size = 0 then (some requested, this)
  else if some requested.family ≠ this.base.map Host.family then (none, this)
  else
    let r := match operation with
      | .existing => this.getExisting chunkHashInc id requested peer
      | .new => this.getNew chunkHashInc id peer
      | .reassign => this.getReassigned chunkHashInc id peer
    (if r.1 ≠ 0 then r.2.offset2host r.1 else none, r.2)

end

def releaseAddress (this : MemPool Id) (address : Host) (id : Id) : Bool × MemPool Id :=
  if this.size = 0 then (false, this)
  else
    match this.leases.get id with
    | none => (false, this)
    | some entry =>
      let offset := this.host2offset address
      let matching := fun current : UniqueLease => current.offset = offset
      if entry.online.elems.any matching then
        -- remove the first one only, but check for more
        let online := entry.online.remove (entry.online.elems.findIdx matching)
        let more := online.elems.any matching
        (true, { this with
          leases := this.leases.update id fun entry =>
            { entry with
              online := online
              offline := if more then entry.offline else entry.offline.insert offset } })
      else (false, this)

/-! ## Constructors -/

section

variable (idHash : Id → U32) (idEquals : Id → Id → Bool)

/-- Generic constructor. -/
def createGeneric : MemPool Id where
  base := none
  baseIsNetworkId := false
  size := 0
  unused := 0
  leases := .create idHash idEquals 16

/-- The host bits of a host, as far as they are in its last four bytes: zero if it is the network
id of its subnet. -/
def networkIdDiff (host : Host) (hostbits : ℕ) : U32 :=
  if hostbits = 0 then 0
  else
    let last := untoh32 (host.address.drop (host.address.length - 4))
    let hostbits := 4 * 8 - hostbits
    (last <<< hostbits) >>> hostbits

def memPoolCreate (base : Option Host) (bits : ℤ) : MemPool Id :=
  let this := createGeneric idHash idEquals
  match base with
  | none => this
  | some base =>
    let addrBits : ℤ := if base.family = .inet then 32 else 128
    let bits := max 0 (min bits addrBits)
    -- net bits -> host bits
    let bits := addrBits - bits
    let bits := if bits > POOL_LIMIT then POOL_LIMIT else bits
    let size := (1 : U32) <<< bits.toNat
    let this := { this with size := size, base := some base }
    if this.size > 2 then
      -- if base is the network id we later skip the first address, otherwise adjust the size to
      -- represent the actual number of assignable addresses
      let diff := networkIdDiff base bits.toNat
      let this := if diff = 0 then { this with baseIsNetworkId := true, size := this.size - 1 }
        else { this with size := this.size - diff }
      -- skip the last address (broadcast) of the subnet
      { this with size := this.size - 1 }
    else if networkIdDiff base bits.toNat ≠ 0 then
      -- only serve the second address of the subnet
      { this with size := this.size - 1 }
    else this

def memPoolCreateRange (from_ to_ : Host) : Option (MemPool Id) :=
  let fromaddr := from_.address
  let toaddr := to_.address
  if from_.family ≠ to_.family ∨ fromaddr.length ≠ toaddr.length ∨ fromaddr.length < 4 ∨
      Bytes.lexCmp fromaddr toaddr = .gt then none
  else if fromaddr.length > 4 ∧
      fromaddr.take (fromaddr.length - 4) ≠ toaddr.take (fromaddr.length - 4) then none
  else
    let diff := untoh32 (toaddr.drop (toaddr.length - 4)) -
      untoh32 (fromaddr.drop (fromaddr.length - 4))
    some { createGeneric idHash idEquals with base := some from_, size := diff + 1 }

end

/-! ## Runs of calls -/

/-- A call with what it returned. -/
inductive Call (Id : Type)
  | acquire (id : Id) (requested : Host) (operation : MemPoolOp) (peer : Option Host)
      (result : Option Host)
  | release (address : Host) (id : Id) (result : Bool)

section

variable (idHash : Id → U32) (idEquals : Id → Id → Bool) (chunkHashInc : Chunk → U32 → U32)

/-- The pools a constructor returns. -/
def Created (p : MemPool Id) : Prop :=
  (∃ base bits, memPoolCreate idHash idEquals base bits = p) ∨
    ∃ from_ to_, memPoolCreateRange idHash idEquals from_ to_ = some p

/-- A pool with addresses to assign, and the calls made to it under its mutex. -/
def system : LTS.System (MemPool Id) (Call Id) where
  init p := Created idHash idEquals p ∧ 1 ≤ p.size
  step p call q := match call with
    | .acquire id requested operation peer result =>
      p.acquireAddress chunkHashInc id requested operation peer = (result, q)
    | .release address id result => p.releaseAddress address id = (result, q)

end

theorem step_acquire {idHash : Id → U32} {idEquals : Id → Id → Bool}
    {chunkHashInc : Chunk → U32 → U32} {p : MemPool Id} {id : Id} {requested : Host}
    {operation : MemPoolOp} {peer result : Option Host}
    (h : (p.acquireAddress chunkHashInc id requested operation peer).1 = result) :
    (system idHash idEquals chunkHashInc).step p (.acquire id requested operation peer result)
      (p.acquireAddress chunkHashInc id requested operation peer).2 :=
  Prod.ext h rfl

/-- What no call changes, and how `unused` grows. -/
structure Static (p q : MemPool Id) : Prop where
  base : q.base = p.base
  baseIsNetworkId : q.baseIsNetworkId = p.baseIsNetworkId
  size : q.size = p.size
  unused : q.unused = p.unused ∨ p.unused < p.size ∧ q.unused = p.unused + 1

namespace Static

theorem refl (p : MemPool Id) : Static p p := ⟨rfl, rfl, rfl, .inl rfl⟩

theorem leases (p : MemPool Id) (leases : Hashtable Id (Entry Id)) :
    Static p { p with leases := leases } := ⟨rfl, rfl, rfl, .inl rfl⟩

end Static

section

variable (chunkHashInc : Chunk → U32 → U32) (p : MemPool Id)

theorem static_getExisting (id : Id) (requested : Host) (peer : Option Host) :
    Static p (p.getExisting chunkHashInc id requested peer).2 := by
  unfold getExisting
  cases p.leases.get id with
  | none => exact .refl p
  | some entry =>
    dsimp only
    cases entry.offline.elems.head? <;> dsimp only [Option.isSome] <;> split_ifs
    all_goals first
      | exact .refl p
      | exact .leases p _
      | (split <;> first | exact .refl p | exact .leases p _)

theorem static_getNew (id : Id) (peer : Option Host) :
    Static p (p.getNew chunkHashInc id peer).2 := by
  unfold getNew
  split_ifs with h
  · exact ⟨rfl, rfl, rfl, .inr ⟨h, rfl⟩⟩
  · exact .refl p

theorem static_getReassigned (id : Id) (peer : Option Host) :
    Static p (p.getReassigned chunkHashInc id peer).2 := by
  unfold getReassigned
  dsimp only
  split_ifs <;> exact .leases p _

theorem static_acquireAddress (id : Id) (requested : Host) (operation : MemPoolOp)
    (peer : Option Host) :
    Static p (p.acquireAddress chunkHashInc id requested operation peer).2 := by
  unfold acquireAddress
  split_ifs
  · exact .refl p
  · exact .refl p
  · cases operation with
    | existing => exact static_getExisting chunkHashInc p id requested peer
    | new => exact static_getNew chunkHashInc p id peer
    | reassign => exact static_getReassigned chunkHashInc p id peer

theorem static_releaseAddress (address : Host) (id : Id) :
    Static p (p.releaseAddress address id).2 := by
  unfold releaseAddress
  split_ifs
  · exact .refl p
  · cases p.leases.get id with
    | none => exact .refl p
    | some entry =>
      dsimp only
      cases entry.online.elems.any _ with
      | true => exact .leases p _
      | false => exact .refl p

end

section

variable {idHash : Id → U32} {idEquals : Id → Id → Bool} {chunkHashInc : Chunk → U32 → U32}
  {p q : MemPool Id}

theorem static_step {call : Call Id} (h : (system idHash idEquals chunkHashInc).step p call q) :
    Static p q := by
  cases call with
  | acquire id requested operation peer result =>
    have := static_acquireAddress chunkHashInc p id requested operation peer
    rwa [show p.acquireAddress chunkHashInc id requested operation peer = (result, q) from h] at this
  | release address id result =>
    have := static_releaseAddress p address id
    rwa [show p.releaseAddress address id = (result, q) from h] at this

/-- **A pool keeps its base and its size**, and uses no more addresses than it has. -/
theorem static_steps {calls : List (Call Id)}
    (h : LTS.Steps (system idHash idEquals chunkHashInc) p calls q) (hp : p.unused ≤ p.size) :
    q.base = p.base ∧ q.baseIsNetworkId = p.baseIsNetworkId ∧ q.size = p.size ∧
      q.unused ≤ q.size := by
  refine h.preserves (I := fun q => q.base = p.base ∧ q.baseIsNetworkId = p.baseIsNetworkId ∧
    q.size = p.size ∧ q.unused ≤ q.size) (C := fun _ => True) ?_ (fun _ _ => trivial)
    ⟨rfl, rfl, rfl, hp⟩
  rintro s call t - ⟨h₁, h₂, h₃, h₄⟩ hstep
  obtain ⟨h₁', h₂', h₃', h₄'⟩ := static_step hstep
  refine ⟨h₁'.trans h₁, h₂'.trans h₂, h₃'.trans h₃, ?_⟩
  rw [h₃']
  obtain h | ⟨hlt, h⟩ := h₄'
  · rw [h]
    exact h₄
  · rw [h]
    bv_omega

end

end MemPool

end StrongSwan
