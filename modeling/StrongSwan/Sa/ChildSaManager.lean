import StrongSwan.Collections.Hashtable.Loose
import StrongSwan.Crypto.Proposal
import StrongSwan.Encoding.IkeHeader
import StrongSwan.Lib.System
import StrongSwan.Networking.Host
import StrongSwan.Utils.ChunkHash

/-!
# The manager of CHILD_SAs

One entry for a CHILD_SA is kept in three tables: by inbound SPI and address, by outbound SPI and
address, and by unique identifier. `add` looks into the first two before it puts the entry into all
three, and destroys what it replaced in the third.

* `ChildEntry`, `hashIn`, …, `equalsId`; `ChildSaManager`, `add`, `remove`, `checkoutById`, `checkout`.
* `Stored`, `Sound`, `After`: what is to hold after a call.
* `Fresh`: the calls after which it does.
-/

namespace StrongSwan

/-- `child_entry_t`, with its address. A key that is only searched for is on the stack (`0`), and some of
its pointers are `NULL` (`none`). -/
structure ChildEntry where
  place : ℕ
  /-- the associated IKE_SA -/
  ikeId : Option IkeSaId := none
  /-- unique CHILD_SA identifier -/
  uniqueId : U32 := 0
  /-- inbound SPI -/
  spiIn : U32 := 0
  /-- outbound SPI -/
  spiOut : U32 := 0
  /-- inbound host address -/
  hostIn : Option Host := none
  /-- outbound host address and port -/
  hostOut : Option Host := none
  /-- IPsec protocol, AH|ESP -/
  proto : ProtocolId := .none
  deriving DecidableEq

namespace ChildEntry

def protoNumber : ProtocolId → U32
  | .none => 0
  | .ike => 1
  | .ah => 2
  | .esp => 3
  | .ipcomp => 4

/-- `get_address`, of a host that is there whenever it is called. -/
def getAddress (host : Option Host) : Chunk := (host.map Host.address).getD []

def ipEquals : Option Host → Option Host → Bool
  | some a, some b => a.ipEquals b
  | a, b => a.isNone && b.isNone

/-- Hash function for inbound SAs. -/
def hashIn (key : Chunk) (entry : ChildEntry) : U32 :=
  chunkHashInc key (chunkFromThing entry.spiIn) <|
    chunkHashInc key (getAddress entry.hostIn) <|
      chunkHash key (chunkFromThing (protoNumber entry.proto))

/-- Equals function for inbound SAs. -/
def equalsIn (a b : ChildEntry) : Bool :=
  decide (a.spiIn = b.spiIn) && decide (a.proto = b.proto) && ipEquals a.hostIn b.hostIn

/-- Hash function for outbound SAs. -/
def hashOut (key : Chunk) (entry : ChildEntry) : U32 :=
  chunkHashInc key (chunkFromThing entry.spiOut) <|
    chunkHashInc key (getAddress entry.hostOut) <|
      chunkHash key (chunkFromThing (protoNumber entry.proto))

/-- Equals function for outbound SAs. -/
def equalsOut (a b : ChildEntry) : Bool :=
  decide (a.spiOut = b.spiOut) && decide (a.proto = b.proto) && ipEquals a.hostOut b.hostOut

/-- Hash function for SAs by unique ID. -/
def hashId (key : Chunk) (entry : ChildEntry) : U32 :=
  chunkHash key (chunkFromThing entry.uniqueId)

/-- Equals function for SAs by unique ID. -/
def equalsId (a b : ChildEntry) : Bool := decide (a.uniqueId = b.uniqueId)

end ChildEntry

/-- `private_child_sa_manager_t`, with the next free address and the addresses of destroyed entries. -/
structure ChildSaManager where
  /-- CHILD_SAs by inbound SPI/dst -/
  in_ : Hashtable ChildEntry ChildEntry
  /-- CHILD_SAs by outbound SPI/dst -/
  out : Hashtable ChildEntry ChildEntry
  /-- CHILD_SAs by unique ID -/
  ids : Hashtable ChildEntry ChildEntry
  next : ℕ
  freed : List ℕ

namespace ChildSaManager

open ChildEntry

structure ChildSa where
  uniqueId : U32
  protocol : ProtocolId
  /-- inbound SPI -/
  mySpi : U32
  /-- outbound SPI -/
  otherSpi : U32
  deriving DecidableEq

structure IkeSa where
  id : IkeSaId
  myHost : Host
  otherHost : Host
  childSas : List ChildSa
  deriving DecidableEq

/-- `child_sa_manager_create`; `key` is that of the hash. -/
def create (key : Chunk) : ChildSaManager where
  in_ := .create (hashIn key) equalsIn 8
  out := .create (hashOut key) equalsOut 8
  ids := .create (hashId key) equalsId 8
  next := 1
  freed := []

def childEntryDestroy (this : ChildSaManager) (entry : ChildEntry) : ChildSaManager :=
  { this with freed := entry.place :: this.freed }

/-- The entry `add` allocates. -/
def newEntry (this : ChildSaManager) (childSa : ChildSa) (ikeSa : IkeSa) : ChildEntry where
  place := this.next
  ikeId := some ikeSa.id
  uniqueId := childSa.uniqueId
  proto := childSa.protocol
  spiIn := childSa.mySpi
  spiOut := childSa.otherSpi
  hostIn := some ikeSa.myHost
  hostOut := some ikeSa.otherHost

def add (this : ChildSaManager) (childSa : ChildSa) (ikeSa : IkeSa) : ChildSaManager :=
  let entry := this.newEntry childSa ikeSa
  let this := { this with next := this.next + 1 }
  if (this.in_.get entry).isNone && (this.out.get entry).isNone then
    let replaced := this.ids.put entry entry
    let this := { this with
      in_ := (this.in_.put entry entry).2
      out := (this.out.put entry entry).2
      ids := replaced.2 }
    match replaced.1 with
    | some entry => this.childEntryDestroy entry
    | none => this
  else this.childEntryDestroy entry

def remove (this : ChildSaManager) (childSa : ChildSa) : ChildSaManager :=
  let key : ChildEntry := { place := 0, uniqueId := childSa.uniqueId }
  let removed := this.ids.remove key
  let this := { this with ids := removed.2 }
  match removed.1 with
  | some entry =>
    let this := { this with
      in_ := (this.in_.remove entry).2
      out := (this.out.remove entry).2 }
    this.childEntryDestroy entry
  | none => this

/-- Check out an IKE_SA for a given CHILD_SA. The manager of IKE_SAs is `checkout`; an IKE_SA that lost
the CHILD_SA is checked in again. -/
def checkoutIkesa (checkout : IkeSaId → Option IkeSa) (id : IkeSaId) (uniqueId : U32) :
    Option (IkeSa × ChildSa) :=
  match checkout id with
  | some ikeSa => (ikeSa.childSas.find? fun current => current.uniqueId = uniqueId).map (ikeSa, ·)
  | none => none

/-- The entry `checkout_by_id` finds. -/
def findById (this : ChildSaManager) (uniqueId : U32) : Option ChildEntry :=
  this.ids.get { place := 0, uniqueId := uniqueId }

def checkoutById (this : ChildSaManager) (checkout : IkeSaId → Option IkeSa) (uniqueId : U32) :
    Option (IkeSa × ChildSa) :=
  match this.findById uniqueId with
  | some entry => entry.ikeId.bind fun id => checkoutIkesa checkout id uniqueId
  | none => none

/-- The entry `checkout` finds. -/
def find (this : ChildSaManager) (protocol : ProtocolId) (spi : U32) (dst : Host) :
    Option ChildEntry :=
  let key : ChildEntry :=
    { place := 0, spiIn := spi, spiOut := spi, hostIn := some dst, hostOut := some dst,
      proto := protocol }
  match this.in_.get key with
  | some entry => some entry
  | none => this.out.get key

def checkout (this : ChildSaManager) (checkout : IkeSaId → Option IkeSa) (protocol : ProtocolId)
    (spi : U32) (dst : Host) : Option (IkeSa × ChildSa) :=
  match this.find protocol spi dst with
  | some entry => entry.ikeId.bind fun id => checkoutIkesa checkout id entry.uniqueId
  | none => none

/-- The calls that change the tables. -/
inductive Call
  | add (childSa : ChildSa) (ikeSa : IkeSa)
  | remove (childSa : ChildSa)

def step (this : ChildSaManager) : Call → ChildSaManager
  | .add childSa ikeSa => this.add childSa ikeSa
  | .remove childSa => this.remove childSa

/-! ## What the tables are for -/

def Stored (this : ChildSaManager) (e : ChildEntry) : Prop :=
  ∃ table, (table = this.in_ ∨ table = this.out ∨ table = this.ids) ∧
    ∃ p ∈ table.entries, p.value = e

def UnderOwnKey (table : Hashtable ChildEntry ChildEntry) (e : ChildEntry) : Prop :=
  table.get e = some e ∧ ∀ p ∈ table.entries, p.value = e → p.key = e

/-- Entries that are stored are live, and in all tables under their own keys. -/
structure Sound (this : ChildSaManager) : Prop where
  live : ∀ {e}, this.Stored e → e.place ∉ this.freed
  own : ∀ {e}, this.Stored e →
    UnderOwnKey this.in_ e ∧ UnderOwnKey this.out e ∧ UnderOwnKey this.ids e
  once : this.freed.Nodup

/-- A CHILD_SA that is checked out has the unique identifier of the entry that was found. -/
structure ChecksOut (this : ChildSaManager) : Prop where
  byId : ∀ {manager uniqueId ikeSa childSa},
    this.checkoutById manager uniqueId = some (ikeSa, childSa) →
      childSa ∈ ikeSa.childSas ∧ childSa.uniqueId = uniqueId ∧
        ∃ e, this.findById uniqueId = some e ∧ e.uniqueId = childSa.uniqueId
  bySpi : ∀ {manager protocol spi dst ikeSa childSa},
    this.checkout manager protocol spi dst = some (ikeSa, childSa) →
      childSa ∈ ikeSa.childSas ∧
        ∃ e, this.find protocol spi dst = some e ∧ e.uniqueId = childSa.uniqueId

/-- What is to hold after a call. -/
structure After (this : ChildSaManager) (call : Call) : Prop where
  sound : (this.step call).Sound
  removed : ∀ childSa, call = .remove childSa →
    ∀ e, (this.step call).Stored e → e.uniqueId ≠ childSa.uniqueId
  checksOut : (this.step call).ChecksOut

/-- Is there no entry yet with the unique identifier of a CHILD_SA that is added, or else one under
its inbound or outbound key? -/
def Fresh (this : ChildSaManager) : Call → Prop
  | .add childSa ikeSa =>
    this.ids.get (this.newEntry childSa ikeSa) = none ∨
      (this.in_.get (this.newEntry childSa ikeSa)).isSome = true ∨
        (this.out.get (this.newEntry childSa ikeSa)).isSome = true
  | .remove _ => True

end ChildSaManager

end StrongSwan
