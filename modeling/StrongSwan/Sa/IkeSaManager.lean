import StrongSwan.Encoding.Message
import StrongSwan.Lib.Rows
import StrongSwan.Sa.IkeSa
import StrongSwan.Utils.ChunkHash

/-!
# The manager of IKE_SAs

The manager keeps IKE_SAs in a hash table by their SPIs, and in further tables the number of half-open
ones by address, the SPIs of established ones by identities, and the hashes of initial messages.

* `IkeSaEntry`, `HalfOpen`, `ConnectedPeers`, `InitHash`, `IkeSaManager`.
* `putEntry`, `removeEntry`, `getEntryByMatch`; `waitForEntry`.
* `putHalfOpen`, `removeHalfOpen`; `putConnectedPeers`, `removeConnectedPeers`;
  `checkAndPutInitHash`, `removeInitHash`.
* `getHalfOpenCount`, `createIdEnumerator`, `hasContact`.

Counters are integers, so that one that is decremented below zero is seen. Threads that wait for an
entry are left out, they check it out later.
-/

namespace StrongSwan

/-- `entry_t`; an IKE_SA is referred to by its address. -/
structure IkeSaEntry where
  checkedOut : Bool
  driveoutNewThreads : Bool
  driveoutWaitingThreads : Bool
  ikeSaId : IkeSaId
  ikeSa : ℕ
  /-- hash of the IKE_SA_INIT message -/
  initHash : Option Chunk
  /-- remote host address -/
  other : Option Host
  halfOpen : Bool
  myId : Option Identification
  otherId : Option Identification
  /-- message ID or hash of currently processing message -/
  processing : U32
  deriving DecidableEq

/-- `entry_create`, for an IKE_SA -/
def ikeSaEntryCreate (ikeSaId : IkeSaId) (ikeSa : ℕ) : IkeSaEntry where
  checkedOut := false
  driveoutNewThreads := false
  driveoutWaitingThreads := false
  ikeSaId
  ikeSa
  initHash := none
  other := none
  halfOpen := false
  myId := none
  otherId := none
  processing := BitVec.allOnes 32

/-- The address under which an entry is counted. -/
def IkeSaEntry.address (this : IkeSaEntry) : Chunk := (this.other.map Host.address).getD []

/-- The first case is the usual one. The other is for IKE_SAs that we initiated but have not yet
received a response for. -/
def IkeSaEntry.matchById (this : IkeSaEntry) (id : IkeSaId) : Bool :=
  id.equals this.ikeSaId ||
    ((id.responderSpi = 0 || this.ikeSaId.responderSpi = 0) &&
      (id.ikeVersion = ikev1MajorVersion ||
        id.isInitiatorFlag = this.ikeSaId.isInitiatorFlag) &&
      id.initiatorSpi = this.ikeSaId.initiatorSpi)

structure HalfOpen where
  /-- remote host address -/
  other : Chunk
  /-- the number of half-open IKE_SAs with that host -/
  count : ℤ
  /-- the number of half-open IKE_SAs we responded to with that host -/
  countResponder : ℤ
  deriving DecidableEq

structure ConnectedPeers where
  myId : Identification
  otherId : Identification
  family : Family
  /-- IDs of IKE_SAs between the two identities -/
  sas : List IkeSaId
  deriving DecidableEq

/-- `connected_peers_match`; no family matches all. -/
def ConnectedPeers.matches (this : ConnectedPeers) (myId otherId : Identification)
    (family : Option Family) : Bool :=
  myId.equals this.myId && otherId.equals this.otherId &&
    (family.isNone || family = some this.family)

structure InitHash where
  hash : Chunk
  /-- our SPI allocated for the IKE_SA based on this message -/
  ourSpi : U64
  deriving DecidableEq

/-- What a manager is configured with: masks of tables and segments, the key of hashes, the hasher of
initial messages, and the limit of IKE_SAs, if it is not zero. -/
structure ManagerConfig where
  tableMask : U32
  segmentMask : U32
  key : Chunk
  sha1 : Chunk → Option Chunk
  ikesaLimit : ℕ

structure IkeSaManager where
  ikeSaTable : List (ℕ × IkeSaEntry)
  /-- how often the mutex of a segment is locked -/
  segments : ℕ → ℕ
  halfOpenTable : List (ℕ × HalfOpen)
  /-- the sum of all counts in a segment -/
  halfOpenSegments : ℕ → ℤ
  halfOpenCount : ℤ
  halfOpenCountResponder : ℤ
  totalSaCount : ℤ
  connectedPeersTable : List (ℕ × ConnectedPeers)
  initHashesTable : List (ℕ × InitHash)
  /-- how often the mutex of a segment is locked -/
  initHashesSegments : ℕ → ℕ

def ikeSaManagerCreate : IkeSaManager where
  ikeSaTable := []
  segments _ := 0
  halfOpenTable := []
  halfOpenSegments _ := 0
  halfOpenCount := 0
  halfOpenCountResponder := 0
  totalSaCount := 0
  connectedPeersTable := []
  initHashesTable := []
  initHashesSegments _ := 0

namespace ManagerConfig

def row (cfg : ManagerConfig) (hash : U32) : ℕ := (hash &&& cfg.tableMask).toNat

def segment (cfg : ManagerConfig) (row : ℕ) : ℕ := (BitVec.ofNat 32 row &&& cfg.segmentMask).toNat

def idRow (cfg : ManagerConfig) (id : IkeSaId) : ℕ := cfg.row id.hash

def addressRow (cfg : ManagerConfig) (address : Chunk) : ℕ := cfg.row (chunkHash cfg.key address)

def peersRow (cfg : ManagerConfig) (myId otherId : Identification) : ℕ :=
  cfg.row (chunkHashInc cfg.key otherId.encoded (chunkHash cfg.key myId.encoded))

def initRow (cfg : ManagerConfig) (hash : Chunk) : ℕ := cfg.row (chunkHash cfg.key hash)

end ManagerConfig

/-- What waiting for an entry leads to. -/
inductive Wait
  | refused
  | blocked
  | acquired
  deriving DecidableEq

/-- `wait_for_entry`, when the thread gets to run -/
def IkeSaEntry.wait (this : IkeSaEntry) : Wait :=
  if this.driveoutNewThreads then .refused
  else if this.checkedOut ∧ !this.driveoutWaitingThreads then .blocked
  else if this.driveoutWaitingThreads then .refused
  else .acquired

namespace IkeSaManager

variable (cfg : ManagerConfig)

/-! ## The table of IKE_SAs -/

def lockSingleSegment (index : ℕ) (this : IkeSaManager) : IkeSaManager :=
  let segment := cfg.segment index
  { this with segments := Function.update this.segments segment (this.segments segment + 1) }

def unlockSingleSegment (index : ℕ) (this : IkeSaManager) : IkeSaManager :=
  let segment := cfg.segment index
  { this with segments := Function.update this.segments segment (this.segments segment - 1) }

/-- Put an entry into the hash table. The caller has to unlock the segment of its row. -/
def putEntry (entry : IkeSaEntry) (this : IkeSaManager) : IkeSaManager :=
  let this := this.lockSingleSegment cfg (cfg.idRow entry.ikeSaId)
  { this with
    ikeSaTable := Rows.put (cfg.idRow entry.ikeSaId) entry this.ikeSaTable
    totalSaCount := this.totalSaCount + 1 }

def removeEntry (entry : IkeSaEntry) (this : IkeSaManager) : IkeSaManager :=
  match Rows.find (cfg.idRow entry.ikeSaId) (· = entry) this.ikeSaTable with
  | some _ => { this with
      ikeSaTable := Rows.remove (cfg.idRow entry.ikeSaId) (· = entry) this.ikeSaTable
      totalSaCount := this.totalSaCount - 1 }
  | none => this

/-- `get_entry_by_match_function`: on success, the segment stays locked. -/
def getEntryByMatch (id : IkeSaId) (pred : IkeSaEntry → Bool) (this : IkeSaManager) :
    Option IkeSaEntry × IkeSaManager :=
  let this := this.lockSingleSegment cfg (cfg.idRow id)
  match Rows.find (cfg.idRow id) pred this.ikeSaTable with
  | some entry => (some entry, this)
  | none => (none, this.unlockSingleSegment cfg (cfg.idRow id))

def getEntryById (id : IkeSaId) (this : IkeSaManager) : Option IkeSaEntry × IkeSaManager :=
  this.getEntryByMatch cfg id (IkeSaEntry.matchById · id)

def getEntryBySa (id : IkeSaId) (ikeSa : ℕ) (this : IkeSaManager) : Option IkeSaEntry × IkeSaManager :=
  this.getEntryByMatch cfg id (·.ikeSa = ikeSa)

/-- What is written to the entry that was found in a row. -/
def updateEntry (row : ℕ) (pred : IkeSaEntry → Bool) (entry : IkeSaEntry) (this : IkeSaManager) :
    IkeSaManager :=
  { this with ikeSaTable := Rows.modify row pred (fun _ => entry) this.ikeSaTable }

/-! ## Half-open IKE_SAs -/

/-- Put a half-open SA into the hash table. -/
def putHalfOpen (entry : IkeSaEntry) (this : IkeSaManager) : IkeSaManager :=
  let addr := entry.address
  let row := cfg.addressRow addr
  let segment := cfg.segment row
  let responder : ℤ := if entry.ikeSaId.isInitiatorFlag then 0 else 1
  { this with
    halfOpenTable :=
      match Rows.find row (·.other = addr) this.halfOpenTable with
      | some _ => Rows.modify row (·.other = addr) (fun halfOpen => { halfOpen with
          count := halfOpen.count + 1
          countResponder := halfOpen.countResponder + responder }) this.halfOpenTable
      | none => Rows.put row ⟨addr, 1, responder⟩ this.halfOpenTable
    halfOpenCount := this.halfOpenCount + 1
    halfOpenCountResponder := this.halfOpenCountResponder + responder
    halfOpenSegments :=
      Function.update this.halfOpenSegments segment (this.halfOpenSegments segment + 1) }

/-- Remove a half-open SA from the hash table. -/
def removeHalfOpen (entry : IkeSaEntry) (this : IkeSaManager) : IkeSaManager :=
  let addr := entry.address
  let row := cfg.addressRow addr
  let segment := cfg.segment row
  let responder : ℤ := if entry.ikeSaId.isInitiatorFlag then 0 else 1
  match Rows.find row (·.other = addr) this.halfOpenTable with
  | some halfOpen => { this with
      halfOpenTable :=
        if halfOpen.count - 1 = 0 then Rows.remove row (·.other = addr) this.halfOpenTable
        else Rows.modify row (·.other = addr) (fun halfOpen => { halfOpen with
          count := halfOpen.count - 1
          countResponder := halfOpen.countResponder - responder }) this.halfOpenTable
      halfOpenCount := this.halfOpenCount - 1
      halfOpenCountResponder := this.halfOpenCountResponder - responder
      halfOpenSegments :=
        Function.update this.halfOpenSegments segment (this.halfOpenSegments segment - 1) }
  | none => this

def getHalfOpenCount (this : IkeSaManager) (ip : Option Host) (responderOnly : Bool) : ℤ :=
  match ip with
  | some ip =>
    match Rows.find (cfg.addressRow ip.address) (·.other = ip.address) this.halfOpenTable with
    | some halfOpen => if responderOnly then halfOpen.countResponder else halfOpen.count
    | none => 0
  | none => if responderOnly then this.halfOpenCountResponder else this.halfOpenCount

/-! ## Connected peers -/

/-- Put an SA between two peers into the hash table. -/
def putConnectedPeers (entry : IkeSaEntry) (myId otherId : Identification) (family : Family)
    (this : IkeSaManager) : IkeSaManager :=
  let row := cfg.peersRow myId otherId
  let pred (peers : ConnectedPeers) := peers.matches myId otherId (some family)
  match Rows.find row pred this.connectedPeersTable with
  | some peers =>
    if peers.sas.any (·.equals entry.ikeSaId) then this
    else
      let sas := peers.sas ++ [entry.ikeSaId]
      { this with
        connectedPeersTable :=
          Rows.modify row pred (fun peers => { peers with sas }) this.connectedPeersTable }
  | none => { this with
      connectedPeersTable :=
        Rows.put row ⟨myId, otherId, family, [entry.ikeSaId]⟩ this.connectedPeersTable }

/-- Remove an SA between two peers from the hash table. -/
def removeConnectedPeers (entry : IkeSaEntry) (myId otherId : Identification) (family : Family)
    (this : IkeSaManager) : IkeSaManager :=
  let row := cfg.peersRow myId otherId
  let pred (peers : ConnectedPeers) := peers.matches myId otherId (some family)
  match Rows.find row pred this.connectedPeersTable with
  | some peers =>
    let sas := peers.sas.eraseP (·.equals entry.ikeSaId)
    { this with
      connectedPeersTable :=
        if sas = [] then Rows.remove row pred this.connectedPeersTable
        else Rows.modify row pred (fun peers => { peers with sas }) this.connectedPeersTable }
  | none => this

def createIdEnumerator (this : IkeSaManager) (me other : Identification)
    (family : Option Family) : List IkeSaId :=
  ((Rows.find (cfg.peersRow me other) (·.matches me other family)
    this.connectedPeersTable).map ConnectedPeers.sas).getD []

def hasContact (this : IkeSaManager) (me other : Identification) (family : Option Family) : Bool :=
  (Rows.find (cfg.peersRow me other) (·.matches me other family) this.connectedPeersTable).isSome

/-! ## Initial messages -/

def getInitHash (message : Message) : Option Chunk :=
  let source := (message.packet.source.map Host.address).getD []
  if message.firstPayload = .fragmentV1 then
    -- only hash the source IP, port and SPI for fragmented init messages
    let port := (message.packet.source.map Host.port).getD 0
    let spi := (message.ikeSaId.map IkeSaId.initiatorSpi).getD 0
    cfg.sha1 (source ++ (Bytes.ofNat 2 port.toNat).reverse ++ htoun64 spi)
  else if message.exchangeType = .idProt then cfg.sha1 (source ++ message.packet.data)
  else cfg.sha1 message.packet.data

def lockInitHashes (segment : ℕ) (this : IkeSaManager) : IkeSaManager :=
  { this with
    initHashesSegments :=
      Function.update this.initHashesSegments segment (this.initHashesSegments segment + 1) }

def unlockInitHashes (segment : ℕ) (this : IkeSaManager) : IkeSaManager :=
  { this with
    initHashesSegments :=
      Function.update this.initHashesSegments segment (this.initHashesSegments segment - 1) }

/-- Check if we already have created an IKE_SA based on the initial IKE message with the given hash,
and otherwise store the hash. `spi` is what `get_spi` returns, zero if it fails. -/
def checkAndPutInitHash (initHash : Chunk) (spi : U64) (this : IkeSaManager) :
    Status × U64 × IkeSaManager :=
  let row := cfg.initRow initHash
  let this := this.lockInitHashes (cfg.segment row)
  match Rows.find row (·.hash = initHash) this.initHashesTable with
  | some current => (.alreadyDone, current.ourSpi, this.unlockInitHashes (cfg.segment row))
  | none =>
    -- the mutex is not unlocked here
    if spi = 0 then (.failed, 0, this)
    else
      let this := { this with
        initHashesTable := Rows.put row ⟨initHash, spi⟩ this.initHashesTable }
      (.notFound, spi, this.unlockInitHashes (cfg.segment row))

/-- Remove the hash of an initial IKE message from the cache. -/
def removeInitHash (initHash : Chunk) (this : IkeSaManager) : IkeSaManager :=
  let row := cfg.initRow initHash
  let this := this.lockInitHashes (cfg.segment row)
  let this := { this with
    initHashesTable := Rows.remove row (·.hash = initHash) this.initHashesTable }
  this.unlockInitHashes (cfg.segment row)

end IkeSaManager

end StrongSwan
