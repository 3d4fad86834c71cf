import StrongSwan.Lib.System
import StrongSwan.Sa.IkeSaManager

/-!
# Calls of the manager of IKE_SAs

What threads do with the manager and with IKE_SAs, one call after another. A call that would block is
none of the system; a thread that checks in an IKEv1 SA with an initial contact destroys duplicates by
other calls, before it goes on.

* `checkout`, `checkoutNew`, `checkoutByMessage`, `checkoutById`, `newInitiatorSpi`.
* `checkin`, `applyIdentities`, `checkinAndDestroy`, `flush`, `destroyAllEntries`.
* `ManagerWorld`, `ManagerCall`, `managerSystem`.
-/

namespace StrongSwan

structure ManagerWorld where
  manager : IkeSaManager
  sas : ℕ → IkeSa
  /-- the address of the next IKE_SA -/
  next : ℕ
  /-- IKE_SAs that are checked in when their duplicates are destroyed -/
  contacting : List ℕ

namespace IkeSaManager

variable (cfg : ManagerConfig)

/-- `checkout`; none if it blocks. -/
def checkout (id : IkeSaId) (this : IkeSaManager) : Option (Option ℕ × IkeSaManager) :=
  match this.getEntryById cfg id with
  | (some entry, this) =>
    match entry.wait with
    | .blocked => none
    | .refused => some (none, this.unlockSingleSegment cfg (cfg.idRow id))
    | .acquired =>
      let entry := { entry with checkedOut := true }
      let this := this.updateEntry (cfg.idRow id) (IkeSaEntry.matchById · id) entry
      some (some entry.ikeSa, this.unlockSingleSegment cfg (cfg.idRow id))
  | (none, this) => some (none, this)

/-- The order of `create_table_enumerator`: by segments, and then by rows. -/
def enumerate (this : IkeSaManager) : List (ℕ × IkeSaEntry) :=
  this.ikeSaTable.mergeSort fun a b =>
    cfg.segment a.1 < cfg.segment b.1 || (cfg.segment a.1 = cfg.segment b.1 && a.1 ≤ b.1)

/-- The loop of `checkout_by_id`; none if it blocks. -/
def checkoutItem (sas : ℕ → IkeSa) (id : U32) : List (ℕ × IkeSaEntry) → Option (Option (ℕ × IkeSaEntry))
  | [] => some none
  | item :: items =>
    match item.2.wait with
    | .blocked => none
    | .refused => checkoutItem sas id items
    | .acquired =>
      if (sas item.2.ikeSa).uniqueId = id then some (some item) else checkoutItem sas id items

def checkoutById (sas : ℕ → IkeSa) (id : U32) (this : IkeSaManager) :
    Option (Option ℕ × IkeSaManager) :=
  (checkoutItem sas id (this.enumerate cfg)).map fun
    | some (row, entry) =>
      (some entry.ikeSa, this.updateEntry row (· = entry) { entry with checkedOut := true })
    | none => (none, this)

def checkedIn (sa : IkeSa) (entry : IkeSaEntry) : IkeSaEntry :=
  { entry with ikeSaId := sa.id, checkedOut := false, processing := BitVec.allOnes 32 }

/-- The part of `checkin` under the lock, for an entry that was found. -/
def checkinEntry (sa : IkeSa) (entry : IkeSaEntry) (this : IkeSaManager) : IkeSaEntry × IkeSaManager :=
  let entry := checkedIn sa entry
  if entry.halfOpen ∧ sa.state ≠ .connecting then
    -- not half open anymore
    let entry := { entry with halfOpen := false }
    (entry, this.removeHalfOpen cfg entry)
  else if entry.halfOpen ∧ !entry.other.any sa.otherHost.ipEquals then
    -- the other host's IP has changed, we must update the hash table
    let this := this.removeHalfOpen cfg entry
    let entry := { entry with other := some sa.otherHost }
    (entry, this.putHalfOpen cfg entry)
  else if !entry.halfOpen ∧ sa.state = .connecting then
    -- this is a new half-open SA
    let entry := { entry with halfOpen := true, other := some sa.otherHost }
    (entry, this.putHalfOpen cfg entry)
  else (entry, this)

/-- The part of `checkin` under the lock, for an IKE_SA without an entry. -/
def checkinNew (sa : IkeSa) (ikeSa : ℕ) (this : IkeSaManager) : IkeSaEntry × IkeSaManager :=
  let entry := ikeSaEntryCreate sa.id ikeSa
  if sa.state = .connecting then
    let entry := { entry with halfOpen := true, other := some sa.otherHost }
    (entry, this.putHalfOpen cfg entry)
  else (entry, this)

/-- Are identities applied to an entry for the duplicate test? -/
def appliesIdentities (sa : IkeSa) (entry : IkeSaEntry) : Bool :=
  (sa.state = .established || sa.state = .passive) && entry.myId.isNone && entry.otherId.isNone

/-- Apply identities for duplicate test. -/
def applyIdentities (sa : IkeSa) (entry : IkeSaEntry) (this : IkeSaManager) : IkeSaEntry × IkeSaManager :=
  let other := entry.other.getD sa.otherHost
  let entry := { entry with
    myId := some sa.myId, otherId := some sa.otherEapId, other := some other }
  (entry, this.putConnectedPeers cfg entry sa.myId sa.otherEapId other.family)

def entryOf (id : IkeSaId) (ikeSa : ℕ) (this : IkeSaManager) : Option IkeSaEntry :=
  Rows.find (cfg.idRow id) (·.ikeSa = ikeSa) this.ikeSaTable

/-- `checkin` until identities are applied, and whether they are. -/
def checkinFirst (sa : IkeSa) (ikeSa : ℕ) (this : IkeSaManager) : Bool × IkeSaManager :=
  match this.getEntryBySa cfg sa.id ikeSa with
  | (some entry, this) =>
    let (entry, this) := this.checkinEntry cfg sa entry
    (appliesIdentities sa entry, this.updateEntry (cfg.idRow sa.id) (·.ikeSa = ikeSa) entry)
  | (none, this) =>
    let (entry, this) := this.checkinNew cfg sa ikeSa
    (appliesIdentities sa entry, this.putEntry cfg entry)

/-- The rest of `checkin`, for the same entry. -/
def checkinLast (sa : IkeSa) (ikeSa : ℕ) (this : IkeSaManager) : IkeSaManager :=
  match this.entryOf cfg sa.id ikeSa with
  | some entry =>
    let (entry, this) := this.applyIdentities cfg sa { entry with checkedOut := false }
    this.updateEntry (cfg.idRow sa.id) (·.ikeSa = ikeSa) entry
  | none => this

/-- Have an entry removed from the tables beside that of IKE_SAs. -/
def forget (entry : IkeSaEntry) (this : IkeSaManager) : IkeSaManager :=
  let this := if entry.halfOpen then this.removeHalfOpen cfg entry else this
  let this :=
    match entry.myId, entry.otherId, entry.other with
    | some myId, some otherId, some other =>
      this.removeConnectedPeers cfg entry myId otherId other.family
    | _, _, _ => this
  match entry.initHash with
  | some initHash => this.removeInitHash cfg initHash
  | none => this

/-- `checkin_and_destroy` until the entry is out of the table of IKE_SAs. -/
def checkinAndRemove (id : IkeSaId) (ikeSa : ℕ) (this : IkeSaManager) :
    Option IkeSaEntry × IkeSaManager :=
  match this.getEntryBySa cfg id ikeSa with
  | (some entry, this) =>
    if entry.driveoutWaitingThreads ∧ entry.driveoutNewThreads then
      -- just check it in
      let this := this.updateEntry (cfg.idRow id) (·.ikeSa = ikeSa) { entry with checkedOut := false }
      (none, this.unlockSingleSegment cfg (cfg.idRow id))
    else
      let entry := { entry with driveoutWaitingThreads := true, driveoutNewThreads := true }
      let this := (this.updateEntry (cfg.idRow id) (·.ikeSa = ikeSa) entry).removeEntry cfg entry
      (some entry, this.unlockSingleSegment cfg (cfg.idRow id))
  | (none, this) => (none, this)

def checkinAndDestroy (id : IkeSaId) (ikeSa : ℕ) (this : IkeSaManager) : IkeSaManager :=
  match this.checkinAndRemove cfg id ikeSa with
  | (some entry, this) => this.forget cfg entry
  | (none, this) => this

/-- `flush` until it waits for threads to leave IKE_SAs. -/
def flush (this : IkeSaManager) : IkeSaManager :=
  { this with
    ikeSaTable := this.ikeSaTable.map fun item => (item.1, { item.2 with
      driveoutNewThreads := true, driveoutWaitingThreads := true }) }

def destroyAllEntries (this : IkeSaManager) : IkeSaManager :=
  (this.enumerate cfg).foldl (fun this item =>
    let this := this.forget cfg item.2
    -- `remove_entry_at`
    { this with
      ikeSaTable := this.ikeSaTable.erase item
      totalSaCount := this.totalSaCount - 1 }) this

end IkeSaManager

/-! ## Messages -/

/-- Get the message ID or message hash to detect early retransmissions. -/
def Message.getMessageIdOrHash (key : Chunk) (this : Message) : U32 :=
  if this.majorVersion = ikev1MajorVersion ∧
      (this.messageId = 0 ∨ this.exchangeType = .quickMode) then chunkHash key this.packet.data
  else this.messageId

def Message.initVersion (this : Message) : Option IkeVersion :=
  if (this.ikeSaId.getD ⟨0, 0, 0, false⟩).responderSpi = 0 ∧ this.messageId = 0 then
    if this.majorVersion = ikev2MajorVersion then
      if this.exchangeType = .ikeSaInit ∧ this.isRequest then some .ikev2 else none
    else if this.exchangeType = .idProt ∨ this.exchangeType = .aggressive then some .ikev1
    else none
  else none

def Message.localId (this : Message) : IkeSaId :=
  let id := (this.ikeSaId.getD ⟨0, 0, 0, false⟩).switchInitiator
  -- not set in IKEv1, switch back before applying to new SA
  if this.initVersion = some .ikev1 ∧ id.isInitiatorFlag then id.switchInitiator else id

namespace ManagerWorld

variable (cfg : ManagerConfig)

def allocate (sa : IkeSa) (this : ManagerWorld) : ManagerWorld :=
  { this with sas := Function.update this.sas this.next sa, next := this.next + 1 }

/-- `checkout_new`; `spi` is what `get_spi` returns. -/
def checkoutNew (version : IkeVersion) (initiator : Bool) (spi : U64) (uniqueId : U32)
    (this : ManagerWorld) : ManagerWorld :=
  let ikeVersion := if version = .ikev1 then ikev1MajorVersion else ikev2MajorVersion
  if spi = 0 then this
  else if initiator then this.allocate (ikeSaCreate ⟨ikeVersion, spi, 0, true⟩ version uniqueId)
  else this.allocate (ikeSaCreate ⟨ikeVersion, 0, spi, false⟩ version uniqueId)

/-- A new IKE_SA for an initial message whose hash was not known; `uniqueId` is that of the IKE_SA, if
it can be created. -/
def createByMessage (message : Message) (version : IkeVersion) (hash : Chunk) (ourSpi : U64)
    (uniqueId : Option U32) (this : ManagerWorld) : Option ℕ × ManagerWorld :=
  let removed := { this with manager := this.manager.removeInitHash cfg hash }
  if cfg.ikesaLimit = 0 ∨ this.manager.totalSaCount < cfg.ikesaLimit then
    match uniqueId with
    | some uniqueId =>
      let id := { message.localId with responderSpi := ourSpi }
      let entry := { ikeSaEntryCreate id this.next with
        processing := message.getMessageIdOrHash cfg.key
        initHash := some hash
        checkedOut := true }
      let manager := (this.manager.putEntry cfg entry).unlockSingleSegment cfg (cfg.idRow id)
      (some this.next, { this with manager }.allocate (ikeSaCreate id version uniqueId))
    | none => (none, removed)
  else (none, removed)

/-- The end of `checkout_by_message`: find the IKE_SA with an ID; none if it blocks. -/
def lookupByMessage (message : Message) (id : IkeSaId) (this : ManagerWorld) :
    Option (Option ℕ × ManagerWorld) :=
  match this.manager.getEntryById cfg id with
  | (some entry, manager) =>
    let unlocked := { this with manager := manager.unlockSingleSegment cfg (cfg.idRow id) }
    let processing := message.getMessageIdOrHash cfg.key
    -- only check out if we are not already processing it
    if entry.processing = processing then some (none, unlocked)
    else
      match entry.wait with
      | .blocked => none
      | .refused => some (none, unlocked)
      | .acquired =>
        let entry := { entry with
          checkedOut := true
          processing := if message.firstPayload ≠ .fragmentV1 ∧ message.firstPayload ≠ .fragment then
            processing else entry.processing }
        let manager := manager.updateEntry (cfg.idRow id) (IkeSaEntry.matchById · id) entry
        let sa := this.sas entry.ikeSa
        let sa := if sa.id.responderSpi = 0 then sa.apply (.setResponderSpi id.responderSpi) else sa
        some (some entry.ikeSa, { this with
          manager := manager.unlockSingleSegment cfg (cfg.idRow id)
          sas := Function.update this.sas entry.ikeSa sa })
  | (none, manager) => some (none, { this with manager })

/-- `checkout_by_message`; none if it blocks. -/
def checkoutByMessage (message : Message) (spi : U64) (uniqueId : Option U32)
    (this : ManagerWorld) : Option (Option ℕ × ManagerWorld) :=
  match message.initVersion with
  | none => this.lookupByMessage cfg message message.localId
  | some version =>
    match IkeSaManager.getInitHash cfg message with
    | none => some (none, this)
    | some hash =>
      match this.manager.checkAndPutInitHash cfg hash spi with
      | (.notFound, ourSpi, manager) =>
        some ({ this with manager }.createByMessage cfg message version hash ourSpi uniqueId)
      | (.failed, _, manager) => some (none, { this with manager })
      | (_, ourSpi, manager) =>
        { this with manager }.lookupByMessage cfg message
          { message.localId with responderSpi := ourSpi }

/-- `new_initiator_spi`, by a thread with an IKE_SA on its bus -/
def newInitiatorSpi (ikeSa : ℕ) (current : Option ℕ) (spi : U64) (this : ManagerWorld) :
    Bool × ManagerWorld :=
  let sa := this.sas ikeSa
  if sa.state ≠ .connecting then (false, this)
  else if !sa.id.isInitiatorFlag then (false, this)
  else if current ≠ some ikeSa then (false, this)
  else if spi = 0 then (false, this)
  else
    match this.manager.getEntryBySa cfg sa.id ikeSa with
    | (some entry, manager) =>
      if entry.driveoutWaitingThreads ∧ entry.driveoutNewThreads then
        (false, { this with manager := manager.unlockSingleSegment cfg (cfg.idRow sa.id) })
      else
        let entry := { entry with driveoutWaitingThreads := true, driveoutNewThreads := true }
        let manager := manager.updateEntry (cfg.idRow sa.id) (·.ikeSa = ikeSa) entry
        let manager := manager.removeEntry cfg entry
        let manager := manager.unlockSingleSegment cfg (cfg.idRow sa.id)
        let sa := sa.apply (.setInitiatorSpi spi)
        let entry := { entry with
          ikeSaId := sa.id, driveoutWaitingThreads := false, driveoutNewThreads := false }
        let manager := (manager.putEntry cfg entry).unlockSingleSegment cfg (cfg.idRow sa.id)
        (true, { this with manager, sas := Function.update this.sas ikeSa sa })
    | (none, manager) => (false, { this with manager })

/-- `checkin`; an IKEv1 SA with an initial contact is marked as checked out while its duplicates are
destroyed. -/
def checkin (ikeSa : ℕ) (this : ManagerWorld) : ManagerWorld :=
  let sa := this.sas ikeSa
  let unlock (manager : IkeSaManager) := manager.unlockSingleSegment cfg (cfg.idRow sa.id)
  match this.manager.checkinFirst cfg sa ikeSa with
  | (true, manager) =>
    if sa.version = .ikev1 ∧ sa.initContactSeen then
      let manager :=
        match manager.entryOf cfg sa.id ikeSa with
        | some entry =>
          manager.updateEntry (cfg.idRow sa.id) (·.ikeSa = ikeSa) { entry with checkedOut := true }
        | none => manager
      { this with manager := unlock manager, contacting := ikeSa :: this.contacting }
    else { this with manager := unlock (manager.checkinLast cfg sa ikeSa) }
  | (false, manager) => { this with manager := unlock manager }

/-- The rest of `checkin`, when duplicates are destroyed. -/
def checkinContacted (ikeSa : ℕ) (this : ManagerWorld) : ManagerWorld :=
  let sa := (this.sas ikeSa).apply (.setInitContactSeen false)
  { this with
    manager := this.manager.checkinLast cfg sa ikeSa
    sas := Function.update this.sas ikeSa sa
    contacting := this.contacting.erase ikeSa }

end ManagerWorld

/-- What threads do. -/
inductive ManagerCall
  | change (ikeSa : ℕ) (change : IkeSa.Change)
  | checkout (id : IkeSaId)
  | checkoutNew (version : IkeVersion) (initiator : Bool) (spi : U64) (uniqueId : U32)
  | checkoutByMessage (message : Message) (spi : U64) (uniqueId : Option U32)
  | checkoutById (id : U32)
  | newInitiatorSpi (ikeSa : ℕ) (current : Option ℕ) (spi : U64)
  | checkin (ikeSa : ℕ)
  | checkinContacted (ikeSa : ℕ)
  | checkinAndDestroy (ikeSa : ℕ)
  | flush
  | flushed

/-- The state after a call, if the call is possible and does not block. -/
def ManagerWorld.call (cfg : ManagerConfig) (this : ManagerWorld) : ManagerCall → Option ManagerWorld
  | .change ikeSa change => some { this with
      sas := Function.update this.sas ikeSa ((this.sas ikeSa).apply change) }
  | .checkout id => (this.manager.checkout cfg id).map fun result => { this with manager := result.2 }
  | .checkoutNew version initiator spi uniqueId =>
    some (this.checkoutNew version initiator spi uniqueId)
  | .checkoutByMessage message spi uniqueId =>
    (this.checkoutByMessage cfg message spi uniqueId).map Prod.snd
  | .checkoutById id =>
    (this.manager.checkoutById cfg this.sas id).map fun result => { this with manager := result.2 }
  | .newInitiatorSpi ikeSa current spi => some (this.newInitiatorSpi cfg ikeSa current spi).2
  | .checkin ikeSa => if ikeSa < this.next then some (this.checkin cfg ikeSa) else none
  | .checkinContacted ikeSa =>
    if ikeSa ∈ this.contacting then some (this.checkinContacted cfg ikeSa) else none
  | .checkinAndDestroy ikeSa => some { this with
      manager := this.manager.checkinAndDestroy cfg (this.sas ikeSa).id ikeSa }
  | .flush => some { this with manager := this.manager.flush }
  | .flushed =>
    -- when all threads have left the IKE_SAs that are marked
    if ∀ item ∈ this.manager.ikeSaTable, item.2.driveoutNewThreads → !item.2.checkedOut then
      some { this with manager := this.manager.destroyAllEntries cfg }
    else none

/-- The calls of all threads, from a new manager. -/
def managerSystem (cfg : ManagerConfig) : LTS.System ManagerWorld ManagerCall :=
  LTS.ofOption (fun this => this.manager = ikeSaManagerCreate ∧ this.contacting = [])
    (ManagerWorld.call cfg)

end StrongSwan
