import StrongSwan.Sa.IkeSaManager.Effects

/-!
# Initial messages are deduplicated

A thread reserves the hash of an initial message, and then creates the IKE_SA; a thread that destroys
one takes the entry out of the table, and then gives the hash back. In between other threads run.

* `InitWorld`, `InitEvent`, `initSystem`: `checkout_by_message` and `checkin_and_destroy` in two steps.
* `Known`: the table of hashes is a set of records; **`Known.reserve`**, **`Known.remove`**.
* `Distinct`: an entry with a hash is the first one that its ID finds; `put`, `modify`, `remove`.
* `Deduped`, the invariant of all runs whose steps are sound; **`initHash_deduplicated`**.
-/

namespace StrongSwan

/-- The hash an entry has, if any. -/
def IkeSaEntry.hashes (this : IkeSaEntry) : Multiset Chunk :=
  match this.initHash with
  | some hash => {hash}
  | none => 0

/-- The record an entry has in the table of hashes. -/
def IkeSaEntry.made (this : IkeSaEntry) : Multiset InitHash :=
  match this.initHash with
  | some hash => {⟨hash, this.ikeSaId.responderSpi⟩}
  | none => 0

theorem IkeSaEntry.map_made (this : IkeSaEntry) : this.made.map InitHash.hash = this.hashes := by
  unfold made hashes
  split <;> rfl

theorem IkeSaEntry.mem_hashes {this : IkeSaEntry} {hash : Chunk} :
    hash ∈ this.hashes ↔ this.initHash = some hash := by
  unfold hashes
  split <;> simp_all [eq_comm]

/-! ## The table of hashes -/

namespace IkeSaManager

variable {cfg : ManagerConfig} {this this' : IkeSaManager} {records : Multiset InitHash}
  {init : InitHash}

/-- **The table of hashes is a set of records**, one for each hash. -/
structure Known (cfg : ManagerConfig) (records : Multiset InitHash) (this : IkeSaManager) :
    Prop where
  placed : Rows.Placed (fun init => cfg.initRow init.hash) this.initHashesTable
  stored : Rows.sumOf (fun init => {init}) this.initHashesTable = records
  nodup : (records.map InitHash.hash).Nodup

theorem mem_records {table : List (ℕ × InitHash)} :
    init ∈ Rows.sumOf (fun init => ({init} : Multiset InitHash)) table ↔
      ∃ row, (row, init) ∈ table := by
  induction table with
  | nil => simp [Rows.sumOf]
  | cons item table ih =>
    rw [Rows.sumOf_cons, Multiset.mem_add, ih, Multiset.mem_singleton]
    constructor
    · rintro (rfl | ⟨row, hmem⟩)
      · exact ⟨item.1, List.mem_cons_self⟩
      · exact ⟨row, List.mem_cons_of_mem _ hmem⟩
    · rintro ⟨row, hmem⟩
      obtain heq | hmem := List.mem_cons.mp hmem
      · exact .inl (congrArg Prod.snd heq)
      · exact .inr ⟨row, hmem⟩

/-- **A record is found by its hash.** -/
theorem Known.find_eq (h : Known cfg records this) (hmem : init ∈ records) :
    Rows.find (cfg.initRow init.hash) (·.hash = init.hash) this.initHashesTable = some init := by
  obtain ⟨row, hrow⟩ := mem_records.mp (h.stored.symm ▸ hmem)
  obtain rfl : row = cfg.initRow init.hash := h.placed _ hrow
  obtain ⟨init', hfind⟩ := Option.isSome_iff_exists.mp
    (Rows.isSome_find (p := (·.hash = init.hash)) hrow (by simp))
  have hhash : init'.hash = init.hash := by simpa using Rows.pred_of_find hfind
  have hmem' : init' ∈ records := h.stored ▸ mem_records.mpr ⟨_, Rows.mem_of_find hfind⟩
  rw [hfind, Multiset.inj_on_of_nodup_map h.nodup init' hmem' init hmem hhash]

theorem Known.find_none (h : Known cfg records this) {hash : Chunk} :
    Rows.find (cfg.initRow hash) (·.hash = hash) this.initHashesTable = none ↔
      ∀ init ∈ records, init.hash ≠ hash := by
  constructor
  · rintro hnone init hmem rfl
    rw [h.find_eq hmem] at hnone
    cases hnone
  · intro hmiss
    cases hfind : Rows.find (cfg.initRow hash) (·.hash = hash) this.initHashesTable with
    | none => rfl
    | some init =>
      have hhash : init.hash = hash := by simpa using Rows.pred_of_find hfind
      have hmem := h.stored ▸ mem_records.mpr ⟨_, Rows.mem_of_find hfind⟩
      exact absurd hhash (hmiss init hmem)

/-- **A hash that is not known is stored.** -/
theorem Known.reserve (h : Known cfg records this) {hash : Chunk} {spi : U64}
    (hmiss : ∀ init ∈ records, init.hash ≠ hash) (hspi : spi ≠ 0) :
    this.checkAndPutInitHash cfg hash spi = (.notFound, spi, { this with
      initHashesTable := Rows.put (cfg.initRow hash) ⟨hash, spi⟩ this.initHashesTable }) ∧
    Known cfg (⟨hash, spi⟩ ::ₘ records) { this with
      initHashesTable := Rows.put (cfg.initRow hash) ⟨hash, spi⟩ this.initHashesTable } := by
  constructor
  · have hnone := h.find_none.mpr hmiss
    unfold checkAndPutInitHash lockInitHashes
    dsimp only
    rw [hnone, if_neg hspi]
    simp [unlockInitHashes]
  · refine ⟨h.placed.put ⟨hash, spi⟩, ?_, ?_⟩
    · rw [Rows.sumOf_put, h.stored, Multiset.singleton_add]
    · rw [Multiset.map_cons, Multiset.nodup_cons]
      refine ⟨fun hmem => ?_, h.nodup⟩
      obtain ⟨init, hinit, heq⟩ := Multiset.mem_map.mp hmem
      exact hmiss init hinit heq

theorem Known.copy (h : Known cfg records this) (hmem : init ∈ records) (spi : U64) :
    this.checkAndPutInitHash cfg init.hash spi = (.alreadyDone, init.ourSpi, this) := by
  have hfind := h.find_eq hmem
  unfold checkAndPutInitHash
  dsimp only
  have htable : (this.lockInitHashes (cfg.segment (cfg.initRow init.hash))).initHashesTable =
      this.initHashesTable := rfl
  rw [htable, hfind]
  simp

/-- **A hash is given back.** -/
theorem Known.remove (h : Known cfg (init ::ₘ records) this) :
    Known cfg records (this.removeInitHash cfg init.hash) := by
  have hfind := h.find_eq (Multiset.mem_cons_self init records)
  have hnodup := h.nodup
  rw [Multiset.map_cons, Multiset.nodup_cons] at hnodup
  refine ⟨h.placed.remove _ _, ?_, hnodup.2⟩
  have hrecords := h.stored
  rw [Rows.sumOf_find hfind, Multiset.singleton_add, Multiset.cons_inj_right] at hrecords
  exact hrecords

theorem Known.congr (h : Known cfg records this)
    (htable : this'.initHashesTable = this.initHashesTable) : Known cfg records this' := by
  obtain ⟨hplaced, hrecords, hnodup⟩ := h
  exact ⟨htable ▸ hplaced, htable ▸ hrecords, hnodup⟩

/-! ## The table of IKE_SAs -/

section Distinct

variable {cfg : ManagerConfig} {table : List (ℕ × IkeSaEntry)} {row : ℕ} {pred : IkeSaEntry → Bool}
  {entry entry' : IkeSaEntry}

/-- **An entry with a hash is the only one with the hash and with its IKE_SA**, and the first one that
its ID finds. -/
structure Distinct (cfg : ManagerConfig) (table : List (ℕ × IkeSaEntry)) : Prop where
  placed : Rows.Placed (fun entry => cfg.idRow entry.ikeSaId) table
  nodup : (Rows.sumOf IkeSaEntry.hashes table).Nodup
  first : ∀ item ∈ table, item.2.initHash.isSome = true →
    Rows.find (cfg.idRow item.2.ikeSaId) (IkeSaEntry.matchById · item.2.ikeSaId) table = some item.2
  only : ∀ item ∈ table, item.2.initHash.isSome = true →
    ∀ item' ∈ table, item'.2.ikeSa = item.2.ikeSa → item' = item

/-- IDs of other entries are not confused with those of entries with a hash. -/
def Unlike (table : List (ℕ × IkeSaEntry)) (ikeSa : ℕ) (id : IkeSaId) : Prop :=
  ∀ item ∈ table, item.2.initHash.isSome = true → item.2.ikeSa ≠ ikeSa →
    (ikeSaEntryCreate id ikeSa).matchById item.2.ikeSaId = false

theorem Unlike.matchById {ikeSa : ℕ} {id : IkeSaId} (h : Unlike table ikeSa id)
    (hid : entry.ikeSaId = id) {item : ℕ × IkeSaEntry} (hitem : item ∈ table)
    (hhash : item.2.initHash.isSome = true) (hne : item.2.ikeSa ≠ ikeSa) :
    entry.matchById item.2.ikeSaId = false := by
  have hsame : entry.ikeSaId = (ikeSaEntryCreate id ikeSa).ikeSaId := hid
  rw [IkeSaEntry.matchById_congr hsame]
  exact h item hitem hhash hne

theorem mem_sumOf_hashes {hash : Chunk} :
    hash ∈ Rows.sumOf IkeSaEntry.hashes table ↔ ∃ item ∈ table, item.2.initHash = some hash := by
  induction table with
  | nil => simp [Rows.sumOf]
  | cons item table ih => simp [Rows.sumOf_cons, ih, IkeSaEntry.mem_hashes]

theorem Distinct.ne_of_mem_remove (h : Distinct cfg table)
    (hfind : Rows.find row pred table = some entry) {item : ℕ × IkeSaEntry}
    (hitem : item ∈ Rows.remove row pred table) (hhash : item.2.initHash.isSome = true) :
    item.2 ≠ entry := by
  rintro rfl
  obtain ⟨hash, hhash⟩ := Option.isSome_iff_exists.mp hhash
  have hnodup := h.nodup
  rw [Rows.sumOf_find hfind] at hnodup
  exact Multiset.disjoint_left.mp (Multiset.nodup_add.mp hnodup).2.2 (IkeSaEntry.mem_hashes.mpr hhash)
    (mem_sumOf_hashes.mpr ⟨item, hitem, hhash⟩)

/-- **An entry is put into the table.** -/
theorem Distinct.put (h : Distinct cfg table)
    (hhash : ∀ hash, entry.initHash = some hash → ∀ item ∈ table, item.2.initHash ≠ some hash)
    (hunlike : Unlike table entry.ikeSa entry.ikeSaId)
    (hfresh : ∀ item ∈ table, (entry.initHash.isSome = true ∨ item.2.initHash.isSome = true) →
      item.2.ikeSa ≠ entry.ikeSa) :
    Distinct cfg (Rows.put (cfg.idRow entry.ikeSaId) entry table) := by
  refine ⟨h.placed.put entry, ?_, ?_, ?_⟩
  · rw [Rows.sumOf_put, Multiset.nodup_add]
    refine ⟨?_, h.nodup, Multiset.disjoint_left.mpr fun {hash} hmem hmem' => ?_⟩
    · unfold IkeSaEntry.hashes
      split
      · exact Multiset.nodup_singleton _
      · exact Multiset.nodup_zero
    · obtain ⟨item, hitem, heq⟩ := mem_sumOf_hashes.mp hmem'
      exact hhash hash (IkeSaEntry.mem_hashes.mp hmem) item hitem heq
  · intro item hitem hsome
    rw [Rows.find_put]
    obtain rfl | hitem := List.mem_cons.mp hitem
    · rw [if_pos]
      exact Rows.hit_iff.mpr ⟨rfl, IkeSaEntry.matchById_self entry⟩
    · have hnot := hunlike.matchById rfl hitem hsome (hfresh item hitem (.inr hsome))
      rw [if_neg fun hhit => ?_]
      · exact h.first item hitem hsome
      · obtain ⟨-, hmatch⟩ := Rows.hit_iff.mp hhit
        rw [hnot] at hmatch
        cases hmatch
  · intro item hitem hsome item' hitem' heq
    obtain rfl | hitem := List.mem_cons.mp hitem
    · obtain rfl | hitem' := List.mem_cons.mp hitem'
      · rfl
      · exact absurd heq (hfresh item' hitem' (.inl hsome))
    · obtain rfl | hitem' := List.mem_cons.mp hitem'
      · exact absurd heq.symm (hfresh item hitem (.inr hsome))
      · exact h.only item hitem hsome item' hitem' heq

/-- **An entry is written.** -/
theorem Distinct.modify (h : Distinct cfg table)
    (hfind : Rows.find row pred table = some entry) (hikeSa : entry'.ikeSa = entry.ikeSa)
    (hinit : entry'.initHash = entry.initHash) (hrow : cfg.idRow entry'.ikeSaId = row)
    (hkeep : entry.initHash.isSome = true → entry'.ikeSaId = entry.ikeSaId)
    (hunlike : ∀ item ∈ table, item.2.initHash.isSome = true → item.2.ikeSa ≠ entry.ikeSa →
      entry.matchById item.2.ikeSaId = false → entry'.matchById item.2.ikeSaId = false) :
    Distinct cfg (Rows.modify row pred (fun _ => entry') table) := by
  have hperm := Rows.perm_remove hfind
  have hperm' := Rows.perm_modify hfind fun _ => entry'
  have hmem := Rows.mem_of_find hfind
  have hrest : ∀ item ∈ Rows.remove row pred table, item ∈ table := fun item hitem =>
    hperm.mem_iff.mpr (List.mem_cons_of_mem _ hitem)
  refine ⟨h.placed.modify fun _ _ _ => hrow, ?_, ?_, ?_⟩
  · have hhashes : entry'.hashes = entry.hashes := by
      unfold IkeSaEntry.hashes
      rw [hinit]
    rw [Rows.sumOf_modify hfind, hhashes, ← Rows.sumOf_find hfind]
    exact h.nodup
  · intro item hitem hsome
    obtain rfl | hitem := List.mem_cons.mp (hperm'.subset hitem)
    · have hsome' : entry.initHash.isSome = true := hinit ▸ hsome
      have hid := hkeep hsome'
      have hfirst := h.first _ hmem hsome'
      rw [← hid, hrow] at hfirst
      change Rows.find (cfg.idRow entry'.ikeSaId) (IkeSaEntry.matchById · entry'.ikeSaId) _ = some entry'
      rw [hrow]
      exact Rows.find_modify_self hfirst hfind (IkeSaEntry.matchById_self entry')
    · have hne := h.ne_of_mem_remove hfind hitem hsome
      refine Rows.find_modify_of_ne (h.first item (hrest item hitem) hsome) hfind hne ?_
      refine hunlike item (hrest item hitem) hsome fun heq => hne ?_
      exact (congrArg Prod.snd (h.only item (hrest item hitem) hsome _ hmem heq.symm)).symm
  · intro item hitem hsome item' hitem' heq
    obtain rfl | hitem := List.mem_cons.mp (hperm'.subset hitem)
    · obtain rfl | hitem' := List.mem_cons.mp (hperm'.subset hitem')
      · rfl
      · have hsome' : entry.initHash.isSome = true := hinit ▸ hsome
        have hsame := h.only _ hmem hsome' item' (hrest item' hitem') (heq.trans hikeSa)
        refine absurd (congrArg Prod.snd hsame) (h.ne_of_mem_remove hfind hitem' ?_)
        rw [hsame]
        exact hsome'
    · obtain rfl | hitem' := List.mem_cons.mp (hperm'.subset hitem')
      · have hsame := h.only item (hrest item hitem) hsome _ hmem (hikeSa.symm.trans heq)
        exact absurd (congrArg Prod.snd hsame).symm (h.ne_of_mem_remove hfind hitem hsome)
      · exact h.only item (hrest item hitem) hsome item' (hrest item' hitem') heq

/-- **An entry is taken out.** -/
theorem Distinct.remove (h : Distinct cfg table) (hfind : Rows.find row pred table = some entry) :
    Distinct cfg (Rows.remove row pred table) := by
  have hrest : ∀ item ∈ Rows.remove row pred table, item ∈ table := fun item hitem =>
    (Rows.perm_remove hfind).mem_iff.mpr (List.mem_cons_of_mem _ hitem)
  refine ⟨h.placed.remove _ _, ?_, fun item hitem hsome => ?_, fun item hitem hsome item' hitem' =>
    h.only item (hrest item hitem) hsome item' (hrest item' hitem')⟩
  · have hnodup := h.nodup
    rw [Rows.sumOf_find hfind] at hnodup
    exact (Multiset.nodup_add.mp hnodup).2.1
  · exact Rows.find_remove_of_ne (h.first item (hrest item hitem) hsome) hfind
      (h.ne_of_mem_remove hfind hitem hsome)

theorem Distinct.map (h : Distinct cfg table) {f : IkeSaEntry → IkeSaEntry}
    (hf : ∀ entry : IkeSaEntry, entry.Marked (f entry)) :
    Distinct cfg (table.map fun item => (item.1, f item.2)) := by
  have hmatch : ∀ (id : IkeSaId) (entry : IkeSaEntry),
      (f entry).matchById id = entry.matchById id := fun id entry =>
    IkeSaEntry.matchById_congr (hf entry).ikeSaId id
  refine ⟨?_, ?_, ?_, ?_⟩
  · intro item hitem
    obtain ⟨before, hbefore, rfl⟩ := List.mem_map.mp hitem
    change before.1 = cfg.idRow (f before.2).ikeSaId
    rw [(hf _).ikeSaId]
    exact h.placed before hbefore
  · have hhashes : ∀ entry, (f entry).hashes = entry.hashes := by
      intro entry
      unfold IkeSaEntry.hashes
      rw [(hf entry).initHash]
    rw [Rows.sumOf_map _ hhashes]
    exact h.nodup
  · intro item hitem hsome
    obtain ⟨before, hbefore, rfl⟩ := List.mem_map.mp hitem
    change Rows.find (cfg.idRow (f before.2).ikeSaId)
      (IkeSaEntry.matchById · (f before.2).ikeSaId) _ = some (f before.2)
    rw [(hf _).ikeSaId, Rows.find_map (hmatch _), h.first before hbefore ?_]
    · rfl
    · rw [← (hf _).initHash]
      exact hsome
  · intro item hitem hsome item' hitem' heq
    obtain ⟨before, hbefore, rfl⟩ := List.mem_map.mp hitem
    obtain ⟨before', hbefore', rfl⟩ := List.mem_map.mp hitem'
    have hsame := h.only before hbefore ?_ before' hbefore' ?_
    · rw [hsame]
    · rw [← (hf _).initHash]
      exact hsome
    · rw [← (hf before.2).ikeSa, ← (hf before'.2).ikeSa]
      exact heq

end Distinct

end IkeSaManager

/-! ## Threads that handle initial messages -/

def Message.isPassedOn (this : Message) : Bool :=
  !(this.isRequest && this.exchangeType = .ikeSaInit) ||
    (this.ikeSaId.getD ⟨0, 0, 0, false⟩).isInitiatorFlag

/-- A thread that has reserved the hash of a message, and is going to create an IKE_SA. -/
structure Reservation where
  message : Message
  version : IkeVersion
  hash : Chunk
  ourSpi : U64
  deriving DecidableEq

def Reservation.id (this : Reservation) : IkeSaId :=
  { this.message.localId with responderSpi := this.ourSpi }

/-- The manager, and threads that are in the middle of a call. -/
structure InitWorld where
  world : ManagerWorld
  creating : List Reservation
  /-- threads that are going to look for the IKE_SA of a message -/
  copying : List (Message × IkeSaId)
  /-- entries out of the table whose hashes have not been given back yet -/
  destroying : List IkeSaEntry

inductive InitEvent
  /-- `checkout_by_message` until the hash is checked -/
  | receive (message : Message) (spi : U64)
  /-- the rest, for a hash that was not known -/
  | create (reservation : Reservation) (uniqueId : Option U32)
  /-- the rest, for another message -/
  | lookup (message : Message) (id : IkeSaId)
  /-- `checkin_and_destroy` until the entry is out of the table -/
  | remove (ikeSa : ℕ)
  /-- the rest -/
  | forget (entry : IkeSaEntry)
  /-- any other call -/
  | call (call : ManagerCall)

namespace InitWorld

/-- The state after a step; none if it is not possible or blocks. -/
def step (cfg : ManagerConfig) (this : InitWorld) : InitEvent → Option InitWorld
  | .receive message spi =>
    if message.isPassedOn then
      match message.initVersion with
      | none => some { this with copying := (message, message.localId) :: this.copying }
      | some version =>
        match IkeSaManager.getInitHash cfg message with
        | none => some this
        | some hash =>
          match this.world.manager.checkAndPutInitHash cfg hash spi with
          | (.notFound, ourSpi, manager) => some { this with
              world := { this.world with manager }
              creating := ⟨message, version, hash, ourSpi⟩ :: this.creating }
          | (.failed, _, manager) => some { this with world := { this.world with manager } }
          | (_, ourSpi, manager) => some { this with
              world := { this.world with manager }
              copying := (message, { message.localId with responderSpi := ourSpi }) :: this.copying }
    else none
  | .create reservation uniqueId =>
    if reservation ∈ this.creating then
      some { this with
        world := (this.world.createByMessage cfg reservation.message reservation.version
          reservation.hash reservation.ourSpi uniqueId).2
        creating := this.creating.erase reservation }
    else none
  | .lookup message id =>
    if (message, id) ∈ this.copying then
      (this.world.lookupByMessage cfg message id).map fun result => { this with
        world := result.2
        copying := this.copying.erase (message, id) }
    else none
  | .remove ikeSa =>
    match this.world.manager.checkinAndRemove cfg (this.world.sas ikeSa).id ikeSa with
    | (some entry, manager) => some { this with
        world := { this.world with manager }
        destroying := entry :: this.destroying }
    | (none, manager) => some { this with world := { this.world with manager } }
  | .forget entry =>
    if entry ∈ this.destroying then
      some { this with
        world := { this.world with manager := this.world.manager.forget cfg entry }
        destroying := this.destroying.erase entry }
    else none
  | .call call =>
    match call with
    | .checkoutByMessage _ _ _ => none
    | .checkinAndDestroy _ => none
    | call => (this.world.call cfg call).map fun world => { this with world }

end InitWorld

/-- All threads, from a new manager. -/
def initSystem (cfg : ManagerConfig) : LTS.System InitWorld InitEvent :=
  LTS.ofOption (fun this => this.world.manager = ikeSaManagerCreate ∧ this.creating = [] ∧
    this.copying = [] ∧ this.destroying = []) (InitWorld.step cfg)

/-- **A step is sound**: `get_spi` does not fail for a hash that is not known; IDs that entries get
are not confused with those of IKE_SAs that were created for an initial message, which keep their
SPIs. -/
def InitEvent.Sound (cfg : ManagerConfig) (this : InitWorld) : InitEvent → Prop
  | .receive message spi => ∀ hash, message.initVersion.isSome = true →
      IkeSaManager.getInitHash cfg message = some hash →
      Rows.find (cfg.initRow hash) (·.hash = hash) this.world.manager.initHashesTable = none → spi ≠ 0
  | .create reservation _ =>
      IkeSaManager.Unlike this.world.manager.ikeSaTable this.world.next reservation.id
  | .call (.checkin ikeSa) =>
      IkeSaManager.Unlike this.world.manager.ikeSaTable ikeSa (this.world.sas ikeSa).id
  | .call (.newInitiatorSpi ikeSa _ spi) =>
      IkeSaManager.Unlike this.world.manager.ikeSaTable ikeSa
        ((this.world.sas ikeSa).apply (.setInitiatorSpi spi)).id
  | .call (.change ikeSa change) =>
      ((this.world.sas ikeSa).apply change).id = (this.world.sas ikeSa).id ∨
        ∀ item ∈ this.world.manager.ikeSaTable, item.2.ikeSa = ikeSa → item.2.initHash = none
  | _ => True

/-! ## The invariant -/

namespace InitWorld

open IkeSaManager ManagerWorld

variable {cfg : ManagerConfig} {received : Message → Prop} {this : InitWorld}
  {world : ManagerWorld} {row : ℕ} {pred : IkeSaEntry → Bool} {entry entry' : IkeSaEntry}

/-- What is known of an entry with a hash: the IKE_SA has its ID, which is that of a message. -/
structure Kept (cfg : ManagerConfig) (received : Message → Prop) (sas : ℕ → IkeSa) (next : ℕ)
    (entry : IkeSaEntry) (hash : Chunk) : Prop where
  id : (sas entry.ikeSa).id = entry.ikeSaId
  role : entry.ikeSaId.isInitiatorFlag = false
  spi : entry.ikeSaId.responderSpi ≠ 0
  lt : entry.ikeSa < next
  made : ∃ message, received message ∧ getInitHash cfg message = some hash ∧
    message.initVersion.isSome = true ∧
    entry.ikeSaId = { message.localId with responderSpi := entry.ikeSaId.responderSpi }

/-- What is known of a reservation. -/
structure Reserved (cfg : ManagerConfig) (received : Message → Prop) (reservation : Reservation) :
    Prop where
  received : received reservation.message
  hash : getInitHash cfg reservation.message = some reservation.hash
  version : reservation.message.initVersion.isSome = true
  role : reservation.message.localId.isInitiatorFlag = false
  spi : reservation.ourSpi ≠ 0

/-- The records that threads have reserved. -/
def reservedOf (creating : List Reservation) : Multiset InitHash :=
  (creating.map fun reservation => (⟨reservation.hash, reservation.ourSpi⟩ : InitHash) : List InitHash)

/-- The records of entries out of the table. -/
def destroyedOf (destroying : List IkeSaEntry) : Multiset InitHash :=
  (destroying.map IkeSaEntry.made).sum

/-- **Every hash belongs to a reservation, an entry or one that is being destroyed.** -/
structure Deduped (cfg : ManagerConfig) (received : Message → Prop) (this : InitWorld) : Prop where
  distinct : Distinct cfg this.world.manager.ikeSaTable
  lt : ∀ item ∈ this.world.manager.ikeSaTable, item.2.ikeSa < this.world.next
  kept : ∀ item ∈ this.world.manager.ikeSaTable, ∀ hash, item.2.initHash = some hash →
    Kept cfg received this.world.sas this.world.next item.2 hash
  known : Known cfg (reservedOf this.creating + destroyedOf this.destroying +
    Rows.sumOf IkeSaEntry.made this.world.manager.ikeSaTable) this.world.manager
  reserved : ∀ reservation ∈ this.creating, Reserved cfg received reservation

theorem made_congr (hinit : entry'.initHash = entry.initHash)
    (hkeep : entry.initHash.isSome = true → entry'.ikeSaId = entry.ikeSaId) :
    entry'.made = entry.made := by
  unfold IkeSaEntry.made
  rw [hinit]
  cases hhash : entry.initHash with
  | none => rfl
  | some hash => rw [hkeep (by rw [hhash]; rfl)]

variable {hash : Chunk}

theorem Kept.congr (h : Kept cfg received this.world.sas this.world.next entry hash)
    (hikeSa : entry'.ikeSa = entry.ikeSa) (hid : entry'.ikeSaId = entry.ikeSaId)
    (hids : (world.sas entry.ikeSa).id = (this.world.sas entry.ikeSa).id)
    (hnext : this.world.next ≤ world.next) : Kept cfg received world.sas world.next entry' hash := by
  obtain ⟨hsa, hrole, hspi, hlt, hmade⟩ := h
  exact ⟨by rw [hikeSa, hids, hsa, hid], hid ▸ hrole, hid ▸ hspi, hikeSa ▸ hlt.trans_le hnext,
    hid ▸ hmade⟩

/-- What else may change: other IKE_SAs than those of entries with a hash. -/
structure Beside (this : InitWorld) (world : ManagerWorld) : Prop where
  init : world.manager.initHashesTable = this.world.manager.initHashesTable
  ids : ∀ item ∈ this.world.manager.ikeSaTable, item.2.initHash.isSome = true →
    (world.sas item.2.ikeSa).id = (this.world.sas item.2.ikeSa).id
  next : this.world.next ≤ world.next

theorem Deduped.same (h : Deduped cfg received this) (hbeside : Beside this world)
    (htable : world.manager.ikeSaTable = this.world.manager.ikeSaTable) :
    Deduped cfg received { this with world } := by
  refine ⟨?_, ?_, ?_, ?_, h.reserved⟩
  · change Distinct cfg world.manager.ikeSaTable
    rw [htable]
    exact h.distinct
  · intro item hitem
    change item ∈ world.manager.ikeSaTable at hitem
    rw [htable] at hitem
    exact (h.lt item hitem).trans_le hbeside.next
  · intro item hitem hash hhash
    change item ∈ world.manager.ikeSaTable at hitem
    rw [htable] at hitem
    exact (h.kept item hitem hash hhash).congr rfl rfl
      (hbeside.ids item hitem (by rw [hhash]; rfl)) hbeside.next
  · change Known cfg (_ + Rows.sumOf _ world.manager.ikeSaTable) world.manager
    rw [htable]
    exact h.known.congr hbeside.init

/-- **An entry is written**, with the same hash. -/
theorem Deduped.write (h : Deduped cfg received this) (hbeside : Beside this world)
    (hfind : Rows.find row pred this.world.manager.ikeSaTable = some entry)
    (htable : world.manager.ikeSaTable =
      Rows.modify row pred (fun _ => entry') this.world.manager.ikeSaTable)
    (hikeSa : entry'.ikeSa = entry.ikeSa) (hinit : entry'.initHash = entry.initHash)
    (hrow : cfg.idRow entry'.ikeSaId = row)
    (hkeep : entry.initHash.isSome = true → entry'.ikeSaId = entry.ikeSaId)
    (hunlike : ∀ item ∈ this.world.manager.ikeSaTable, item.2.initHash.isSome = true →
      item.2.ikeSa ≠ entry.ikeSa → entry.matchById item.2.ikeSaId = false →
      entry'.matchById item.2.ikeSaId = false) :
    Deduped cfg received { this with world } := by
  have hmem := Rows.mem_of_find hfind
  refine ⟨?_, ?_, ?_, ?_, h.reserved⟩
  · change Distinct cfg world.manager.ikeSaTable
    rw [htable]
    exact h.distinct.modify hfind hikeSa hinit hrow hkeep hunlike
  · intro item hitem
    change item ∈ world.manager.ikeSaTable at hitem
    rw [htable] at hitem
    obtain rfl | hitem := List.mem_cons.mp ((Rows.perm_modify hfind _).subset hitem)
    · exact hikeSa ▸ (h.lt _ hmem).trans_le hbeside.next
    · exact (h.lt item ((Rows.perm_remove hfind).mem_iff.mpr
        (List.mem_cons_of_mem _ hitem))).trans_le hbeside.next
  · intro item hitem hash hhash
    change item ∈ world.manager.ikeSaTable at hitem
    rw [htable] at hitem
    obtain rfl | hitem := List.mem_cons.mp ((Rows.perm_modify hfind _).subset hitem)
    · have hhash' : entry.initHash = some hash := hinit ▸ hhash
      have hsome : entry.initHash.isSome = true := by rw [hhash']; rfl
      exact (h.kept _ hmem hash hhash').congr hikeSa (hkeep hsome) (hbeside.ids _ hmem hsome)
        hbeside.next
    · have hitem' := (Rows.perm_remove hfind).mem_iff.mpr (List.mem_cons_of_mem _ hitem)
      exact (h.kept item hitem' hash hhash).congr rfl rfl
        (hbeside.ids item hitem' (by rw [hhash]; rfl)) hbeside.next
  · change Known cfg (_ + Rows.sumOf _ world.manager.ikeSaTable) world.manager
    rw [htable, Rows.sumOf_modify hfind, made_congr hinit hkeep, ← Rows.sumOf_find hfind]
    exact h.known.congr hbeside.init

/-- **An entry without a hash is put into the table.** -/
theorem Deduped.insert (h : Deduped cfg received this) (hbeside : Beside this world)
    (htable : world.manager.ikeSaTable =
      Rows.put (cfg.idRow entry.ikeSaId) entry this.world.manager.ikeSaTable)
    (hhash : entry.initHash = none)
    (hunlike : Unlike this.world.manager.ikeSaTable entry.ikeSa entry.ikeSaId)
    (hfresh : ∀ item ∈ this.world.manager.ikeSaTable, item.2.initHash.isSome = true →
      item.2.ikeSa ≠ entry.ikeSa) (hlt : entry.ikeSa < world.next) :
    Deduped cfg received { this with world } := by
  refine ⟨?_, ?_, ?_, ?_, h.reserved⟩
  · change Distinct cfg world.manager.ikeSaTable
    rw [htable]
    refine h.distinct.put (fun hash heq => ?_) hunlike fun item hitem hsome => ?_
    · rw [hhash] at heq
      cases heq
    · rw [hhash] at hsome
      exact hfresh item hitem (hsome.resolve_left (by simp))
  · intro item hitem
    change item ∈ world.manager.ikeSaTable at hitem
    rw [htable] at hitem
    obtain rfl | hitem := List.mem_cons.mp hitem
    · exact hlt
    · exact (h.lt item hitem).trans_le hbeside.next
  · intro item hitem hash hhash'
    change item ∈ world.manager.ikeSaTable at hitem
    rw [htable] at hitem
    obtain rfl | hitem := List.mem_cons.mp hitem
    · rw [hhash] at hhash'
      cases hhash'
    · exact (h.kept item hitem hash hhash').congr rfl rfl
        (hbeside.ids item hitem (by rw [hhash']; rfl)) hbeside.next
  · change Known cfg (_ + Rows.sumOf _ world.manager.ikeSaTable) world.manager
    have hmade : entry.made = 0 := by
      unfold IkeSaEntry.made
      rw [hhash]
    rw [htable, Rows.sumOf_put, hmade, zero_add]
    exact h.known.congr hbeside.init

theorem Deduped.touched (h : Deduped cfg received this) (hbeside : Beside this world)
    (htouched : Touched this.world.manager world.manager) :
    Deduped cfg received { this with world } := by
  obtain ⟨manager, sas, next, contacting⟩ := world
  cases htouched with
  | same => exact h.same hbeside rfl
  | entry hfind hmarked =>
    refine h.write hbeside hfind rfl hmarked.ikeSa hmarked.initHash ?_ (fun _ => hmarked.ikeSaId)
      fun item _ _ _ hnot => ?_
    · rw [hmarked.ikeSaId]
      exact (h.distinct.placed _ (Rows.mem_of_find hfind)).symm
    · rw [IkeSaEntry.matchById_congr hmarked.ikeSaId]
      exact hnot

theorem Deduped.mono {received' : Message → Prop} (h : Deduped cfg received this)
    (hmono : ∀ message, received message → received' message) : Deduped cfg received' this := by
  refine ⟨h.distinct, h.lt, fun item hitem hash hhash => ?_, h.known, fun reservation hmem => ?_⟩
  · obtain ⟨hid, hrole, hspi, hlt, message, hmessage, hmade⟩ := h.kept item hitem hash hhash
    exact ⟨hid, hrole, hspi, hlt, message, hmono message hmessage, hmade⟩
  · obtain ⟨hmessage, hhash, hversion, hrole, hspi⟩ := h.reserved reservation hmem
    exact ⟨hmono _ hmessage, hhash, hversion, hrole, hspi⟩

/-! ## Steps -/

/-- No mutex is locked. -/
def Unlocked (manager : IkeSaManager) : Prop :=
  manager.segments = (fun _ => 0) ∧ manager.initHashesSegments = fun _ => 0

theorem Unlocked.congr {manager manager' : IkeSaManager} (h : Unlocked manager)
    (hsegments : manager'.segments = manager.segments)
    (hinit : manager'.initHashesSegments = manager.initHashesSegments) : Unlocked manager' :=
  ⟨hsegments.trans h.1, hinit.trans h.2⟩

theorem Unlocked.touched {manager manager' : IkeSaManager} (h : Unlocked manager)
    (htouched : Touched manager manager') : Unlocked manager' := by
  cases htouched with
  | same => exact h
  | entry _ _ => exact h

variable {message : Message}

theorem role_localId (hpassed : message.isPassedOn = true)
    (hversion : message.initVersion.isSome = true) :
    message.localId.isInitiatorFlag = false := by
  have hrequest : message.initVersion ≠ some .ikev1 →
      message.exchangeType = .ikeSaInit ∧ message.isRequest = true := by
    intro hikev1
    unfold Message.initVersion at hversion hikev1
    split_ifs at hversion hikev1 with _ _ hinit
    · exact hinit
    all_goals simp_all
  unfold Message.isPassedOn at hpassed
  unfold Message.localId
  generalize message.ikeSaId.getD ⟨0, 0, 0, false⟩ = id at hpassed
  dsimp only
  by_cases hikev1 : message.initVersion = some .ikev1
  · cases hflag : id.isInitiatorFlag <;> simp [hikev1, hflag, IkeSaId.switchInitiator]
  · have hflag : id.isInitiatorFlag = true := by simpa [hrequest hikev1] using hpassed
    simp [hikev1, hflag, IkeSaId.switchInitiator]

theorem reservedOf_cons (reservation : Reservation) (creating : List Reservation) :
    reservedOf (reservation :: creating) =
      ⟨reservation.hash, reservation.ourSpi⟩ ::ₘ reservedOf creating := rfl

variable {this' : InitWorld} {spi : U64}

/-- **A message is received**: its hash is known, or it is reserved. -/
theorem Deduped.receive (h : Deduped cfg received this) (hunlocked : Unlocked this.world.manager)
    (hsound : InitEvent.Sound cfg this (.receive message spi))
    (hreceived : received message)
    (hstep : this.step cfg (.receive message spi) = some this') :
    Deduped cfg received this' ∧ Unlocked this'.world.manager := by
  obtain ⟨hpassed, hstep⟩ := Option.ite_none_right_eq_some.mp hstep
  have hcopying : ∀ copying, Deduped cfg received { this with copying } ∧
      Unlocked this.world.manager := fun copying =>
    ⟨⟨h.distinct, h.lt, h.kept, h.known, h.reserved⟩, hunlocked⟩
  split at hstep
  · cases hstep
    exact hcopying _
  · rename_i version hversion
    have hsome : message.initVersion.isSome = true := by rw [hversion]; rfl
    split at hstep
    · cases hstep
      exact ⟨h, hunlocked⟩
    · rename_i hash hhash
      cases hfind : Rows.find (cfg.initRow hash) (·.hash = hash)
          this.world.manager.initHashesTable with
      | some init =>
        obtain rfl : init.hash = hash := by simpa using Rows.pred_of_find hfind
        have hmem := h.known.stored ▸ mem_records.mpr ⟨_, Rows.mem_of_find hfind⟩
        rw [h.known.copy hmem spi] at hstep
        cases hstep
        exact hcopying _
      | none =>
        have hspi := hsound hash hsome hhash hfind
        obtain ⟨heq, hknown⟩ := h.known.reserve (h.known.find_none.mp hfind) hspi
        rw [heq] at hstep
        cases hstep
        refine ⟨⟨h.distinct, h.lt, h.kept, ?_, ?_⟩, hunlocked⟩
        · rw [reservedOf_cons, Multiset.cons_add, Multiset.cons_add]
          exact hknown
        · refine List.forall_mem_cons.mpr ⟨⟨hreceived, hhash, hsome, ?_, hspi⟩, h.reserved⟩
          exact role_localId hpassed hsome

variable {reservation : Reservation}

theorem reservedOf_erase {creating : List Reservation}
    (hmem : reservation ∈ creating) :
    reservedOf creating =
      ⟨reservation.hash, reservation.ourSpi⟩ ::ₘ reservedOf (creating.erase reservation) := by
  rw [← reservedOf_cons]
  exact Multiset.coe_eq_coe.mpr ((List.perm_cons_erase hmem).map _)

theorem map_sumOf_made (table : List (ℕ × IkeSaEntry)) :
    (Rows.sumOf IkeSaEntry.made table).map InitHash.hash = Rows.sumOf IkeSaEntry.hashes table := by
  induction table with
  | nil => rfl
  | cons item table ih =>
    rw [Rows.sumOf_cons, Multiset.map_add, ih, IkeSaEntry.map_made, Rows.sumOf_cons]

variable {item : ℕ × IkeSaEntry}

theorem Deduped.not_reserved (h : Deduped cfg received this)
    (hmem : reservation ∈ this.creating)
    (hitem : item ∈ this.world.manager.ikeSaTable) :
    item.2.initHash ≠ some reservation.hash := by
  intro heq
  have hnodup := h.known.nodup
  rw [Multiset.map_add, map_sumOf_made, reservedOf_erase hmem, Multiset.cons_add,
    Multiset.map_cons, Multiset.cons_add, Multiset.nodup_cons] at hnodup
  exact hnodup.1 (Multiset.mem_add.mpr (.inr (mem_sumOf_hashes.mpr ⟨item, hitem, heq⟩)))

variable {manager : IkeSaManager}

theorem unlocked_removeInitHash (h : Unlocked manager) (hash : Chunk) :
    Unlocked (manager.removeInitHash cfg hash) := by
  refine h.congr rfl ?_
  simp [removeInitHash, lockInitHashes, unlockInitHashes]

variable {uniqueId : Option U32}

/-- **The IKE_SA is created**, or the hash is given back. -/
theorem Deduped.create (h : Deduped cfg received this) (hunlocked : Unlocked this.world.manager)
    (hsound : InitEvent.Sound cfg this (.create reservation uniqueId))
    (hstep : this.step cfg (.create reservation uniqueId) = some this') :
    Deduped cfg received this' ∧ Unlocked this'.world.manager := by
  obtain ⟨hmem, heq⟩ := Option.ite_none_right_eq_some.mp hstep
  obtain ⟨hreceived, hhash, hversion, hrole, hspi⟩ := h.reserved reservation hmem
  have hreserved : ∀ other ∈ this.creating.erase reservation, Reserved cfg received other :=
    fun other hother => h.reserved other (List.mem_of_mem_erase hother)
  have hknown := h.known
  rw [reservedOf_erase hmem, Multiset.cons_add, Multiset.cons_add] at hknown
  obtain ⟨-, sa, hid, -, hcreated⟩ | ⟨-, hremoved⟩ := createByMessage_cases cfg this.world
    reservation.message reservation.version reservation.hash reservation.ourSpi uniqueId
  · rw [hcreated] at heq
    cases heq
    set entry := createdEntry cfg reservation.message reservation.hash reservation.ourSpi
      this.world.next with hentry
    have hids : ∀ item ∈ this.world.manager.ikeSaTable,
        Function.update this.world.sas this.world.next sa item.2.ikeSa =
          this.world.sas item.2.ikeSa := fun item hitem =>
      Function.update_of_ne (h.lt item hitem).ne _ _
    refine ⟨⟨?_, ?_, ?_, ?_, hreserved⟩, hunlocked⟩
    · refine h.distinct.put (fun hash hsome item hitem => ?_) hsound fun item hitem _ =>
        (h.lt item hitem).ne
      cases hsome
      exact h.not_reserved hmem hitem
    · exact List.forall_mem_cons.mpr ⟨Nat.lt_succ_self _, fun item hitem =>
        (h.lt item hitem).trans (Nat.lt_succ_self _)⟩
    · refine List.forall_mem_cons.mpr ⟨fun hash hsome => ?_, fun item hitem hash hsome => ?_⟩
      · cases hsome
        refine ⟨?_, hrole, hspi, Nat.lt_succ_self _, _, hreceived, hhash, hversion, rfl⟩
        exact (congrArg IkeSa.id (Function.update_self ..)).trans hid
      · obtain ⟨hid, hrole, hspi, hlt, hmade⟩ := h.kept item hitem hash hsome
        exact ⟨(congrArg IkeSa.id (hids item hitem)).trans hid, hrole, hspi,
          hlt.trans (Nat.lt_succ_self _), hmade⟩
    · change Known cfg (_ + Rows.sumOf _ (Rows.put _ entry _)) _
      have hmade : entry.made = {⟨reservation.hash, reservation.ourSpi⟩} := rfl
      rw [Rows.sumOf_put, hmade, Multiset.singleton_add, Multiset.add_cons]
      exact hknown.congr rfl
  · rw [hremoved] at heq
    cases heq
    exact ⟨⟨h.distinct, h.lt, h.kept, hknown.remove, hreserved⟩,
      unlocked_removeInitHash hunlocked _⟩

/-- **The IKE_SA of a message is looked for.** -/
theorem Deduped.lookup (h : Deduped cfg received this) (hunlocked : Unlocked this.world.manager)
    {id : IkeSaId}
    (hstep : this.step cfg (.lookup message id) = some this') :
    Deduped cfg received this' ∧ Unlocked this'.world.manager := by
  obtain ⟨-, heq⟩ := Option.ite_none_right_eq_some.mp hstep
  obtain ⟨⟨found, world⟩, hlookup, rfl⟩ := Option.map_eq_some_iff.mp heq
  suffices Deduped cfg received { this with world } ∧ Unlocked world.manager from
    ⟨⟨this.1.distinct, this.1.lt, this.1.kept, this.1.known, this.1.reserved⟩, this.2⟩
  obtain heq | ⟨entry, entry', hfind, hmarked, -, hmanager, hnext, -, hsas⟩ :=
    lookupByMessage_cases hlookup
  · cases heq
    exact ⟨h, hunlocked⟩
  · dsimp only at hmanager hnext hsas
    have htouched : Touched this.world.manager world.manager := hmanager ▸ .entry hfind hmarked
    refine ⟨h.touched ⟨?_, fun item hitem hsome => ?_, hnext.ge⟩ htouched,
      hunlocked.touched htouched⟩
    · rw [hmanager]
      rfl
    · obtain hsas | ⟨hzero, hsas⟩ := hsas
      · rw [hsas]
      · obtain ⟨hash, hhash⟩ := Option.isSome_iff_exists.mp hsome
        obtain ⟨hid, -, hspi, -⟩ := h.kept item hitem hash hhash
        have hne : item.2.ikeSa ≠ entry.ikeSa := by
          intro hsame
          rw [hsame] at hid
          rw [hid] at hzero
          exact hspi hzero
        rw [hsas, Function.update_of_ne hne]

theorem destroyedOf_erase {destroying : List IkeSaEntry} (hmem : entry ∈ destroying) :
    destroyedOf destroying = entry.made + destroyedOf (destroying.erase entry) :=
  (((List.perm_cons_erase hmem).map _).sum_eq).trans List.sum_cons

variable {ikeSa : ℕ}

/-- **An entry is taken out of the table**, with its hash. -/
theorem Deduped.remove (h : Deduped cfg received this) (hunlocked : Unlocked this.world.manager)
    (hstep : this.step cfg (.remove ikeSa) = some this') :
    Deduped cfg received this' ∧ Unlocked this'.world.manager := by
  dsimp only [step] at hstep
  obtain ⟨hnone, htouched⟩ | ⟨entry, entry', hfind, hmarked, heq⟩ :=
    checkinAndRemove_cases h.distinct.placed (this.world.sas ikeSa).id ikeSa
  · generalize this.world.manager.checkinAndRemove cfg (this.world.sas ikeSa).id ikeSa = removed
      at hnone htouched hstep
    obtain ⟨removed, manager⟩ := removed
    dsimp only at hnone htouched
    subst hnone
    cases hstep
    refine ⟨h.touched ⟨?_, fun _ _ _ => rfl, le_rfl⟩ htouched, hunlocked.touched htouched⟩
    cases htouched <;> rfl
  · rw [heq] at hstep
    cases hstep
    have hrest : ∀ item ∈ Rows.remove (cfg.idRow (this.world.sas ikeSa).id) (·.ikeSa = ikeSa)
        this.world.manager.ikeSaTable, item ∈ this.world.manager.ikeSaTable := fun item hitem =>
      (Rows.perm_remove hfind).mem_iff.mpr (List.mem_cons_of_mem _ hitem)
    refine ⟨⟨h.distinct.remove hfind, fun item hitem => h.lt item (hrest item hitem),
      fun item hitem => h.kept item (hrest item hitem), ?_, h.reserved⟩, hunlocked⟩
    have hknown := h.known
    rw [Rows.sumOf_find hfind] at hknown
    have hmade : entry'.made = entry.made := made_congr hmarked.initHash fun _ => hmarked.ikeSaId
    have hdestroyed : destroyedOf (entry' :: this.destroying) =
        entry.made + destroyedOf this.destroying := by
      rw [← hmade]
      exact List.sum_cons
    change Known cfg (reservedOf this.creating + destroyedOf (entry' :: this.destroying) + _) _
    rw [hdestroyed, ← add_assoc, add_assoc, ← add_add_add_comm]
    exact hknown.congr rfl

theorem known_forget {records : Multiset InitHash}
    (h : Known cfg (entry.made + records) manager) :
    Known cfg records (manager.forget cfg entry) := by
  have hforgets := (forget_forgets cfg entry manager).initHashesTable
  unfold IkeSaEntry.made at h
  cases hhash : entry.initHash with
  | none =>
    rw [hhash] at h hforgets
    rw [zero_add] at h
    exact h.congr hforgets
  | some hash =>
    rw [hhash] at h hforgets
    rw [Multiset.singleton_add] at h
    exact (Known.remove h).congr hforgets

theorem Deduped.forget (h : Deduped cfg received this) (hunlocked : Unlocked this.world.manager)
    (hstep : this.step cfg (.forget entry) = some this') :
    Deduped cfg received this' ∧ Unlocked this'.world.manager := by
  obtain ⟨hmem, heq⟩ := Option.ite_none_right_eq_some.mp hstep
  cases heq
  have hforgets := forget_forgets cfg entry this.world.manager
  refine ⟨⟨?_, ?_, ?_, ?_, h.reserved⟩,
    hunlocked.congr hforgets.segments hforgets.initHashesSegments⟩
  · change Distinct cfg (this.world.manager.forget cfg entry).ikeSaTable
    rw [hforgets.ikeSaTable]
    exact h.distinct
  · intro item hitem
    change item ∈ (this.world.manager.forget cfg entry).ikeSaTable at hitem
    rw [hforgets.ikeSaTable] at hitem
    exact h.lt item hitem
  · intro item hitem
    change item ∈ (this.world.manager.forget cfg entry).ikeSaTable at hitem
    rw [hforgets.ikeSaTable] at hitem
    exact h.kept item hitem
  · have hknown := h.known
    rw [destroyedOf_erase hmem, add_left_comm, add_assoc] at hknown
    change Known cfg (_ + Rows.sumOf _ (this.world.manager.forget cfg entry).ikeSaTable) _
    rw [hforgets.ikeSaTable]
    exact known_forget hknown

/-! ## Other calls -/

theorem ids_update (sas : ℕ → IkeSa) {sa : IkeSa} (hid : sa.id = (sas ikeSa).id)
    (other : ℕ) : (Function.update sas ikeSa sa other).id = (sas other).id := by
  by_cases hsame : other = ikeSa
  · subst hsame
    rw [Function.update_self, hid]
  · rw [Function.update_of_ne hsame]

theorem Deduped.change (h : Deduped cfg received this) {change : IkeSa.Change}
    (hsound : InitEvent.Sound cfg this (.call (.change ikeSa change))) :
    Deduped cfg received { this with world := { this.world with
      sas := Function.update this.world.sas ikeSa ((this.world.sas ikeSa).apply change) } } := by
  refine h.same ⟨rfl, fun item hitem hsome => ?_, le_rfl⟩ rfl
  obtain hid | hnone := hsound
  · exact ids_update this.world.sas hid _
  · have hne : item.2.ikeSa ≠ ikeSa := by
      intro hsame
      rw [hnone item hitem hsame] at hsome
      cases hsome
    exact congrArg IkeSa.id (Function.update_of_ne hne _ _)

theorem Deduped.allocate (h : Deduped cfg received this) (sa : IkeSa) :
    Deduped cfg received { this with world := this.world.allocate sa } := by
  refine h.same ⟨rfl, fun item hitem _ => ?_, Nat.le_succ _⟩ rfl
  exact congrArg IkeSa.id (Function.update_of_ne (h.lt item hitem).ne _ _)

theorem Deduped.takeOut (h : Deduped cfg received this) (hbeside : Beside this world)
    (hfind : Rows.find row pred this.world.manager.ikeSaTable = some entry)
    (hhash : entry.initHash = none)
    (htable : world.manager.ikeSaTable = Rows.remove row pred this.world.manager.ikeSaTable) :
    Deduped cfg received { this with world } := by
  have hrest : ∀ item ∈ Rows.remove row pred this.world.manager.ikeSaTable,
      item ∈ this.world.manager.ikeSaTable := fun item hitem =>
    (Rows.perm_remove hfind).mem_iff.mpr (List.mem_cons_of_mem _ hitem)
  refine ⟨?_, ?_, ?_, ?_, h.reserved⟩
  · change Distinct cfg world.manager.ikeSaTable
    rw [htable]
    exact h.distinct.remove hfind
  · intro item hitem
    change item ∈ world.manager.ikeSaTable at hitem
    rw [htable] at hitem
    exact (h.lt item (hrest item hitem)).trans_le hbeside.next
  · intro item hitem hash hsome
    change item ∈ world.manager.ikeSaTable at hitem
    rw [htable] at hitem
    exact (h.kept item (hrest item hitem) hash hsome).congr rfl rfl
      (hbeside.ids item (hrest item hitem) (by rw [hsome]; rfl)) hbeside.next
  · have hmade : entry.made = 0 := by
      unfold IkeSaEntry.made
      rw [hhash]
    have hknown := h.known
    rw [Rows.sumOf_find hfind, hmade, zero_add] at hknown
    change Known cfg (_ + Rows.sumOf _ world.manager.ikeSaTable) _
    rw [htable]
    exact hknown.congr hbeside.init

theorem Deduped.newInitiatorSpi (h : Deduped cfg received this)
    (hunlocked : Unlocked this.world.manager) {current : Option ℕ}
    (hsound : InitEvent.Sound cfg this (.call (.newInitiatorSpi ikeSa current spi))) :
    Deduped cfg received { this with
        world := (this.world.newInitiatorSpi cfg ikeSa current spi).2 } ∧
      Unlocked (this.world.newInitiatorSpi cfg ikeSa current spi).2.manager := by
  obtain heq | ⟨entry, entry', hflag, hfind, hchecked, -, heq⟩ :=
    newInitiatorSpi_cases h.distinct.placed ikeSa current spi
  · rw [heq]
    exact ⟨h, hunlocked⟩
  · have hikeSa : entry.ikeSa = ikeSa := ikeSa_of_find hfind
    -- we are the initiator, and the responder of IKE_SAs with a hash
    have hother : ∀ item ∈ this.world.manager.ikeSaTable, item.2.initHash.isSome = true →
        item.2.ikeSa ≠ ikeSa := by
      intro item hitem hsome hsame
      obtain ⟨hash, hhash⟩ := Option.isSome_iff_exists.mp hsome
      obtain ⟨hid, hrole, -⟩ := h.kept item hitem hash hhash
      rw [← hid, hsame, hflag] at hrole
      cases hrole
    have hhash : entry.initHash = none := by
      by_contra hsome
      exact hother _ (Rows.mem_of_find hfind) (Option.isSome_iff_ne_none.mpr hsome) hikeSa
    rw [heq]
    refine ⟨?_, hunlocked⟩
    let taken : ManagerWorld := { this.world with manager := { this.world.manager with
      ikeSaTable := Rows.remove (cfg.idRow (this.world.sas ikeSa).id) (·.ikeSa = ikeSa)
        this.world.manager.ikeSaTable } }
    have htaken : Deduped cfg received { this with world := taken } :=
      h.takeOut ⟨rfl, fun _ _ _ => rfl, le_rfl⟩ hfind hhash rfl
    have hrest : ∀ item ∈ Rows.remove (cfg.idRow (this.world.sas ikeSa).id) (·.ikeSa = ikeSa)
        this.world.manager.ikeSaTable, item ∈ this.world.manager.ikeSaTable := fun item hitem =>
      (Rows.perm_remove hfind).mem_iff.mpr (List.mem_cons_of_mem _ hitem)
    refine @Deduped.insert cfg received { this with world := taken } _ entry' htaken
      ⟨rfl, fun item hitem hsome => ?_, le_rfl⟩ rfl (hchecked.initHash.trans hhash) ?_ ?_ ?_
    · exact congrArg IkeSa.id (Function.update_of_ne (hother item (hrest item hitem) hsome) _ _)
    · rw [hchecked.ikeSa, hchecked.ikeSaId, hikeSa]
      exact fun item hitem => hsound item (hrest item hitem)
    · rw [hchecked.ikeSa, hikeSa]
      exact fun item hitem => hother item (hrest item hitem)
    · rw [hchecked.ikeSa]
      exact h.lt _ (Rows.mem_of_find hfind)

theorem Deduped.kept_of_find (h : Deduped cfg received this)
    (hfind : Rows.find row pred this.world.manager.ikeSaTable = some entry)
    (hsome : entry.initHash.isSome = true) :
    (this.world.sas entry.ikeSa).id = entry.ikeSaId := by
  obtain ⟨hash, hhash⟩ := Option.isSome_iff_exists.mp hsome
  exact (h.kept _ (Rows.mem_of_find hfind) hash hhash).id

/-- **The first part of checking in.** -/
theorem Deduped.checkinFirst (h : Deduped cfg received this)
    (hlt : ikeSa < this.world.next)
    (hunlike : Unlike this.world.manager.ikeSaTable ikeSa (this.world.sas ikeSa).id) :
    Deduped cfg received { this with world := { this.world with
      manager := (this.world.manager.checkinFirst cfg (this.world.sas ikeSa) ikeSa).2 } } := by
  obtain ⟨entry, entry', hchecked, hikeSa, -, hsame, ⟨hfind, htable⟩ | ⟨hnone, rfl, htable⟩⟩ :=
    checkinFirst_cases cfg this.world.manager (this.world.sas ikeSa) ikeSa
  · have hikeSa' : entry.ikeSa = ikeSa := ikeSa_of_find hfind
    refine h.write ⟨hsame.initHashesTable, fun _ _ _ => rfl, le_rfl⟩ hfind htable hchecked.ikeSa
      hchecked.initHash (by rw [hchecked.ikeSaId]) (fun hsome => ?_) fun item hitem hsome hne _ => ?_
    · rw [hchecked.ikeSaId, ← h.kept_of_find hfind hsome, hikeSa']
    · exact hunlike.matchById hchecked.ikeSaId hitem hsome (hikeSa' ▸ hne)
  · refine h.insert ⟨hsame.initHashesTable, fun _ _ _ => rfl, le_rfl⟩
      (htable.trans (by rw [hchecked.ikeSaId])) hchecked.initHash ?_ ?_ (hikeSa ▸ hlt)
    · rw [hikeSa, hchecked.ikeSaId]
      exact hunlike
    · -- an entry of the IKE_SA with a hash would have been found
      intro item hitem hsome hsame'
      obtain ⟨hash, hhash⟩ := Option.isSome_iff_exists.mp hsome
      have hid := (h.kept item hitem hash hhash).id
      have hrow : item.1 = cfg.idRow (this.world.sas ikeSa).id := by
        rw [← hikeSa, ← hsame', hid]
        exact h.distinct.placed item hitem
      have hnot := Rows.find_none hnone item.2 (hrow ▸ hitem)
      simp [hsame', hikeSa] at hnot

/-- **The rest of checking in.** -/
theorem Deduped.checkinLast (h : Deduped cfg received this) {sa : IkeSa}
    {sas : ℕ → IkeSa} (hsas : ∀ other, (sas other).id = (this.world.sas other).id)
    {contacting : List ℕ} :
    Deduped cfg received { this with world := { this.world with
      manager := this.world.manager.checkinLast cfg sa ikeSa
      sas
      contacting } } := by
  obtain heq | ⟨entry, hfind, heq⟩ := checkinLast_cases cfg this.world.manager sa ikeSa
  · rw [heq]
    exact h.same ⟨rfl, fun item _ _ => hsas _, le_rfl⟩ rfl
  · rw [heq, putConnectedPeers_eq]
    have hrow := h.distinct.placed _ (Rows.mem_of_find hfind)
    exact h.write ⟨rfl, fun item _ _ => hsas _, le_rfl⟩ hfind rfl rfl rfl hrow.symm (fun _ => rfl)
      fun item _ _ _ hnot => hnot

theorem checkinLast_locks (cfg : ManagerConfig) (manager : IkeSaManager) (sa : IkeSa) (ikeSa : ℕ) :
    (manager.checkinLast cfg sa ikeSa).segments = manager.segments ∧
      (manager.checkinLast cfg sa ikeSa).initHashesSegments = manager.initHashesSegments := by
  obtain heq | ⟨entry, -, heq⟩ := checkinLast_cases cfg manager sa ikeSa
  · rw [heq]
    exact ⟨rfl, rfl⟩
  · rw [heq, putConnectedPeers_eq]
    exact ⟨rfl, rfl⟩

theorem Deduped.checkin (h : Deduped cfg received this) (hunlocked : Unlocked this.world.manager)
    (hlt : ikeSa < this.world.next)
    (hsound : InitEvent.Sound cfg this (.call (.checkin ikeSa))) :
    Deduped cfg received { this with world := this.world.checkin cfg ikeSa } ∧
      Unlocked (this.world.checkin cfg ikeSa).manager := by
  have hfirst := h.checkinFirst hlt hsound
  obtain ⟨entry, entry', -, -, -, hsame, -⟩ :=
    checkinFirst_cases cfg this.world.manager (this.world.sas ikeSa) ikeSa
  have hsegments := hsame.segments
  have hinitSegments := hsame.initHashesSegments
  clear hsame
  obtain ⟨hsas, hnext, manager, hmanager, hcases⟩ := checkin_cases cfg this.world ikeSa
  generalize (this.world.manager.checkinFirst cfg (this.world.sas ikeSa) ikeSa).2 = first
    at hfirst hsegments hinitSegments hcases
  have hmiddle : Deduped cfg received { this with world := { this.world with manager } } ∧
      manager.segments = first.segments ∧
      manager.initHashesSegments = first.initHashesSegments := by
    obtain ⟨htouched, -⟩ | ⟨-, rfl⟩ := hcases
    · have hbeside : Beside { this with world := { this.world with manager := first } }
          { this.world with manager } := by
        refine ⟨?_, fun _ _ _ => rfl, le_rfl⟩
        cases htouched <;> rfl
      refine ⟨hfirst.touched hbeside htouched, ?_⟩
      cases htouched <;> exact ⟨rfl, rfl⟩
    · exact ⟨hfirst.checkinLast fun _ => rfl, checkinLast_locks cfg first _ ikeSa⟩
  obtain ⟨hdeduped, hsegments', hinitSegments'⟩ := hmiddle
  constructor
  · have hbeside : Beside { this with world := { this.world with manager } }
        (this.world.checkin cfg ikeSa) :=
      ⟨by rw [hmanager]; rfl, fun item _ _ => by rw [hsas], hnext.ge⟩
    exact hdeduped.same hbeside (by rw [hmanager]; rfl)
  · rw [hmanager]
    exact hunlocked.congr (segments_unlock cfg _ _ (hsegments'.trans hsegments))
      (hinitSegments'.trans hinitSegments)

theorem Deduped.flush (h : Deduped cfg received this) :
    Deduped cfg received { this with world := { this.world with
      manager := this.world.manager.flush } } := by
  have hmarked : ∀ entry : IkeSaEntry, entry.Marked
      { entry with driveoutNewThreads := true, driveoutWaitingThreads := true } := fun entry =>
    ⟨rfl, rfl, rfl, rfl, rfl, rfl, rfl⟩
  refine ⟨h.distinct.map hmarked, fun item hitem => ?_, fun item hitem hash hhash => ?_, ?_,
    h.reserved⟩
  · obtain ⟨before, hbefore, rfl⟩ := List.mem_map.mp hitem
    exact h.lt before hbefore
  · obtain ⟨before, hbefore, rfl⟩ := List.mem_map.mp hitem
    exact (h.kept before hbefore hash hhash).congr rfl rfl rfl le_rfl
  · have hmade : ∀ entry : IkeSaEntry, IkeSaEntry.made
        { entry with driveoutNewThreads := true, driveoutWaitingThreads := true } =
          entry.made := fun _ => rfl
    have hsum := Rows.sumOf_map IkeSaEntry.made hmade this.world.manager.ikeSaTable
    have hknown := h.known
    rw [← hsum] at hknown
    exact hknown.congr rfl

theorem Deduped.flushed (h : Deduped cfg received this) (hunlocked : Unlocked this.world.manager) :
    Deduped cfg received { this with world := { this.world with
      manager := this.world.manager.destroyAllEntries cfg } } ∧
      Unlocked (this.world.manager.destroyAllEntries cfg) := by
  have hall : (Known cfg (reservedOf this.creating + destroyedOf this.destroying + Rows.sumOf
      IkeSaEntry.made (this.world.manager.destroyAllEntries cfg).ikeSaTable)
      (this.world.manager.destroyAllEntries cfg) ∧
      Unlocked (this.world.manager.destroyAllEntries cfg)) ∧
      (this.world.manager.destroyAllEntries cfg).ikeSaTable = [] := by
    refine destroyAllEntries_induction (P := fun manager : IkeSaManager =>
      Known cfg (reservedOf this.creating + destroyedOf this.destroying +
        Rows.sumOf IkeSaEntry.made manager.ikeSaTable) manager ∧ Unlocked manager) ?_ ⟨h.known, hunlocked⟩
    rintro manager item hitem ⟨hknown, hunlocked⟩
    have hforgets := forget_forgets cfg item.2 manager
    refine ⟨?_, hunlocked.congr hforgets.segments hforgets.initHashesSegments⟩
    rw [Rows.sumOf_perm _ (List.perm_cons_erase hitem), Rows.sumOf_cons, add_left_comm] at hknown
    change Known cfg (_ + Rows.sumOf _ ((manager.forget cfg item.2).ikeSaTable.erase item)) _
    rw [hforgets.ikeSaTable]
    exact (known_forget hknown).congr rfl
  obtain ⟨⟨hknown, hunlocked'⟩, hnil⟩ := hall
  refine ⟨⟨?_, ?_, ?_, hknown, h.reserved⟩, hunlocked'⟩
  · change Distinct cfg (this.world.manager.destroyAllEntries cfg).ikeSaTable
    rw [hnil]
    exact ⟨by simp [Rows.Placed], by simp [Rows.sumOf], by simp, by simp⟩
  · intro item hitem
    change item ∈ (this.world.manager.destroyAllEntries cfg).ikeSaTable at hitem
    rw [hnil] at hitem
    cases hitem
  · intro item hitem
    change item ∈ (this.world.manager.destroyAllEntries cfg).ikeSaTable at hitem
    rw [hnil] at hitem
    cases hitem

/-! ## Runs -/

/-- A message was received in a run. -/
def Received (events : List InitEvent) (message : Message) : Prop :=
  ∃ spi, InitEvent.receive message spi ∈ events

theorem Deduped.call (h : Deduped cfg received this) (hunlocked : Unlocked this.world.manager)
    {call : ManagerCall} (hsound : InitEvent.Sound cfg this (.call call))
    (hstep : this.step cfg (.call call) = some this') :
    Deduped cfg received this' ∧ Unlocked this'.world.manager := by
  have htouch : ∀ manager, Touched this.world.manager manager →
      Deduped cfg received { this with world := { this.world with manager } } ∧
        Unlocked manager := by
    intro manager htouched
    refine ⟨h.touched ⟨?_, fun _ _ _ => rfl, le_rfl⟩ htouched, hunlocked.touched htouched⟩
    cases htouched <;> rfl
  cases call with
  | change ikeSa change =>
    cases hstep
    exact ⟨h.change hsound, hunlocked⟩
  | checkout id =>
    obtain ⟨world, hworld, rfl⟩ := Option.map_eq_some_iff.mp hstep
    obtain ⟨result, hresult, rfl⟩ := Option.map_eq_some_iff.mp hworld
    exact htouch _ (checkout_touched hresult)
  | checkoutNew version initiator spi uniqueId =>
    cases hstep
    unfold ManagerWorld.checkoutNew
    dsimp only
    split_ifs
    · exact ⟨h, hunlocked⟩
    all_goals exact ⟨h.allocate _, hunlocked⟩
  | checkoutByMessage message spi uniqueId => cases hstep
  | checkoutById id =>
    obtain ⟨world, hworld, rfl⟩ := Option.map_eq_some_iff.mp hstep
    obtain ⟨result, hresult, rfl⟩ := Option.map_eq_some_iff.mp hworld
    exact htouch _ (checkoutById_touched hresult)
  | newInitiatorSpi ikeSa current spi =>
    cases hstep
    exact h.newInitiatorSpi hunlocked hsound
  | checkin ikeSa =>
    obtain ⟨world, hworld, rfl⟩ := Option.map_eq_some_iff.mp hstep
    obtain ⟨hlt, heq⟩ := Option.ite_none_right_eq_some.mp hworld
    cases heq
    exact h.checkin hunlocked hlt hsound
  | checkinContacted ikeSa =>
    obtain ⟨world, hworld, rfl⟩ := Option.map_eq_some_iff.mp hstep
    obtain ⟨-, heq⟩ := Option.ite_none_right_eq_some.mp hworld
    cases heq
    refine ⟨h.checkinLast fun other => ?_, ?_⟩
    · have hid : ((this.world.sas ikeSa).apply (.setInitContactSeen false)).id =
          (this.world.sas ikeSa).id := rfl
      exact ids_update this.world.sas hid other
    · obtain ⟨hsegments, hinitSegments⟩ := checkinLast_locks cfg this.world.manager
        ((this.world.sas ikeSa).apply (.setInitContactSeen false)) ikeSa
      exact hunlocked.congr hsegments hinitSegments
  | checkinAndDestroy ikeSa => cases hstep
  | flush =>
    cases hstep
    exact ⟨h.flush, hunlocked⟩
  | flushed =>
    obtain ⟨world, hworld, rfl⟩ := Option.map_eq_some_iff.mp hstep
    obtain ⟨-, heq⟩ := Option.ite_none_right_eq_some.mp hworld
    cases heq
    exact h.flushed hunlocked

/-- **Every sound step keeps the invariant.** -/
theorem Deduped.step (h : Deduped cfg received this) (hunlocked : Unlocked this.world.manager)
    {event : InitEvent} (hsound : event.Sound cfg this)
    (hreceived : ∀ message spi, event = .receive message spi → received message)
    (hstep : this.step cfg event = some this') :
    Deduped cfg received this' ∧ Unlocked this'.world.manager := by
  cases event with
  | receive message spi => exact h.receive hunlocked hsound (hreceived message spi rfl) hstep
  | create reservation uniqueId => exact h.create hunlocked hsound hstep
  | lookup message id => exact h.lookup hunlocked hstep
  | remove ikeSa => exact h.remove hunlocked hstep
  | forget entry => exact h.forget hunlocked hstep
  | call call => exact h.call hunlocked hsound hstep

theorem deduped_of_run {events : List InitEvent}
    (h : LTS.Run ((initSystem cfg).restrict (InitEvent.Sound cfg)) events this) :
    Deduped cfg (Received events) this ∧ Unlocked this.world.manager := by
  refine h.history (I := fun events this =>
    Deduped cfg (Received events) this ∧ Unlocked this.world.manager) ?_ ?_
  · rintro this ⟨hmanager, hcreating, -, hdestroying⟩
    refine ⟨⟨?_, ?_, ?_, ?_, ?_⟩, ?_⟩
    · rw [hmanager]
      exact ⟨by simp [ikeSaManagerCreate, Rows.Placed], by simp [ikeSaManagerCreate, Rows.sumOf],
        by simp [ikeSaManagerCreate], by simp [ikeSaManagerCreate]⟩
    · simp [hmanager, ikeSaManagerCreate]
    · simp [hmanager, ikeSaManagerCreate]
    · rw [hmanager, hcreating, hdestroying]
      exact ⟨by simp [ikeSaManagerCreate, Rows.Placed], rfl, Multiset.nodup_zero⟩
    · simp [hcreating]
    · rw [hmanager]
      exact ⟨rfl, rfl⟩
  · rintro events this event this' ⟨h, hunlocked⟩ ⟨hsound, hstep⟩
    have hmono : Deduped cfg (Received (events ++ [event])) this :=
      h.mono fun message ⟨spi, hmem⟩ => ⟨spi, List.mem_append_left _ hmem⟩
    refine hmono.step hunlocked hsound (fun message spi heq => ⟨spi, ?_⟩) hstep
    simp [heq]

/-! ## What holds of initial messages -/

structure Copy (cfg : ManagerConfig) (message copy : Message) : Prop where
  localId : copy.localId = message.localId
  version : copy.initVersion.isSome = true
  hash : getInitHash cfg copy = getInitHash cfg message

/-- **Initial messages are deduplicated.** -/
structure Deduplicated (cfg : ManagerConfig) (events : List InitEvent) (this : InitWorld) :
    Prop where
  /-- at most one IKE_SA that lives or is being created for each hash -/
  unique : (this.creating.map (some ·.hash) ++
    (this.world.manager.ikeSaTable.map (·.2.initHash)).filter Option.isSome).Nodup
  /-- a hash is stored as long as it belongs to a reservation or an IKE_SA -/
  stored : ∀ hash, (∃ item ∈ this.world.manager.initHashesTable, item.2.hash = hash) ↔
    (∃ reservation ∈ this.creating, reservation.hash = hash) ∨
    (∃ entry ∈ this.destroying, entry.initHash = some hash) ∨
    ∃ item ∈ this.world.manager.ikeSaTable, item.2.initHash = some hash
  /-- a copy gets the IKE_SA that lives, or nothing, and nothing is created -/
  resolves : ∀ item ∈ this.world.manager.ikeSaTable, item.2.initHash.isSome = true →
    ∃ message, Received events message ∧ getInitHash cfg message = item.2.initHash ∧
      ∀ copy, Copy cfg message copy →
        (∀ spi uniqueId, this.world.checkoutByMessage cfg copy spi uniqueId =
          this.world.lookupByMessage cfg copy item.2.ikeSaId) ∧
        ∀ result, this.world.lookupByMessage cfg copy item.2.ikeSaId = some result →
          (result = (none, this.world) ∨ result.1 = some item.2.ikeSa) ∧
          result.2.next = this.world.next ∧
          result.2.manager.initHashesTable = this.world.manager.initHashesTable ∧
          result.2.manager.ikeSaTable.length = this.world.manager.ikeSaTable.length
  /-- a message whose hash is not stored gets a new IKE_SA -/
  creates : ∀ message hash spi uniqueId, message.initVersion.isSome = true →
    getInitHash cfg message = some hash →
    (∀ item ∈ this.world.manager.initHashesTable, item.2.hash ≠ hash) → spi ≠ 0 →
    (cfg.ikesaLimit = 0 ∨ this.world.manager.totalSaCount < cfg.ikesaLimit) →
    (this.world.checkoutByMessage cfg message spi (some uniqueId)).map Prod.fst =
      some (some this.world.next)
  /-- a call that fails changes nothing -/
  fails : ∀ message spi uniqueId world, InitEvent.Sound cfg this (.receive message spi) →
    this.world.checkoutByMessage cfg message spi uniqueId = some (none, world) → world = this.world
  /-- a thread that fails to create its IKE_SA gives the hash back, and changes nothing else -/
  aborts : ∀ reservation ∈ this.creating, ∀ uniqueId world, this.world.createByMessage cfg
      reservation.message reservation.version reservation.hash reservation.ourSpi uniqueId =
        (none, world) →
    this.world.manager.initHashesTable.Perm ((cfg.initRow reservation.hash,
      ⟨reservation.hash, reservation.ourSpi⟩) :: world.manager.initHashesTable) ∧
    world = { this.world with manager := { this.world.manager with
      initHashesTable := world.manager.initHashesTable } }
  unlocked : Unlocked this.world.manager

theorem mem_reservedOf {creating : List Reservation} :
    hash ∈ (reservedOf creating).map InitHash.hash ↔
      ∃ reservation ∈ creating, reservation.hash = hash := by
  simp [reservedOf]

theorem mem_destroyedOf {destroying : List IkeSaEntry} :
    hash ∈ (destroyedOf destroying).map InitHash.hash ↔
      ∃ entry ∈ destroying, entry.initHash = some hash := by
  induction destroying with
  | nil => simp [destroyedOf]
  | cons entry destroying ih =>
    have hcons : destroyedOf (entry :: destroying) = entry.made + destroyedOf destroying :=
      List.sum_cons
    rw [hcons, Multiset.map_add, Multiset.mem_add, ih, IkeSaEntry.map_made, IkeSaEntry.mem_hashes]
    simp

theorem Deduped.stored (h : Deduped cfg received this) (hash : Chunk) :
    (∃ item ∈ this.world.manager.initHashesTable, item.2.hash = hash) ↔
      (∃ reservation ∈ this.creating, reservation.hash = hash) ∨
      (∃ entry ∈ this.destroying, entry.initHash = some hash) ∨
      ∃ item ∈ this.world.manager.ikeSaTable, item.2.initHash = some hash := by
  have hmem : (∃ item ∈ this.world.manager.initHashesTable, item.2.hash = hash) ↔
      hash ∈ (reservedOf this.creating + destroyedOf this.destroying + Rows.sumOf
        IkeSaEntry.made this.world.manager.ikeSaTable).map InitHash.hash := by
    rw [Multiset.mem_map, ← h.known.stored]
    constructor
    · rintro ⟨item, hitem, heq⟩
      exact ⟨item.2, mem_records.mpr ⟨item.1, hitem⟩, heq⟩
    · rintro ⟨init, hinit, heq⟩
      obtain ⟨row, hrow⟩ := mem_records.mp hinit
      exact ⟨_, hrow, heq⟩
  rw [hmem, Multiset.map_add, Multiset.map_add, Multiset.mem_add, Multiset.mem_add, mem_reservedOf,
    mem_destroyedOf, map_sumOf_made, mem_sumOf_hashes, or_assoc]

theorem Deduped.copy (h : Deduped cfg received this)
    (hitem : item ∈ this.world.manager.ikeSaTable)
    (hhash : item.2.initHash = some hash) (spi : U64) :
    this.world.manager.checkAndPutInitHash cfg hash spi =
      (.alreadyDone, item.2.ikeSaId.responderSpi, this.world.manager) := by
  let init : InitHash := ⟨hash, item.2.ikeSaId.responderSpi⟩
  have hcopy : init ∈ _ → _ = (_, init.ourSpi, _) := fun hmem => h.known.copy hmem spi
  refine hcopy ?_
  have hmade : init ∈ item.2.made := by
    unfold IkeSaEntry.made
    rw [hhash]
    exact Multiset.mem_singleton_self _
  rw [Rows.sumOf_perm _ (List.perm_cons_erase hitem), Rows.sumOf_cons]
  exact Multiset.mem_add.mpr (.inr (Multiset.mem_add.mpr (.inl hmade)))

/-- **A copy is looked for by the ID of the IKE_SA that lives**, which is found. -/
theorem Deduped.resolves (h : Deduped cfg received this)
    (hitem : item ∈ this.world.manager.ikeSaTable) (hsome : item.2.initHash.isSome = true) :
    ∃ message, received message ∧ getInitHash cfg message = item.2.initHash ∧
      ∀ copy, Copy cfg message copy →
        (∀ spi uniqueId, this.world.checkoutByMessage cfg copy spi uniqueId =
          this.world.lookupByMessage cfg copy item.2.ikeSaId) ∧
        ∀ result, this.world.lookupByMessage cfg copy item.2.ikeSaId = some result →
          (result = (none, this.world) ∨ result.1 = some item.2.ikeSa) ∧
          result.2.next = this.world.next ∧
          result.2.manager.initHashesTable = this.world.manager.initHashesTable ∧
          result.2.manager.ikeSaTable.length = this.world.manager.ikeSaTable.length := by
  obtain ⟨hash, hhash⟩ := Option.isSome_iff_exists.mp hsome
  obtain ⟨-, -, -, -, message, hmessage, hmhash, -, hid⟩ := h.kept item hitem hash hhash
  refine ⟨message, hmessage, hmhash.trans hhash.symm, fun copy hcopy => ⟨fun spi uniqueId => ?_,
    fun result hresult => ?_⟩⟩
  · obtain ⟨version, hversion⟩ := Option.isSome_iff_exists.mp hcopy.version
    unfold checkoutByMessage
    rw [hversion, hcopy.hash, hmhash]
    dsimp only
    rw [h.copy hitem hhash spi, hcopy.localId]
    exact congrArg (this.world.lookupByMessage cfg copy ·) hid.symm
  · obtain rfl | ⟨entry, entry', hfind, -, hfound, hmanager, hnext, -⟩ :=
      lookupByMessage_cases hresult
    · exact ⟨.inl rfl, rfl, rfl, rfl⟩
    · obtain rfl : entry = item.2 :=
        Option.some.inj (hfind.symm.trans (h.distinct.first item hitem hsome))
      refine ⟨.inr hfound, hnext, by rw [hmanager]; rfl, ?_⟩
      rw [hmanager]
      change (Rows.modify _ _ _ this.world.manager.ikeSaTable).length = _
      rw [(Rows.perm_modify hfind _).length_eq, (Rows.perm_remove hfind).length_eq]
      rfl

theorem removeInitHash_put :
    removeInitHash cfg hash { manager with
      initHashesTable := Rows.put (cfg.initRow hash) ⟨hash, spi⟩ manager.initHashesTable } =
      manager := by
  have hremove : Rows.remove (cfg.initRow hash) (·.hash = hash)
      (Rows.put (cfg.initRow hash) ⟨hash, spi⟩ manager.initHashesTable) =
      manager.initHashesTable := by
    have hhit : Rows.hit (cfg.initRow hash) (·.hash = hash)
        (cfg.initRow hash, (⟨hash, spi⟩ : InitHash)) = true := by simp [Rows.hit]
    exact List.eraseP_cons_of_pos hhit
  unfold removeInitHash
  simp [lockInitHashes, unlockInitHashes, hremove]

/-- **A call that fails changes nothing.** -/
theorem Deduped.fails (h : Deduped cfg received this)
    {world : ManagerWorld}
    (hsound : InitEvent.Sound cfg this (.receive message spi))
    (hfails : this.world.checkoutByMessage cfg message spi uniqueId = some (none, world)) :
    world = this.world := by
  have hlookup : ∀ id, this.world.lookupByMessage cfg message id = some (none, world) →
      world = this.world := by
    intro id hresult
    obtain heq | ⟨entry, entry', -, -, hfound, -⟩ := lookupByMessage_cases hresult
    · exact congrArg Prod.snd heq
    · cases hfound
  unfold checkoutByMessage at hfails
  split at hfails
  · exact hlookup _ hfails
  · rename_i version hversion
    split at hfails
    · cases hfails
      rfl
    · rename_i hash hhash
      cases hfind : Rows.find (cfg.initRow hash) (·.hash = hash)
          this.world.manager.initHashesTable with
      | some init =>
        obtain rfl : init.hash = hash := by simpa using Rows.pred_of_find hfind
        have hmem := h.known.stored ▸ mem_records.mpr ⟨_, Rows.mem_of_find hfind⟩
        rw [h.known.copy hmem spi] at hfails
        exact hlookup _ hfails
      | none =>
        have hspi := hsound hash (by rw [hversion]; rfl) hhash hfind
        obtain ⟨heq, -⟩ := h.known.reserve (h.known.find_none.mp hfind) hspi
        rw [heq] at hfails
        dsimp only at hfails
        obtain ⟨-, sa, -, -, hcreated⟩ | ⟨-, hremoved⟩ := createByMessage_cases cfg
          { this.world with manager := { this.world.manager with
            initHashesTable := Rows.put (cfg.initRow hash) ⟨hash, spi⟩
              this.world.manager.initHashesTable } }
          message version hash spi uniqueId
        · rw [hcreated] at hfails
          cases hfails
        · rw [hremoved, removeInitHash_put] at hfails
          cases hfails
          rfl

/-- **A message whose hash is not stored gets a new IKE_SA**, if none of the limits is reached. -/
theorem Deduped.creates (h : Deduped cfg received this)
    (uniqueId : U32) (hversion : message.initVersion.isSome = true)
    (hhash : getInitHash cfg message = some hash)
    (hmiss : ∀ item ∈ this.world.manager.initHashesTable, item.2.hash ≠ hash) (hspi : spi ≠ 0)
    (hlimit : cfg.ikesaLimit = 0 ∨ this.world.manager.totalSaCount < cfg.ikesaLimit) :
    (this.world.checkoutByMessage cfg message spi (some uniqueId)).map Prod.fst =
      some (some this.world.next) := by
  obtain ⟨version, hversion⟩ := Option.isSome_iff_exists.mp hversion
  have hmiss' : ∀ init ∈ reservedOf this.creating + destroyedOf this.destroying + Rows.sumOf
      IkeSaEntry.made this.world.manager.ikeSaTable, init.hash ≠ hash := by
    intro init hinit
    obtain ⟨row, hrow⟩ := mem_records.mp (h.known.stored.symm ▸ hinit)
    exact hmiss _ hrow
  obtain ⟨heq, -⟩ := h.known.reserve hmiss' hspi
  unfold checkoutByMessage
  rw [hversion, hhash]
  dsimp only
  rw [heq]
  dsimp only
  obtain ⟨-, sa, -, -, hcreated⟩ | ⟨hnot, -⟩ := createByMessage_cases cfg
    { this.world with manager := { this.world.manager with
      initHashesTable := Rows.put (cfg.initRow hash) ⟨hash, spi⟩
        this.world.manager.initHashesTable } }
    message version hash spi (some uniqueId)
  · rw [hcreated]
    rfl
  · obtain hnot | hnot := hnot
    · exact absurd hlimit hnot
    · cases hnot

/-- **A thread that fails gives its hash back**, and changes nothing else. -/
theorem Deduped.aborts (h : Deduped cfg received this)
    (hmem : reservation ∈ this.creating) {world : ManagerWorld}
    (hfails : this.world.createByMessage cfg reservation.message reservation.version
      reservation.hash reservation.ourSpi uniqueId = (none, world)) :
    this.world.manager.initHashesTable.Perm ((cfg.initRow reservation.hash,
      ⟨reservation.hash, reservation.ourSpi⟩) :: world.manager.initHashesTable) ∧
    world = { this.world with manager := { this.world.manager with
      initHashesTable := world.manager.initHashesTable } } := by
  obtain ⟨-, sa, -, -, hcreated⟩ | ⟨-, hremoved⟩ := createByMessage_cases cfg this.world
    reservation.message reservation.version reservation.hash reservation.ourSpi uniqueId
  · rw [hcreated] at hfails
    cases hfails
  · rw [hremoved] at hfails
    cases hfails
    have hknown := h.known
    rw [reservedOf_erase hmem, Multiset.cons_add, Multiset.cons_add] at hknown
    have hfind := hknown.find_eq (Multiset.mem_cons_self
      (⟨reservation.hash, reservation.ourSpi⟩ : InitHash) _)
    have htable : (this.world.manager.removeInitHash cfg reservation.hash).initHashesTable =
        Rows.remove (cfg.initRow reservation.hash) (·.hash = reservation.hash)
          this.world.manager.initHashesTable := rfl
    constructor
    · rw [htable]
      exact Rows.perm_remove hfind
    · simp [removeInitHash, lockInitHashes, unlockInitHashes]

theorem Deduped.unique (h : Deduped cfg received this) :
    (this.creating.map (some ·.hash) ++
      (this.world.manager.ikeSaTable.map (·.2.initHash)).filter Option.isSome).Nodup := by
  have hnodup := h.known.nodup
  rw [Multiset.map_add, Multiset.map_add, map_sumOf_made, add_right_comm] at hnodup
  have htable : (Rows.sumOf IkeSaEntry.hashes this.world.manager.ikeSaTable).map some =
      ((this.world.manager.ikeSaTable.map (·.2.initHash)).filter Option.isSome :
        List (Option Chunk)) := by
    induction this.world.manager.ikeSaTable with
    | nil => rfl
    | cons item table ih =>
      rw [Rows.sumOf_cons, Multiset.map_add, ih, List.map_cons, List.filter_cons]
      unfold IkeSaEntry.hashes
      cases item.2.initHash <;> simp
  have hboth := (Multiset.nodup_add.mp hnodup).1.map (Option.some_injective Chunk)
  rw [Multiset.map_add, htable] at hboth
  rw [← Multiset.coe_nodup, ← Multiset.coe_add]
  convert hboth using 2
  simp only [reservedOf, Multiset.map_coe, List.map_map]
  rfl

/-- **Initial messages are deduplicated** in every run whose steps are sound. -/
theorem initHash_deduplicated {events : List InitEvent}
    (h : LTS.Run ((initSystem cfg).restrict (InitEvent.Sound cfg)) events this) :
    Deduplicated cfg events this := by
  obtain ⟨hdeduped, hunlocked⟩ := deduped_of_run h
  exact ⟨hdeduped.unique, hdeduped.stored, fun item hitem hsome => hdeduped.resolves hitem hsome,
    fun message hash spi uniqueId hversion hhash hmiss hspi hlimit =>
      hdeduped.creates uniqueId hversion hhash hmiss hspi hlimit,
    fun message spi uniqueId world hsound hfails => hdeduped.fails hsound hfails,
    fun reservation hmem uniqueId world hfails => hdeduped.aborts hmem hfails, hunlocked⟩

/-- A manager with all in one row that takes messages for their hashes. -/
def oneRow : ManagerConfig where
  tableMask := 0
  segmentMask := 0
  key := []
  sha1 := some
  ikesaLimit := 0

/-- A new manager, and no threads. -/
def created : InitWorld where
  world := {
    manager := ikeSaManagerCreate
    sas := fun _ => ikeSaCreate ⟨ikev2MajorVersion, 0, 0, true⟩ .ikev2 0
    next := 0
    contacting := [] }
  creating := []
  copying := []
  destroying := []

def initRequest : Message :=
  { messageCreateFromPacket ⟨none, none, [1]⟩ with
    majorVersion := ikev2MajorVersion
    exchangeType := .ikeSaInit
    ikeSaId := some ⟨ikev2MajorVersion, 5, 0, true⟩ }

/-- The request is received, and its IKE_SA is created. -/
def initiated : List InitEvent :=
  [.receive initRequest 7, .create ⟨initRequest, .ikev2, [1], 7⟩ (some 1)]

/-- The IKE_SA of a request is in the table, and copies get no other one. -/
theorem initHash_deduplicated_initiated : ∃ this,
    LTS.Run ((initSystem oneRow).restrict (InitEvent.Sound oneRow)) initiated this ∧
      Deduplicated oneRow initiated this ∧ this.world.manager.ikeSaTable.length = 1 := by
  let received := (created.step oneRow (.receive initRequest 7)).get rfl
  have hreceived : created.step oneRow (.receive initRequest 7) = some received := rfl
  have hcreated : received.step oneRow (.create ⟨initRequest, .ikev2, [1], 7⟩ (some 1)) =
      some ((received.step oneRow (.create ⟨initRequest, .ikev2, [1], 7⟩ (some 1))).get rfl) :=
    rfl
  have hrun : LTS.Run ((initSystem oneRow).restrict (InitEvent.Sound oneRow)) initiated
      ((received.step oneRow (.create ⟨initRequest, .ikev2, [1], 7⟩ (some 1))).get rfl) := by
    have hfirst : LTS.Steps ((initSystem oneRow).restrict (InitEvent.Sound oneRow)) created
        [.receive initRequest 7] received :=
      LTS.steps_singleton.mpr ⟨fun hash _ _ _ => by decide, hreceived⟩
    exact ⟨created, ⟨rfl, rfl, rfl, rfl⟩,
      hfirst.snoc ⟨fun item hitem => (by cases hitem), hcreated⟩⟩
  exact ⟨_, hrun, initHash_deduplicated hrun, rfl⟩

/-- **A mutex stays locked** by a call that fails because `get_spi` does. -/
theorem not_initHash_deduplicated :
    (∃ world, created.world.checkoutByMessage oneRow initRequest 0 none = some (none, world) ∧
      ¬ Unlocked world.manager) ∧
    ∃ this, LTS.Run (initSystem oneRow) [.receive initRequest 0] this ∧
      ¬ Deduplicated oneRow [.receive initRequest 0] this := by
  have hlocked : ∀ manager : IkeSaManager, manager.initHashesSegments =
      Function.update (fun _ => 0) (oneRow.segment (oneRow.initRow [1])) (0 + 1) →
      ¬ Unlocked manager := by
    rintro manager hsegments ⟨-, hinit⟩
    have hone := congrFun (hsegments.symm.trans hinit) (oneRow.segment (oneRow.initRow [1]))
    rw [Function.update_self] at hone
    cases hone
  have hstep : created.step oneRow (.receive initRequest 0) =
      some ((created.step oneRow (.receive initRequest 0)).get rfl) := rfl
  refine ⟨⟨_, rfl, hlocked _ rfl⟩, _, ⟨created, ⟨rfl, rfl, rfl, rfl⟩,
    LTS.steps_singleton.mpr hstep⟩, fun h => hlocked _ rfl h.unlocked⟩

end InitWorld

end StrongSwan
