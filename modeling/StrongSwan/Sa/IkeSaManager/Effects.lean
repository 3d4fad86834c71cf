import StrongSwan.Sa.IkeSaManager.Calls

/-!
# What calls do to the tables

One lemma for each call, about the table of IKE_SAs and what else it changes. Locks are released.

* `unlock_lock`; `IkeSaEntry.Marked`, `Touched`: an entry is marked, nothing else.
* `checkout_touched`, `checkoutById_touched`, `lookupByMessage_cases`.
* `checkinAndRemove_cases`, `newInitiatorSpi_cases`.
* `checkinFirst_cases`, `checkinLast_cases`.
-/

namespace StrongSwan

/-- Only what is marked at an entry differs. -/
structure IkeSaEntry.Marked (entry entry' : IkeSaEntry) : Prop where
  ikeSaId : entry'.ikeSaId = entry.ikeSaId
  ikeSa : entry'.ikeSa = entry.ikeSa
  initHash : entry'.initHash = entry.initHash
  other : entry'.other = entry.other
  halfOpen : entry'.halfOpen = entry.halfOpen
  myId : entry'.myId = entry.myId
  otherId : entry'.otherId = entry.otherId

theorem IkeSaEntry.matchById_congr {entry entry' : IkeSaEntry} (h : entry'.ikeSaId = entry.ikeSaId)
    (id : IkeSaId) : entry'.matchById id = entry.matchById id := by
  unfold IkeSaEntry.matchById
  rw [h]

@[simp] theorem IkeSaEntry.matchById_self (this : IkeSaEntry) : this.matchById this.ikeSaId = true := by
  simp [matchById, IkeSaId.equals]

namespace IkeSaManager

variable (cfg : ManagerConfig) (this : IkeSaManager)

@[simp] theorem unlock_lock (row : ℕ) :
    (this.lockSingleSegment cfg row).unlockSingleSegment cfg row = this := by
  simp [lockSingleSegment, unlockSingleSegment]

@[simp] theorem unlock_lockInitHashes (segment : ℕ) :
    (this.lockInitHashes segment).unlockInitHashes segment = this := by
  simp [lockInitHashes, unlockInitHashes]

/-- An entry is marked. -/
inductive Touched (this : IkeSaManager) : IkeSaManager → Prop
  | same : Touched this this
  | entry {row : ℕ} {pred : IkeSaEntry → Bool} {entry entry' : IkeSaEntry}
      (hfind : Rows.find row pred this.ikeSaTable = some entry) (hmarked : entry.Marked entry') :
      Touched this (this.updateEntry row pred entry')

theorem segments_unlock {this' : IkeSaManager} (row : ℕ)
    (h : this'.segments = (this.lockSingleSegment cfg row).segments) :
    (this'.unlockSingleSegment cfg row).segments = this.segments := by
  simp [unlockSingleSegment, h, lockSingleSegment]

theorem unlock_updateEntry_lock (row row' : ℕ) (pred : IkeSaEntry → Bool) (entry : IkeSaEntry) :
    ((this.lockSingleSegment cfg row).updateEntry row' pred entry).unlockSingleSegment cfg row =
      this.updateEntry row' pred entry := by
  simp [lockSingleSegment, unlockSingleSegment, updateEntry]

/-- Looking for an entry does nothing but locking. -/
theorem getEntryByMatch_eq (id : IkeSaId) (pred : IkeSaEntry → Bool) :
    this.getEntryByMatch cfg id pred =
      match Rows.find (cfg.idRow id) pred this.ikeSaTable with
      | some entry => (some entry, this.lockSingleSegment cfg (cfg.idRow id))
      | none => (none, this) := by
  have htable : (this.lockSingleSegment cfg (cfg.idRow id)).ikeSaTable = this.ikeSaTable := rfl
  unfold getEntryByMatch
  dsimp only
  rw [htable]
  cases Rows.find (cfg.idRow id) pred this.ikeSaTable with
  | some entry => rfl
  | none => simp

variable {cfg this}

theorem checkout_touched {id : IkeSaId} {result : Option ℕ × IkeSaManager}
    (h : this.checkout cfg id = some result) : Touched this result.2 := by
  unfold checkout getEntryById at h
  rw [getEntryByMatch_eq] at h
  cases hfind : Rows.find (cfg.idRow id) (IkeSaEntry.matchById · id) this.ikeSaTable with
  | none =>
    rw [hfind] at h
    cases h
    exact .same
  | some entry =>
    rw [hfind] at h
    dsimp only at h
    split at h
    · cases h
    · cases h
      rw [unlock_lock]
      exact .same
    · cases h
      rw [unlock_updateEntry_lock]
      exact .entry hfind ⟨rfl, rfl, rfl, rfl, rfl, rfl, rfl⟩

theorem mem_of_checkoutItem {sas : ℕ → IkeSa} {id : U32} {items : List (ℕ × IkeSaEntry)}
    {item : ℕ × IkeSaEntry} (h : checkoutItem sas id items = some (some item)) : item ∈ items := by
  induction items with
  | nil => cases h
  | cons head items ih =>
    unfold checkoutItem at h
    split at h
    · cases h
    · exact List.mem_cons_of_mem _ (ih h)
    · split_ifs at h
      · cases h
        exact List.mem_cons_self
      · exact List.mem_cons_of_mem _ (ih h)

theorem checkoutById_touched {sas : ℕ → IkeSa} {id : U32} {result : Option ℕ × IkeSaManager}
    (h : this.checkoutById cfg sas id = some result) : Touched this result.2 := by
  obtain ⟨found, hfound, rfl⟩ := Option.map_eq_some_iff.mp h
  cases found with
  | none => exact .same
  | some item =>
    obtain ⟨row, entry⟩ := item
    have hmem : (row, entry) ∈ this.ikeSaTable :=
      (List.mergeSort_perm _ _).mem_iff.mp (mem_of_checkoutItem hfound)
    obtain ⟨entry', hfind⟩ :=
      Option.isSome_iff_exists.mp (Rows.isSome_find (p := (· = entry)) hmem (by simp))
    obtain rfl : entry' = entry := by simpa using Rows.pred_of_find hfind
    exact .entry hfind ⟨rfl, rfl, rfl, rfl, rfl, rfl, rfl⟩

theorem ikeSa_of_find {row ikeSa : ℕ} {table : List (ℕ × IkeSaEntry)} {entry : IkeSaEntry}
    (h : Rows.find row (·.ikeSa = ikeSa) table = some entry) : entry.ikeSa = ikeSa := by
  simpa using Rows.pred_of_find h

theorem removeEntry_updateEntry {row ikeSa : ℕ} {entry entry' : IkeSaEntry}
    (hfind : Rows.find row (·.ikeSa = ikeSa) this.ikeSaTable = some entry)
    (hmarked : entry.Marked entry') (hrow : row = cfg.idRow entry.ikeSaId) :
    (((this.lockSingleSegment cfg row).updateEntry row (·.ikeSa = ikeSa) entry').removeEntry cfg
      entry').unlockSingleSegment cfg row =
      { this with
        ikeSaTable := Rows.remove row (·.ikeSa = ikeSa) this.ikeSaTable
        totalSaCount := this.totalSaCount - 1 } := by
  have hrow' : cfg.idRow entry'.ikeSaId = row := by rw [hmarked.ikeSaId, hrow]
  have hikeSa : entry'.ikeSa = ikeSa := hmarked.ikeSa.trans (ikeSa_of_find hfind)
  obtain ⟨hfound, hremove⟩ := Rows.find_modify_eq (y := entry') hfind (by simpa using hikeSa)
  unfold removeEntry updateEntry lockSingleSegment
  rw [hrow']
  dsimp only
  rw [hfound, hremove]
  simp [unlockSingleSegment]

theorem checkinAndRemove_cases
    (hplaced : Rows.Placed (fun entry => cfg.idRow entry.ikeSaId) this.ikeSaTable) (id : IkeSaId)
    (ikeSa : ℕ) :
    ((this.checkinAndRemove cfg id ikeSa).1 = none ∧
      Touched this (this.checkinAndRemove cfg id ikeSa).2) ∨
    ∃ entry entry', Rows.find (cfg.idRow id) (·.ikeSa = ikeSa) this.ikeSaTable = some entry ∧
      entry.Marked entry' ∧
      this.checkinAndRemove cfg id ikeSa = (some entry', { this with
        ikeSaTable := Rows.remove (cfg.idRow id) (·.ikeSa = ikeSa) this.ikeSaTable
        totalSaCount := this.totalSaCount - 1 }) := by
  unfold checkinAndRemove getEntryBySa
  rw [getEntryByMatch_eq]
  cases hfind : Rows.find (cfg.idRow id) (·.ikeSa = ikeSa) this.ikeSaTable with
  | none => exact .inl ⟨rfl, .same⟩
  | some entry =>
    dsimp only
    split_ifs
    · rw [unlock_updateEntry_lock]
      exact .inl ⟨rfl, .entry hfind ⟨rfl, rfl, rfl, rfl, rfl, rfl, rfl⟩⟩
    · have hmarked : entry.Marked
          { entry with driveoutWaitingThreads := true, driveoutNewThreads := true } :=
        ⟨rfl, rfl, rfl, rfl, rfl, rfl, rfl⟩
      refine .inr ⟨entry, _, rfl, hmarked, ?_⟩
      rw [removeEntry_updateEntry hfind hmarked (hplaced _ (Rows.mem_of_find hfind))]

/-- Only the half-open IKE_SAs differ. -/
structure SameBeside (this this' : IkeSaManager) : Prop where
  ikeSaTable : this'.ikeSaTable = this.ikeSaTable
  segments : this'.segments = this.segments
  totalSaCount : this'.totalSaCount = this.totalSaCount
  connectedPeersTable : this'.connectedPeersTable = this.connectedPeersTable
  initHashesTable : this'.initHashesTable = this.initHashesTable
  initHashesSegments : this'.initHashesSegments = this.initHashesSegments

theorem sameBeside_putHalfOpen (entry : IkeSaEntry) : SameBeside this (this.putHalfOpen cfg entry) :=
  ⟨rfl, rfl, rfl, rfl, rfl, rfl⟩

theorem sameBeside_removeHalfOpen (entry : IkeSaEntry) :
    SameBeside this (this.removeHalfOpen cfg entry) := by
  unfold removeHalfOpen
  dsimp only
  split <;> exact ⟨rfl, rfl, rfl, rfl, rfl, rfl⟩

theorem SameBeside.trans {this' this'' : IkeSaManager} (h : SameBeside this this')
    (h' : SameBeside this' this'') : SameBeside this this'' :=
  ⟨h'.ikeSaTable.trans h.ikeSaTable, h'.segments.trans h.segments,
    h'.totalSaCount.trans h.totalSaCount, h'.connectedPeersTable.trans h.connectedPeersTable,
    h'.initHashesTable.trans h.initHashesTable, h'.initHashesSegments.trans h.initHashesSegments⟩

/-- An entry that is checked in: its ID is that of the IKE_SA, and the address may be another one if
it is half open. -/
structure CheckedIn (sa : IkeSa) (entry entry' : IkeSaEntry) : Prop where
  ikeSaId : entry'.ikeSaId = sa.id
  ikeSa : entry'.ikeSa = entry.ikeSa
  initHash : entry'.initHash = entry.initHash
  myId : entry'.myId = entry.myId
  otherId : entry'.otherId = entry.otherId
  other : entry'.other = entry.other ∨ sa.state = .connecting ∧ entry'.other = some sa.otherHost

theorem checkinEntry_cases (cfg : ManagerConfig) (this : IkeSaManager) (sa : IkeSa) (entry : IkeSaEntry) :
    CheckedIn sa entry (this.checkinEntry cfg sa entry).1 ∧
      SameBeside this (this.checkinEntry cfg sa entry).2 := by
  unfold checkinEntry
  dsimp only
  split_ifs with hleft hmoved hnew
  · exact ⟨⟨rfl, rfl, rfl, rfl, rfl, .inl rfl⟩, sameBeside_removeHalfOpen _⟩
  · have hstate : sa.state = .connecting := by
      by_contra hstate
      exact hleft ⟨hmoved.1, hstate⟩
    exact ⟨⟨rfl, rfl, rfl, rfl, rfl, .inr ⟨hstate, rfl⟩⟩,
      (sameBeside_removeHalfOpen _).trans (sameBeside_putHalfOpen _)⟩
  · exact ⟨⟨rfl, rfl, rfl, rfl, rfl, .inr ⟨hnew.2, rfl⟩⟩, sameBeside_putHalfOpen _⟩
  · exact ⟨⟨rfl, rfl, rfl, rfl, rfl, .inl rfl⟩, ⟨rfl, rfl, rfl, rfl, rfl, rfl⟩⟩

theorem checkinNew_cases (cfg : ManagerConfig) (this : IkeSaManager) (sa : IkeSa) (ikeSa : ℕ) :
    CheckedIn sa (ikeSaEntryCreate sa.id ikeSa) (this.checkinNew cfg sa ikeSa).1 ∧
      SameBeside this (this.checkinNew cfg sa ikeSa).2 := by
  unfold checkinNew
  dsimp only
  split_ifs with hstate
  · exact ⟨⟨rfl, rfl, rfl, rfl, rfl, .inr ⟨hstate, rfl⟩⟩, sameBeside_putHalfOpen _⟩
  · exact ⟨⟨rfl, rfl, rfl, rfl, rfl, .inl rfl⟩, ⟨rfl, rfl, rfl, rfl, rfl, rfl⟩⟩

/-- **The first part of checking in**: the entry in the row of the ID is written, or one is put there;
the segment is locked. -/
theorem checkinFirst_cases (cfg : ManagerConfig) (this : IkeSaManager) (sa : IkeSa) (ikeSa : ℕ) :
    ∃ entry entry', CheckedIn sa entry entry' ∧ entry'.ikeSa = ikeSa ∧
      (this.checkinFirst cfg sa ikeSa).1 = appliesIdentities sa entry' ∧
      SameBeside { this.lockSingleSegment cfg (cfg.idRow sa.id) with
        ikeSaTable := (this.checkinFirst cfg sa ikeSa).2.ikeSaTable
        totalSaCount := (this.checkinFirst cfg sa ikeSa).2.totalSaCount }
        (this.checkinFirst cfg sa ikeSa).2 ∧
      (Rows.find (cfg.idRow sa.id) (·.ikeSa = ikeSa) this.ikeSaTable = some entry ∧
          (this.checkinFirst cfg sa ikeSa).2.ikeSaTable =
            Rows.modify (cfg.idRow sa.id) (·.ikeSa = ikeSa) (fun _ => entry') this.ikeSaTable ∨
        Rows.find (cfg.idRow sa.id) (·.ikeSa = ikeSa) this.ikeSaTable = none ∧
          entry = ikeSaEntryCreate sa.id ikeSa ∧
          (this.checkinFirst cfg sa ikeSa).2.ikeSaTable =
            Rows.put (cfg.idRow sa.id) entry' this.ikeSaTable) := by
  unfold checkinFirst getEntryBySa
  rw [getEntryByMatch_eq]
  cases hfind : Rows.find (cfg.idRow sa.id) (·.ikeSa = ikeSa) this.ikeSaTable with
  | some entry =>
    obtain ⟨hchecked, hsame⟩ := checkinEntry_cases cfg
      (this.lockSingleSegment cfg (cfg.idRow sa.id)) sa entry
    dsimp only
    generalize (this.lockSingleSegment cfg (cfg.idRow sa.id)).checkinEntry cfg sa entry = written
      at hchecked hsame ⊢
    obtain ⟨entry', this'⟩ := written
    refine ⟨entry, entry', hchecked, hchecked.ikeSa.trans (ikeSa_of_find hfind), rfl,
      ⟨rfl, hsame.segments, rfl, hsame.connectedPeersTable, hsame.initHashesTable,
        hsame.initHashesSegments⟩, .inl ⟨rfl, ?_⟩⟩
    change Rows.modify _ _ _ this'.ikeSaTable = _
    rw [hsame.ikeSaTable]
    rfl
  | none =>
    obtain ⟨hchecked, hsame⟩ := checkinNew_cases cfg this sa ikeSa
    dsimp only
    generalize this.checkinNew cfg sa ikeSa = written at hchecked hsame ⊢
    obtain ⟨entry', this'⟩ := written
    have hid : entry'.ikeSaId = sa.id := hchecked.ikeSaId
    refine ⟨_, entry', hchecked, hchecked.ikeSa, rfl, ⟨rfl, ?_, rfl, hsame.connectedPeersTable,
      hsame.initHashesTable, hsame.initHashesSegments⟩, .inr ⟨rfl, rfl, ?_⟩⟩
    · change (this'.lockSingleSegment cfg (cfg.idRow entry'.ikeSaId)).segments =
        (this.lockSingleSegment cfg (cfg.idRow sa.id)).segments
      unfold lockSingleSegment
      rw [hid, hsame.segments]
    · change Rows.put (cfg.idRow entry'.ikeSaId) entry' this'.ikeSaTable = _
      rw [hid, hsame.ikeSaTable]

/-- An entry with the identities of the IKE_SA. -/
def applied (sa : IkeSa) (entry : IkeSaEntry) : IkeSaEntry :=
  { entry with
    checkedOut := false
    myId := some sa.myId
    otherId := some sa.otherEapId
    other := some (entry.other.getD sa.otherHost) }

theorem checkinLast_cases (cfg : ManagerConfig) (this : IkeSaManager) (sa : IkeSa) (ikeSa : ℕ) :
    this.checkinLast cfg sa ikeSa = this ∨
    ∃ entry, Rows.find (cfg.idRow sa.id) (·.ikeSa = ikeSa) this.ikeSaTable = some entry ∧
      this.checkinLast cfg sa ikeSa =
        (this.putConnectedPeers cfg (applied sa entry) sa.myId sa.otherEapId
          (entry.other.getD sa.otherHost).family).updateEntry (cfg.idRow sa.id) (·.ikeSa = ikeSa)
          (applied sa entry) := by
  unfold checkinLast entryOf
  cases hfind : Rows.find (cfg.idRow sa.id) (·.ikeSa = ikeSa) this.ikeSaTable with
  | none => exact .inl rfl
  | some entry => exact .inr ⟨entry, rfl, rfl⟩

theorem putConnectedPeers_eq (cfg : ManagerConfig) (this : IkeSaManager) (entry : IkeSaEntry)
    (myId otherId : Identification) (family : Family) :
    this.putConnectedPeers cfg entry myId otherId family =
      { this with connectedPeersTable :=
          (this.putConnectedPeers cfg entry myId otherId family).connectedPeersTable } := by
  unfold putConnectedPeers
  dsimp only
  split
  · split_ifs <;> rfl
  · rfl

theorem removeConnectedPeers_eq (cfg : ManagerConfig) (this : IkeSaManager) (entry : IkeSaEntry)
    (myId otherId : Identification) (family : Family) :
    this.removeConnectedPeers cfg entry myId otherId family =
      { this with connectedPeersTable :=
          (this.removeConnectedPeers cfg entry myId otherId family).connectedPeersTable } := by
  unfold removeConnectedPeers
  dsimp only
  split <;> rfl

/-- **Forgetting an entry** leaves the table of IKE_SAs alone, and gives the hash back. -/
structure Forgets (cfg : ManagerConfig) (this : IkeSaManager) (entry : IkeSaEntry)
    (this' : IkeSaManager) : Prop where
  ikeSaTable : this'.ikeSaTable = this.ikeSaTable
  totalSaCount : this'.totalSaCount = this.totalSaCount
  segments : this'.segments = this.segments
  initHashesSegments : this'.initHashesSegments = this.initHashesSegments
  initHashesTable : this'.initHashesTable =
    match entry.initHash with
    | some hash => (this.removeInitHash cfg hash).initHashesTable
    | none => this.initHashesTable
  connectedPeersTable : this'.connectedPeersTable =
    match entry.myId, entry.otherId, entry.other with
    | some myId, some otherId, some other =>
      (this.removeConnectedPeers cfg entry myId otherId other.family).connectedPeersTable
    | _, _, _ => this.connectedPeersTable

theorem connectedPeersTable_congr {this' : IkeSaManager}
    (h : this'.connectedPeersTable = this.connectedPeersTable) (cfg : ManagerConfig)
    (entry : IkeSaEntry) (myId otherId : Identification) (family : Family) :
    (this'.removeConnectedPeers cfg entry myId otherId family).connectedPeersTable =
      (this.removeConnectedPeers cfg entry myId otherId family).connectedPeersTable := by
  unfold removeConnectedPeers
  dsimp only
  rw [h]
  split
  · rfl
  · exact h

theorem forget_forgets (cfg : ManagerConfig) (entry : IkeSaEntry) (this : IkeSaManager) :
    Forgets cfg this entry (this.forget cfg entry) := by
  have hhalf : SameBeside this
      (if entry.halfOpen then this.removeHalfOpen cfg entry else this) := by
    split_ifs
    · exact sameBeside_removeHalfOpen entry
    · exact ⟨rfl, rfl, rfl, rfl, rfl, rfl⟩
  unfold forget
  dsimp only
  generalize (if entry.halfOpen then this.removeHalfOpen cfg entry else this) = this₁ at hhalf ⊢
  obtain ⟨htable, hsegments, htotal, hpeers, hinit, hinitSegments⟩ := hhalf
  -- identities first, then the hash
  have hforgets : ∀ this₂ : IkeSaManager, this₂ = { this₁ with
      connectedPeersTable := this₂.connectedPeersTable } →
      (this₂.connectedPeersTable = match entry.myId, entry.otherId, entry.other with
        | some myId, some otherId, some other =>
          (this.removeConnectedPeers cfg entry myId otherId other.family).connectedPeersTable
        | _, _, _ => this.connectedPeersTable) →
      Forgets cfg this entry (match entry.initHash with
        | some initHash => this₂.removeInitHash cfg initHash
        | none => this₂) := by
    intro this₂ hsame hpeers₂
    have hinit₂ : this₂.initHashesTable = this.initHashesTable := by
      rw [hsame]
      exact hinit
    have hunlocked : ∀ initHash, (this₂.removeInitHash cfg initHash).initHashesSegments =
        this₂.initHashesSegments := by
      intro initHash
      simp [removeInitHash, lockInitHashes, unlockInitHashes]
    have hsame₂ : this₂.ikeSaTable = this.ikeSaTable ∧ this₂.totalSaCount = this.totalSaCount ∧
        this₂.segments = this.segments ∧ this₂.initHashesSegments = this.initHashesSegments := by
      rw [hsame]
      exact ⟨htable, htotal, hsegments, hinitSegments⟩
    obtain ⟨htable₂, htotal₂, hsegments₂, hinitSegments₂⟩ := hsame₂
    cases hhash : entry.initHash with
    | none => exact ⟨htable₂, htotal₂, hsegments₂, hinitSegments₂, by rw [hhash]; exact hinit₂, hpeers₂⟩
    | some initHash =>
      refine ⟨htable₂, htotal₂, hsegments₂, (hunlocked initHash).trans hinitSegments₂, ?_, hpeers₂⟩
      rw [hhash]
      change Rows.remove _ _ this₂.initHashesTable = Rows.remove _ _ this.initHashesTable
      rw [hinit₂]
  refine hforgets _ ?_ ?_
  · split
    · exact removeConnectedPeers_eq cfg this₁ entry _ _ _
    · rfl
  · cases entry.myId <;> cases entry.otherId <;> cases entry.other
    case some.some.some => exact connectedPeersTable_congr hpeers cfg entry _ _ _
    all_goals exact hpeers

/-- **All entries are destroyed**, one after another. -/
theorem destroyAllEntries_induction {P : IkeSaManager → Prop}
    (hstep : ∀ (this : IkeSaManager) (item : ℕ × IkeSaEntry), item ∈ this.ikeSaTable → P this →
      P { this.forget cfg item.2 with
        ikeSaTable := (this.forget cfg item.2).ikeSaTable.erase item
        totalSaCount := (this.forget cfg item.2).totalSaCount - 1 }) (h : P this) :
    P (this.destroyAllEntries cfg) ∧ (this.destroyAllEntries cfg).ikeSaTable = [] := by
  unfold destroyAllEntries
  have hall : (this.enumerate cfg).Perm this.ikeSaTable := List.mergeSort_perm _ _
  generalize this.enumerate cfg = items at hall ⊢
  -- what is left to destroy is what is left in the table
  induction items generalizing this with
  | nil => exact ⟨h, hall.symm.eq_nil⟩
  | cons item items ih =>
    have hitem : item ∈ this.ikeSaTable := hall.mem_iff.mp List.mem_cons_self
    refine ih (hstep this item hitem h) ?_
    change items.Perm ((this.forget cfg item.2).ikeSaTable.erase item)
    rw [(forget_forgets cfg item.2 this).ikeSaTable]
    exact (List.cons_perm_iff_perm_erase.mp hall).2

end IkeSaManager

namespace ManagerWorld

open IkeSaManager

variable {cfg : ManagerConfig} {this : ManagerWorld}

/-- **Checking in**: the first part, and the rest if identities are applied now. -/
theorem checkin_cases (cfg : ManagerConfig) (this : ManagerWorld) (ikeSa : ℕ) :
    (this.checkin cfg ikeSa).sas = this.sas ∧ (this.checkin cfg ikeSa).next = this.next ∧
    ∃ manager, (this.checkin cfg ikeSa).manager =
        manager.unlockSingleSegment cfg (cfg.idRow (this.sas ikeSa).id) ∧
      (Touched (this.manager.checkinFirst cfg (this.sas ikeSa) ikeSa).2 manager ∧
          ((this.manager.checkinFirst cfg (this.sas ikeSa) ikeSa).1 = true →
            ikeSa ∈ (this.checkin cfg ikeSa).contacting) ∨
        (this.manager.checkinFirst cfg (this.sas ikeSa) ikeSa).1 = true ∧
          manager = (this.manager.checkinFirst cfg (this.sas ikeSa) ikeSa).2.checkinLast cfg
            (this.sas ikeSa) ikeSa) := by
  unfold checkin
  dsimp only
  generalize this.manager.checkinFirst cfg (this.sas ikeSa) ikeSa = first
  obtain ⟨applies, manager⟩ := first
  cases applies with
  | true =>
    dsimp only
    split_ifs
    · refine ⟨rfl, rfl, _, rfl, .inl ⟨?_, fun _ => List.mem_cons_self⟩⟩
      cases hentry : manager.entryOf cfg (this.sas ikeSa).id ikeSa with
      | none => exact .same
      | some entry => exact .entry hentry ⟨rfl, rfl, rfl, rfl, rfl, rfl, rfl⟩
    · exact ⟨rfl, rfl, _, rfl, .inr ⟨rfl, rfl⟩⟩
  | false => exact ⟨rfl, rfl, _, rfl, .inl ⟨.same, fun h => (by cases h)⟩⟩

/-- **A new initiator SPI**: the entry is put into another row, with the new ID. -/
theorem newInitiatorSpi_cases
    (hplaced : Rows.Placed (fun entry => cfg.idRow entry.ikeSaId) this.manager.ikeSaTable)
    (ikeSa : ℕ) (current : Option ℕ) (spi : U64) :
    (this.newInitiatorSpi cfg ikeSa current spi).2 = this ∨
    ∃ entry entry', (this.sas ikeSa).id.isInitiatorFlag = true ∧
      Rows.find (cfg.idRow (this.sas ikeSa).id) (·.ikeSa = ikeSa) this.manager.ikeSaTable =
        some entry ∧
      CheckedIn ((this.sas ikeSa).apply (.setInitiatorSpi spi)) entry entry' ∧
      entry'.other = entry.other ∧
      (this.newInitiatorSpi cfg ikeSa current spi).2 = { this with
        manager := { this.manager with
          ikeSaTable := Rows.put (cfg.idRow entry'.ikeSaId) entry' (Rows.remove
            (cfg.idRow (this.sas ikeSa).id) (·.ikeSa = ikeSa) this.manager.ikeSaTable)
          totalSaCount := this.manager.totalSaCount - 1 + 1 }
        sas := Function.update this.sas ikeSa
          ((this.sas ikeSa).apply (.setInitiatorSpi spi)) } := by
  unfold newInitiatorSpi getEntryBySa
  dsimp only
  rw [getEntryByMatch_eq]
  split_ifs with hstate hrole
  iterate 4 exact .inl rfl
  cases hfind : Rows.find (cfg.idRow (this.sas ikeSa).id) (·.ikeSa = ikeSa)
      this.manager.ikeSaTable with
  | none => exact .inl rfl
  | some entry =>
    dsimp only
    split_ifs
    · rw [unlock_lock]
      exact .inl rfl
    · have hmarked : entry.Marked
          { entry with driveoutWaitingThreads := true, driveoutNewThreads := true } :=
        ⟨rfl, rfl, rfl, rfl, rfl, rfl, rfl⟩
      rw [removeEntry_updateEntry hfind hmarked (hplaced _ (Rows.mem_of_find hfind))]
      refine .inr ⟨entry, { entry with
        ikeSaId := ((this.sas ikeSa).apply (.setInitiatorSpi spi)).id
        driveoutWaitingThreads := false
        driveoutNewThreads := false }, by simpa using hrole, rfl,
        ⟨rfl, rfl, rfl, rfl, rfl, .inl rfl⟩, rfl, ?_⟩
      simp [putEntry, lockSingleSegment, unlockSingleSegment]

/-- **Looking for the IKE_SA of a message** returns the one that is found first, or changes
nothing. -/
theorem lookupByMessage_cases {message : Message} {id : IkeSaId}
    {result : Option ℕ × ManagerWorld} (h : this.lookupByMessage cfg message id = some result) :
    result = (none, this) ∨
    ∃ entry entry', Rows.find (cfg.idRow id) (IkeSaEntry.matchById · id) this.manager.ikeSaTable =
        some entry ∧ entry.Marked entry' ∧ result.1 = some entry.ikeSa ∧
      result.2.manager = this.manager.updateEntry (cfg.idRow id) (IkeSaEntry.matchById · id) entry' ∧
      result.2.next = this.next ∧ result.2.contacting = this.contacting ∧
      (result.2.sas = this.sas ∨ (this.sas entry.ikeSa).id.responderSpi = 0 ∧
        result.2.sas = Function.update this.sas entry.ikeSa
          ((this.sas entry.ikeSa).apply (.setResponderSpi id.responderSpi))) := by
  unfold lookupByMessage getEntryById at h
  rw [getEntryByMatch_eq] at h
  cases hfind : Rows.find (cfg.idRow id) (IkeSaEntry.matchById · id) this.manager.ikeSaTable with
  | none =>
    rw [hfind] at h
    cases h
    exact .inl rfl
  | some entry =>
    rw [hfind] at h
    dsimp only at h
    simp only [unlock_lock, unlock_updateEntry_lock] at h
    by_cases hprocessing : entry.processing = message.getMessageIdOrHash cfg.key
    · rw [if_pos hprocessing] at h
      cases h
      exact .inl rfl
    · rw [if_neg hprocessing] at h
      split at h
      · cases h
      · cases h
        exact .inl rfl
      · cases h
        refine .inr ⟨entry, _, rfl, ?_, rfl, rfl, rfl, rfl, ?_⟩
        · exact ⟨rfl, rfl, rfl, rfl, rfl, rfl, rfl⟩
        · by_cases hzero : (this.sas entry.ikeSa).id.responderSpi = 0
          · exact .inr ⟨hzero, by rw [if_pos hzero]⟩
          · exact .inl (by rw [if_neg hzero, Function.update_eq_self])

def createdEntry (cfg : ManagerConfig) (message : Message) (hash : Chunk) (ourSpi : U64)
    (ikeSa : ℕ) : IkeSaEntry :=
  { ikeSaEntryCreate { message.localId with responderSpi := ourSpi } ikeSa with
    processing := message.getMessageIdOrHash cfg.key
    initHash := some hash
    checkedOut := true }

/-- **Creating an IKE_SA for a message** puts its entry into the table, or gives the hash back. -/
theorem createByMessage_cases (cfg : ManagerConfig) (this : ManagerWorld) (message : Message)
    (version : IkeVersion) (hash : Chunk) (ourSpi : U64) (uniqueId : Option U32) :
    ((cfg.ikesaLimit = 0 ∨ this.manager.totalSaCount < cfg.ikesaLimit) ∧
      ∃ sa, sa.id = (createdEntry cfg message hash ourSpi this.next).ikeSaId ∧
        uniqueId.isSome = true ∧
        this.createByMessage cfg message version hash ourSpi uniqueId = (some this.next, { this with
          manager := { this.manager with
            ikeSaTable := Rows.put
              (cfg.idRow (createdEntry cfg message hash ourSpi this.next).ikeSaId)
              (createdEntry cfg message hash ourSpi this.next) this.manager.ikeSaTable
            totalSaCount := this.manager.totalSaCount + 1 }
          sas := Function.update this.sas this.next sa
          next := this.next + 1 })) ∨
    (¬ (cfg.ikesaLimit = 0 ∨ this.manager.totalSaCount < cfg.ikesaLimit) ∨ uniqueId = none) ∧
      this.createByMessage cfg message version hash ourSpi uniqueId =
        (none, { this with manager := this.manager.removeInitHash cfg hash }) := by
  unfold createByMessage
  dsimp only
  by_cases hlimit : cfg.ikesaLimit = 0 ∨ this.manager.totalSaCount < cfg.ikesaLimit
  · rw [if_pos hlimit]
    cases uniqueId with
    | none => exact .inr ⟨.inr rfl, rfl⟩
    | some uniqueId =>
      refine .inl ⟨hlimit, ikeSaCreate { message.localId with responderSpi := ourSpi } version
        uniqueId, rfl, rfl, ?_⟩
      simp [putEntry, lockSingleSegment, unlockSingleSegment, allocate, createdEntry,
        ikeSaEntryCreate]
  · rw [if_neg hlimit]
    exact .inr ⟨.inl hlimit, rfl⟩

end ManagerWorld

end StrongSwan
