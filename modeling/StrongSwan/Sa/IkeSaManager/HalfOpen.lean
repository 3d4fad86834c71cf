import StrongSwan.Sa.IkeSaManager.Effects

/-!
# Half-open IKE_SAs are counted exactly

Abstractly the half-open IKE_SAs are a multiset of addresses and roles.

* `Recorded`: a table has the records of a multiset; `recorded_cons`.
* `Tallied`: the counters of a manager are those of a multiset; **`Tallied.put`**, **`Tallied.remove`**.
* `Accounted`: the multiset is that of the entries; one lemma for each part of a call.
* **`Counted.call`**, and of all runs **`halfOpen_exact`**.
-/

namespace StrongSwan

/-- What a half-open entry is counted as: its address, and whether we responded. -/
def IkeSaEntry.mark (this : IkeSaEntry) : Chunk × Bool := (this.address, !this.ikeSaId.isInitiatorFlag)

/-- What an entry adds to the counters. -/
def IkeSaEntry.marks (this : IkeSaEntry) : Multiset (Chunk × Bool) :=
  if this.halfOpen then {this.mark} else 0

/-! ## Records of a multiset -/

section Records

variable {cfg : ManagerConfig} {s : Multiset (Chunk × Bool)} {addr : Chunk} {x : Chunk × Bool}
  {table : List (ℕ × HalfOpen)}

def recordOf (s : Multiset (Chunk × Bool)) (addr : Chunk) : HalfOpen :=
  ⟨addr, s.countP (·.1 = addr), s.countP fun x => x.1 = addr ∧ x.2 = true⟩

/-- There is something with an address. -/
def HasAddress (s : Multiset (Chunk × Bool)) (addr : Chunk) : Prop := ∃ x ∈ s, x.1 = addr

theorem recordOf_cons_of_ne (h : x.1 ≠ addr) : recordOf (x ::ₘ s) addr = recordOf s addr := by
  simp [recordOf, h]

theorem recordOf_cons_self :
    recordOf (x ::ₘ s) x.1 = ⟨x.1, (recordOf s x.1).count + 1,
      (recordOf s x.1).countResponder + if x.2 then 1 else 0⟩ := by
  cases hx : x.2 <;> simp [recordOf, hx]

theorem hasAddress_cons_of_ne (h : x.1 ≠ addr) : HasAddress (x ::ₘ s) addr ↔ HasAddress s addr := by
  simp [HasAddress, h]

theorem hasAddress_cons_self : HasAddress (x ::ₘ s) x.1 := ⟨x, Multiset.mem_cons_self x s, rfl⟩

theorem count_recordOf : (recordOf s addr).count = 0 ↔ ¬ HasAddress s addr := by
  have hpos := Multiset.countP_pos (p := (·.1 = addr)) (s := s)
  unfold HasAddress recordOf
  rw [← hpos]
  simp

theorem recordOf_of_not (h : ¬ HasAddress s addr) : recordOf s addr = ⟨addr, 0, 0⟩ := by
  have hnone : ∀ x ∈ s, ¬ x.1 = addr := fun x hx heq => h ⟨x, hx, heq⟩
  have hcount : s.countP (·.1 = addr) = 0 := Multiset.countP_eq_zero.mpr hnone
  have hresponder : s.countP (fun x => x.1 = addr ∧ x.2 = true) = 0 :=
    Multiset.countP_eq_zero.mpr fun x hx hand => hnone x hx hand.1
  rw [recordOf, hcount, hresponder]
  rfl

/-- **A table has the records of a multiset**, but for some addresses. -/
structure Recorded (cfg : ManagerConfig) (s : Multiset (Chunk × Bool)) (skip : Chunk → Prop)
    (table : List (ℕ × HalfOpen)) : Prop where
  record : ∀ item ∈ table, ¬ skip item.2.other ∧
    item = (cfg.addressRow item.2.other, recordOf s item.2.other)
  nodup : (table.map (·.2.other)).Nodup
  complete : ∀ addr, ¬ skip addr → ((∃ item ∈ table, item.2.other = addr) ↔ HasAddress s addr)

theorem Recorded.perm {skip : Chunk → Prop} {table' : List (ℕ × HalfOpen)}
    (h : Recorded cfg s skip table) (hperm : table'.Perm table) : Recorded cfg s skip table' := by
  refine ⟨fun item hitem => h.record item (hperm.subset hitem),
    ((hperm.map _).nodup_iff).mpr h.nodup, fun addr hskip => ?_⟩
  rw [← h.complete addr hskip]
  simp only [hperm.mem_iff]

theorem Recorded.congr {skip : Chunk → Prop} {s' : Multiset (Chunk × Bool)}
    (h : Recorded cfg s skip table) (hs : ∀ addr, ¬ skip addr →
      recordOf s' addr = recordOf s addr ∧ (HasAddress s' addr ↔ HasAddress s addr)) :
    Recorded cfg s' skip table := by
  refine ⟨fun item hitem => ?_, h.nodup, fun addr hskip => ?_⟩
  · obtain ⟨hskip, heq⟩ := h.record item hitem
    rw [(hs _ hskip).1]
    exact ⟨hskip, heq⟩
  · rw [(hs addr hskip).2]
    exact h.complete addr hskip

theorem recorded_cons : Recorded cfg (x ::ₘ s) (· = x.1) table ↔ Recorded cfg s (· = x.1) table := by
  have hsame : ∀ addr, ¬ addr = x.1 → recordOf (x ::ₘ s) addr = recordOf s addr ∧
      (HasAddress (x ::ₘ s) addr ↔ HasAddress s addr) := fun addr hne =>
    ⟨recordOf_cons_of_ne (Ne.symm hne), hasAddress_cons_of_ne (Ne.symm hne)⟩
  exact ⟨fun h => h.congr fun addr hne => ⟨(hsame addr hne).1.symm, (hsame addr hne).2.symm⟩,
    fun h => h.congr hsame⟩

theorem Recorded.all (hrest : Recorded cfg s (· = addr) table) (hhas : ¬ HasAddress s addr) :
    Recorded cfg s (fun _ => False) table := by
  refine ⟨fun item hitem => ⟨id, (hrest.record item hitem).2⟩, hrest.nodup, fun addr' _ => ?_⟩
  by_cases heq : addr' = addr
  · subst heq
    refine ⟨?_, fun h => absurd h hhas⟩
    rintro ⟨item, hitem, hother⟩
    exact absurd hother (hrest.record item hitem).1
  · exact hrest.complete addr' heq

theorem Recorded.cons (hrest : Recorded cfg s (· = addr) table) (hhas : HasAddress s addr) :
    Recorded cfg s (fun _ => False) ((cfg.addressRow addr, recordOf s addr) :: table) := by
  refine ⟨fun item hitem => ⟨id, ?_⟩, ?_, fun addr' _ => ?_⟩
  · obtain rfl | hitem := List.mem_cons.mp hitem
    · rfl
    · exact (hrest.record item hitem).2
  · refine List.nodup_cons.mpr ⟨fun hmem => ?_, hrest.nodup⟩
    obtain ⟨item, hitem, heq⟩ := List.mem_map.mp hmem
    exact (hrest.record item hitem).1 heq
  · by_cases heq : addr' = addr
    · subst heq
      exact ⟨fun _ => hhas, fun _ => ⟨_, List.mem_cons_self, rfl⟩⟩
    · rw [← hrest.complete addr' heq]
      constructor
      · rintro ⟨item, hitem, hother⟩
        obtain rfl | hitem := List.mem_cons.mp hitem
        · exact absurd hother.symm heq
        · exact ⟨item, hitem, hother⟩
      · rintro ⟨item, hitem, hother⟩
        exact ⟨item, List.mem_cons_of_mem _ hitem, hother⟩

theorem Recorded.cases (h : Recorded cfg s (fun _ => False) table) (addr : Chunk) :
    (¬ HasAddress s addr ∧ Recorded cfg s (· = addr) table ∧
      Rows.find (cfg.addressRow addr) (·.other = addr) table = none) ∨
    ∃ before after, HasAddress s addr ∧ Recorded cfg s (· = addr) (before ++ after) ∧
      Rows.find (cfg.addressRow addr) (·.other = addr) table = some (recordOf s addr) ∧
      Rows.remove (cfg.addressRow addr) (·.other = addr) table = before ++ after ∧
      ∀ f, Rows.modify (cfg.addressRow addr) (·.other = addr) f table =
        before ++ (cfg.addressRow addr, f (recordOf s addr)) :: after := by
  obtain ⟨hnone, -⟩ | ⟨before, halfOpen, after, rfl, hp, -, hsome, hremove, hmodify⟩ :=
    Rows.find_cases (cfg.addressRow addr) (fun halfOpen : HalfOpen => halfOpen.other = addr) table
  · have hmiss : ∀ item ∈ table, item.2.other ≠ addr := by
      intro item hitem heq
      have hrow : item.1 = cfg.addressRow addr := by
        rw [← heq]
        exact congrArg Prod.fst (h.record item hitem).2
      have hnot := Rows.find_none hnone item.2 (by rw [← hrow]; exact hitem)
      exact absurd heq (by simpa using hnot)
    have hhas : ¬ HasAddress s addr := by
      rw [← h.complete addr id]
      rintro ⟨item, hitem, heq⟩
      exact hmiss item hitem heq
    exact .inl ⟨hhas, ⟨fun item hitem => ⟨hmiss item hitem, (h.record item hitem).2⟩, h.nodup,
      fun addr' _ => h.complete addr' id⟩, hnone⟩
  · have hother : halfOpen.other = addr := by simpa using hp
    have hitem : (cfg.addressRow addr, halfOpen) ∈
        before ++ (cfg.addressRow addr, halfOpen) :: after := by simp
    have hrecord : halfOpen = recordOf s addr := by
      have heq := congrArg Prod.snd (h.record _ hitem).2
      rw [hother] at heq
      exact heq
    subst hrecord
    have hnodup := h.nodup
    rw [List.map_append, List.map_cons, List.nodup_middle, List.nodup_cons, ← List.map_append]
      at hnodup
    have hrest : ∀ item ∈ before ++ after, item.2.other ≠ addr := fun item hitem heq =>
      hnodup.1 (List.mem_map.mpr ⟨item, hitem, heq⟩)
    have hsub : ∀ item ∈ before ++ after, item ∈
        before ++ (cfg.addressRow addr, recordOf s addr) :: after := fun item hitem =>
      List.perm_middle.mem_iff.mpr (List.mem_cons_of_mem _ hitem)
    refine .inr ⟨before, after, (h.complete addr id).mp ⟨_, hitem, rfl⟩,
      ⟨fun item hitem => ⟨hrest item hitem, (h.record item (hsub item hitem)).2⟩, hnodup.2,
        fun addr' haddr' => ?_⟩, hsome, hremove, hmodify⟩
    rw [← h.complete addr' id]
    constructor
    · rintro ⟨item, hitem, heq⟩
      exact ⟨item, hsub item hitem, heq⟩
    · rintro ⟨item, hitem, heq⟩
      obtain rfl | hitem := List.mem_cons.mp (List.perm_middle.mem_iff.mp hitem)
      · exact absurd heq.symm haddr'
      · exact ⟨item, hitem, heq⟩

theorem sum_ite_eq (l : List Chunk) (addr : Chunk) :
    (l.map fun addr' => if addr = addr' then 1 else 0).sum = l.count addr := by
  induction l with
  | nil => rfl
  | cons addr' l ih =>
    rw [List.map_cons, List.sum_cons, ih, List.count_cons, add_comm]
    refine congrArg (l.count addr + ·) (if_congr ?_ rfl rfl)
    rw [beq_iff_eq, eq_comm]

theorem sum_countP {l : List Chunk} (hnodup : l.Nodup) (q : Chunk × Bool → Prop) [DecidablePred q]
    (hall : ∀ x ∈ s, x.1 ∈ l) :
    (l.map fun addr => s.countP fun x => x.1 = addr ∧ q x).sum = s.countP q := by
  induction s using Multiset.induction with
  | empty => simp
  | cons x s ih =>
    have ih' := ih fun y hy => hall y (Multiset.mem_cons_of_mem hy)
    have hone : (l.map fun addr => if x.1 = addr ∧ q x then 1 else 0).sum =
        if q x then 1 else 0 := by
      by_cases hq : q x
      · simp only [hq, and_true, if_true]
        rw [sum_ite_eq, List.count_eq_one_of_mem hnodup (hall x (Multiset.mem_cons_self x s))]
      · simp [hq]
    simp only [Multiset.countP_cons, List.sum_map_add, ih', hone]

/-- **The records sum up** to all that is counted. -/
theorem Recorded.sum (h : Recorded cfg s (fun _ => False) table) :
    (table.map (·.2.count)).sum = s.card ∧
      (table.map (·.2.countResponder)).sum = s.countP (·.2 = true) := by
  have hall : ∀ x ∈ s, x.1 ∈ table.map (·.2.other) := by
    intro x hx
    obtain ⟨item, hitem, heq⟩ := (h.complete x.1 id).mpr ⟨x, hx, rfl⟩
    exact List.mem_map.mpr ⟨item, hitem, heq⟩
  have hrecord : ∀ item ∈ table, item.2 = recordOf s item.2.other := fun item hitem =>
    congrArg Prod.snd (h.record item hitem).2
  have hcount := sum_countP h.nodup (fun _ => True) hall
  have hresponder := sum_countP h.nodup (·.2 = true) hall
  rw [List.map_map] at hcount hresponder
  constructor
  · rw [Multiset.countP_True] at hcount
    rw [← hcount, Nat.cast_list_sum, List.map_map]
    refine congrArg List.sum (List.map_congr_left fun item hitem => ?_)
    rw [hrecord item hitem]
    simp [recordOf]
  · rw [← hresponder, Nat.cast_list_sum, List.map_map]
    refine congrArg List.sum (List.map_congr_left fun item hitem => ?_)
    rw [hrecord item hitem]
    rfl

end Records

/-! ## The counters -/

namespace IkeSaManager

variable {cfg : ManagerConfig} {s : Multiset (Chunk × Bool)} {this this' : IkeSaManager}
  {entry : IkeSaEntry}

/-- **The counters are those of a multiset** of addresses and roles. -/
structure Tallied (cfg : ManagerConfig) (s : Multiset (Chunk × Bool)) (this : IkeSaManager) :
    Prop where
  recorded : Recorded cfg s (fun _ => False) this.halfOpenTable
  halfOpenCount : this.halfOpenCount = s.card
  halfOpenCountResponder : this.halfOpenCountResponder = s.countP (·.2 = true)
  segments : ∀ i, this.halfOpenSegments i =
    s.countP fun x => cfg.segment (cfg.addressRow x.1) = i

theorem tallied_create : Tallied cfg 0 ikeSaManagerCreate := by
  refine ⟨⟨?_, ?_, ?_⟩, rfl, rfl, fun i => rfl⟩ <;> simp [ikeSaManagerCreate, HasAddress]

theorem responder_eq (entry : IkeSaEntry) :
    (if entry.ikeSaId.isInitiatorFlag then 0 else 1 : ℤ) = if entry.mark.2 then 1 else 0 := by
  cases h : entry.ikeSaId.isInitiatorFlag <;> simp [IkeSaEntry.mark, h]

theorem recordOf_mark_cons (s : Multiset (Chunk × Bool)) (entry : IkeSaEntry) :
    recordOf (entry.mark ::ₘ s) entry.address =
      ⟨entry.address, (recordOf s entry.address).count + 1,
        (recordOf s entry.address).countResponder + if entry.mark.2 then 1 else 0⟩ :=
  recordOf_cons_self

/-- **A half-open IKE_SA is counted.** -/
theorem Tallied.put (h : Tallied cfg s this) (entry : IkeSaEntry) :
    Tallied cfg (entry.mark ::ₘ s) (this.putHalfOpen cfg entry) := by
  have hresponder := responder_eq entry
  have hself := recordOf_mark_cons s entry
  refine ⟨?_, ?_, ?_, fun i => ?_⟩
  · obtain ⟨hhas, hrest, hfind⟩ | ⟨before, after, hhas, hrest, hfind, -, hmodify⟩ :=
      h.recorded.cases entry.address
    · have hcons := ((recorded_cons (x := entry.mark)).mpr hrest).cons hasAddress_cons_self
      change Recorded cfg _ _ ((cfg.addressRow entry.address, recordOf _ entry.address) :: _) at hcons
      rw [hself, recordOf_of_not hhas, zero_add, zero_add] at hcons
      simp only [putHalfOpen, hfind, hresponder]
      exact hcons
    · have hcons := ((recorded_cons (x := entry.mark)).mpr hrest).cons hasAddress_cons_self
      change Recorded cfg _ _ ((cfg.addressRow entry.address, recordOf _ entry.address) :: _) at hcons
      rw [hself] at hcons
      simp only [putHalfOpen, hfind, hresponder, hmodify]
      exact hcons.perm List.perm_middle
  · rw [putHalfOpen, Multiset.card_cons, h.halfOpenCount]
    simp
  · simp only [putHalfOpen, hresponder, h.halfOpenCountResponder]
    cases hmark : entry.mark.2 <;> simp [hmark]
  · simp only [putHalfOpen, Function.update_apply, h.segments]
    by_cases hi : i = cfg.segment (cfg.addressRow entry.address)
    · subst hi
      simp [IkeSaEntry.mark]
    · rw [if_neg hi, Multiset.countP_cons_of_neg _ fun heq => hi heq.symm]

/-- **A half-open IKE_SA is counted no more.** -/
theorem Tallied.remove (h : Tallied cfg (entry.mark ::ₘ s) this) :
    Tallied cfg s (this.removeHalfOpen cfg entry) := by
  have hresponder := responder_eq entry
  have hself := recordOf_mark_cons s entry
  obtain ⟨hhas, -⟩ | ⟨before, after, -, hrest, hfind, hremove, hmodify⟩ :=
    h.recorded.cases entry.address
  · exact absurd hasAddress_cons_self hhas
  · have hrest' := (recorded_cons (x := entry.mark)).mp hrest
    rw [hself] at hfind hmodify
    refine ⟨?_, ?_, ?_, fun i => ?_⟩
    · simp only [removeHalfOpen, hfind, hresponder, add_sub_cancel_right]
      by_cases hzero : (recordOf s entry.address).count = 0
      · rw [if_pos hzero, hremove]
        exact hrest'.all (count_recordOf.mp hzero)
      · rw [if_neg hzero, hmodify]
        simp only [add_sub_cancel_right]
        exact (hrest'.cons (not_not.mp (mt count_recordOf.mpr hzero))).perm List.perm_middle
    · simp only [removeHalfOpen, hfind, h.halfOpenCount, Multiset.card_cons]
      simp
    · simp only [removeHalfOpen, hfind, hresponder, h.halfOpenCountResponder]
      cases hmark : entry.mark.2 <;> simp [hmark]
    · simp only [removeHalfOpen, hfind, Function.update_apply, h.segments]
      by_cases hi : i = cfg.segment (cfg.addressRow entry.address)
      · subst hi
        simp [IkeSaEntry.mark]
      · rw [if_neg hi, Multiset.countP_cons_of_neg _ fun heq => hi heq.symm]

/-! ## What is left alone -/

/-- The half-open IKE_SAs are left alone. -/
structure SameHalfOpen (this this' : IkeSaManager) : Prop where
  table : this'.halfOpenTable = this.halfOpenTable
  count : this'.halfOpenCount = this.halfOpenCount
  countResponder : this'.halfOpenCountResponder = this.halfOpenCountResponder
  segments : this'.halfOpenSegments = this.halfOpenSegments

/-- The table of IKE_SAs is left alone. -/
structure SameEntries (this this' : IkeSaManager) : Prop where
  table : this'.ikeSaTable = this.ikeSaTable
  total : this'.totalSaCount = this.totalSaCount

theorem Tallied.congr (h : Tallied cfg s this) (hsame : SameHalfOpen this this') :
    Tallied cfg s this' := by
  obtain ⟨htable, hcount, hresponder, hsegments⟩ := hsame
  exact ⟨htable ▸ h.recorded, hcount ▸ h.halfOpenCount, hresponder ▸ h.halfOpenCountResponder,
    hsegments ▸ h.segments⟩

theorem SameEntries.trans {this'' : IkeSaManager} (h : SameEntries this this')
    (h' : SameEntries this' this'') : SameEntries this this'' :=
  ⟨h'.table.trans h.table, h'.total.trans h.total⟩

theorem SameHalfOpen.trans {this'' : IkeSaManager} (h : SameHalfOpen this this')
    (h' : SameHalfOpen this' this'') : SameHalfOpen this this'' :=
  ⟨h'.table.trans h.table, h'.count.trans h.count, h'.countResponder.trans h.countResponder,
    h'.segments.trans h.segments⟩

variable (cfg this entry)

theorem same_lock (row : ℕ) : SameHalfOpen this (this.lockSingleSegment cfg row) ∧
    SameEntries this (this.lockSingleSegment cfg row) := ⟨⟨rfl, rfl, rfl, rfl⟩, rfl, rfl⟩

theorem same_unlock (row : ℕ) : SameHalfOpen this (this.unlockSingleSegment cfg row) ∧
    SameEntries this (this.unlockSingleSegment cfg row) := ⟨⟨rfl, rfl, rfl, rfl⟩, rfl, rfl⟩

theorem sameEntries_putHalfOpen : SameEntries this (this.putHalfOpen cfg entry) := ⟨rfl, rfl⟩

theorem sameEntries_removeHalfOpen : SameEntries this (this.removeHalfOpen cfg entry) := by
  unfold removeHalfOpen
  dsimp only
  split <;> exact ⟨rfl, rfl⟩

theorem same_putConnectedPeers (myId otherId : Identification) (family : Family) :
    SameHalfOpen this (this.putConnectedPeers cfg entry myId otherId family) ∧
      SameEntries this (this.putConnectedPeers cfg entry myId otherId family) := by
  unfold putConnectedPeers
  dsimp only
  split
  · split_ifs <;> exact ⟨⟨rfl, rfl, rfl, rfl⟩, rfl, rfl⟩
  · exact ⟨⟨rfl, rfl, rfl, rfl⟩, rfl, rfl⟩

theorem same_removeConnectedPeers (myId otherId : Identification) (family : Family) :
    SameHalfOpen this (this.removeConnectedPeers cfg entry myId otherId family) ∧
      SameEntries this (this.removeConnectedPeers cfg entry myId otherId family) := by
  unfold removeConnectedPeers
  dsimp only
  split <;> exact ⟨⟨rfl, rfl, rfl, rfl⟩, rfl, rfl⟩

theorem same_checkAndPutInitHash (initHash : Chunk) (spi : U64) :
    SameHalfOpen this (this.checkAndPutInitHash cfg initHash spi).2.2 ∧
      SameEntries this (this.checkAndPutInitHash cfg initHash spi).2.2 := by
  unfold checkAndPutInitHash
  dsimp only
  split
  · exact ⟨⟨rfl, rfl, rfl, rfl⟩, rfl, rfl⟩
  · split_ifs <;> exact ⟨⟨rfl, rfl, rfl, rfl⟩, rfl, rfl⟩

theorem same_removeInitHash (initHash : Chunk) :
    SameHalfOpen this (this.removeInitHash cfg initHash) ∧
      SameEntries this (this.removeInitHash cfg initHash) :=
  ⟨⟨rfl, rfl, rfl, rfl⟩, rfl, rfl⟩

/-- What looking for an entry does: nothing but locking. -/
theorem getEntryByMatch_cases (id : IkeSaId) (pred : IkeSaEntry → Bool) :
    (∃ entry, Rows.find (cfg.idRow id) pred this.ikeSaTable = some entry ∧
      this.getEntryByMatch cfg id pred = (some entry, this.lockSingleSegment cfg (cfg.idRow id))) ∨
    Rows.find (cfg.idRow id) pred this.ikeSaTable = none ∧
      this.getEntryByMatch cfg id pred = (none, (this.lockSingleSegment cfg
        (cfg.idRow id)).unlockSingleSegment cfg (cfg.idRow id)) := by
  have htable : (this.lockSingleSegment cfg (cfg.idRow id)).ikeSaTable = this.ikeSaTable := rfl
  unfold getEntryByMatch
  dsimp only
  rw [htable]
  cases hfind : Rows.find (cfg.idRow id) pred this.ikeSaTable with
  | some entry => exact .inl ⟨entry, rfl, rfl⟩
  | none => exact .inr ⟨rfl, rfl⟩

variable {cfg this entry}

/-! ## The entries that are counted -/

/-- What the entries of a table add to the counters. -/
def marksOf (table : List (ℕ × IkeSaEntry)) : Multiset (Chunk × Bool) := Rows.sumOf IkeSaEntry.marks table

/-- What is known of an entry: the role is that of the IKE_SA, and what is counted has an address. -/
structure EntryOk (role : ℕ → Bool) (next : ℕ) (entry : IkeSaEntry) : Prop where
  lt : entry.ikeSa < next
  role : entry.ikeSaId.isInitiatorFlag = role entry.ikeSa
  other : entry.halfOpen = true → entry.other.isSome = true

/-- **All entries are counted**, and besides those that have been taken out of the table. -/
structure Accounted (cfg : ManagerConfig) (role : ℕ → Bool) (next : ℕ)
    (taken : Multiset (Chunk × Bool)) (this : IkeSaManager) : Prop where
  placed : Rows.Placed (fun entry => cfg.idRow entry.ikeSaId) this.ikeSaTable
  total : this.totalSaCount = this.ikeSaTable.length
  tallied : Tallied cfg (taken + marksOf this.ikeSaTable) this
  entries : ∀ item ∈ this.ikeSaTable, EntryOk role next item.2

variable {role : ℕ → Bool} {next : ℕ} {taken : Multiset (Chunk × Bool)} {entry' : IkeSaEntry}

theorem Accounted.congr (h : Accounted cfg role next taken this) (hentries : SameEntries this this')
    (hhalf : SameHalfOpen this this') : Accounted cfg role next taken this' := by
  obtain ⟨htable, htotal⟩ := hentries
  refine ⟨htable ▸ h.placed, ?_, ?_, htable ▸ h.entries⟩
  · rw [htotal, htable]
    exact h.total
  · rw [htable]
    exact h.tallied.congr hhalf

/-- **An entry is put into the table.** -/
theorem Accounted.putEntry (h : Accounted cfg role next (entry.marks + taken) this)
    (hok : EntryOk role next entry) : Accounted cfg role next taken (this.putEntry cfg entry) := by
  refine ⟨h.placed.put entry, ?_, ?_, List.forall_mem_cons.mpr ⟨hok, h.entries⟩⟩
  · change this.totalSaCount + 1 = ((Rows.put _ entry this.ikeSaTable).length : ℤ)
    rw [h.total, Rows.put, List.length_cons]
    push_cast
    rfl
  · change Tallied cfg (taken + marksOf ((_, entry) :: this.ikeSaTable)) _
    rw [marksOf, Rows.sumOf_cons, ← add_assoc, add_comm taken]
    exact h.tallied.congr ⟨rfl, rfl, rfl, rfl⟩

variable {row : ℕ}

/-- **An entry is taken out of the table.** -/
theorem Accounted.removeEntry (h : Accounted cfg role next taken this)
    (hmem : (row, entry) ∈ this.ikeSaTable) :
    Accounted cfg role next (entry.marks + taken) (this.removeEntry cfg entry) := by
  have hrow : row = cfg.idRow entry.ikeSaId := h.placed _ hmem
  have hsome := Rows.isSome_find (p := (· = entry)) (hrow ▸ hmem) (by simp)
  obtain ⟨entry', hfind⟩ := Option.isSome_iff_exists.mp hsome
  obtain rfl : entry' = entry := by simpa using Rows.pred_of_find hfind
  have hperm := Rows.perm_remove hfind
  unfold IkeSaManager.removeEntry
  rw [hfind]
  refine ⟨h.placed.remove _ _, ?_, ?_, fun item hitem => h.entries item ?_⟩
  · have hlength := hperm.length_eq
    rw [List.length_cons] at hlength
    change this.totalSaCount - 1 = _
    rw [h.total, hlength]
    push_cast
    ring
  · have htally := h.tallied
    rw [marksOf, Rows.sumOf_find hfind, ← add_assoc, add_comm taken] at htally
    exact htally.congr ⟨rfl, rfl, rfl, rfl⟩
  · exact hperm.mem_iff.mpr (List.mem_cons_of_mem _ hitem)

variable {pred : IkeSaEntry → Bool}

/-- **An entry is written**, with what happened to the counters before. -/
theorem Accounted.updateEntry
    (h : Accounted cfg role next taken this)
    (hfind : Rows.find row pred this.ikeSaTable = some entry)
    (hsame : SameEntries this this')
    (htally : ∀ s, Tallied cfg (entry.marks + s) this → Tallied cfg (entry'.marks + s) this')
    (hrow : cfg.idRow entry'.ikeSaId = row) (hok : EntryOk role next entry') :
    Accounted cfg role next taken (this'.updateEntry row pred entry') := by
  obtain ⟨htable, htotal⟩ := hsame
  have hperm := Rows.perm_remove hfind
  have hperm' := Rows.perm_modify hfind fun _ => entry'
  unfold IkeSaManager.updateEntry
  rw [htable]
  refine ⟨h.placed.modify fun _ _ _ => hrow, ?_, ?_, fun item hitem => ?_⟩
  · have hlength := hperm'.length_eq.trans (by rw [List.length_cons, ← List.length_cons,
      ← hperm.length_eq])
    change this'.totalSaCount = _
    rw [htotal, h.total, hlength]
  · have ht := h.tallied
    rw [marksOf, Rows.sumOf_find hfind, add_left_comm] at ht
    have ht' := htally _ ht
    rw [marksOf, Rows.sumOf_modify hfind, add_left_comm]
    exact ht'.congr ⟨rfl, rfl, rfl, rfl⟩
  · obtain rfl | hitem := List.mem_cons.mp (hperm'.subset hitem)
    · exact hok
    · exact h.entries item (hperm.mem_iff.mpr (List.mem_cons_of_mem _ hitem))

/-! ## Parts of calls -/

theorem Accounted.lock (h : Accounted cfg role next taken this) (row : ℕ) :
    Accounted cfg role next taken (this.lockSingleSegment cfg row) :=
  h.congr (same_lock cfg this row).2 (same_lock cfg this row).1

theorem Accounted.unlock (h : Accounted cfg role next taken this) (row : ℕ) :
    Accounted cfg role next taken (this.unlockSingleSegment cfg row) :=
  h.congr (same_unlock cfg this row).2 (same_unlock cfg this row).1

theorem Accounted.entry_ok
    (h : Accounted cfg role next taken this)
    (hfind : Rows.find row pred this.ikeSaTable = some entry) :
    (row, entry) ∈ this.ikeSaTable ∧ EntryOk role next entry :=
  ⟨Rows.mem_of_find hfind, h.entries _ (Rows.mem_of_find hfind)⟩

theorem Accounted.updateSame
    (h : Accounted cfg role next taken this)
    (hfind : Rows.find row pred this.ikeSaTable = some entry)
    (hmarks : entry'.marks = entry.marks) (hid : entry'.ikeSaId = entry.ikeSaId)
    (hok : EntryOk role next entry') :
    Accounted cfg role next taken (this.updateEntry row pred entry') := by
  have hrow : row = cfg.idRow entry.ikeSaId := h.placed _ (Rows.mem_of_find hfind)
  refine h.updateEntry hfind ⟨rfl, rfl⟩ (fun s hs => ?_) (by rw [hid, hrow]) hok
  rwa [hmarks]

theorem marks_of_halfOpen (h : entry.halfOpen = true) : entry.marks = {entry.mark} := if_pos h

theorem marks_of_not (h : ¬ entry.halfOpen = true) : entry.marks = 0 := if_neg h

/-- **Checking in** counts an entry by the state of its IKE_SA. -/
theorem checkinEntry_spec (cfg : ManagerConfig) (sa : IkeSa) (entry : IkeSaEntry) (this : IkeSaManager)
    (hrole : entry.ikeSaId.isInitiatorFlag = sa.id.isInitiatorFlag)
    (hother : entry.halfOpen = true → entry.other.isSome = true) :
    SameEntries this (this.checkinEntry cfg sa entry).2 ∧
      (this.checkinEntry cfg sa entry).1.ikeSaId = sa.id ∧
      (this.checkinEntry cfg sa entry).1.ikeSa = entry.ikeSa ∧
      ((this.checkinEntry cfg sa entry).1.halfOpen = true →
        (this.checkinEntry cfg sa entry).1.other.isSome = true) ∧
      ∀ s, Tallied cfg (entry.marks + s) this →
        Tallied cfg ((this.checkinEntry cfg sa entry).1.marks + s)
          (this.checkinEntry cfg sa entry).2 := by
  have hmark : (checkedIn sa entry).mark = entry.mark := by
    rw [IkeSaEntry.mark, IkeSaEntry.mark, hrole]
    rfl
  have hmarks : (checkedIn sa entry).marks = entry.marks := by
    rw [IkeSaEntry.marks, IkeSaEntry.marks, hmark]
    rfl
  have hfields : (checkedIn sa entry).ikeSaId = sa.id ∧ (checkedIn sa entry).ikeSa = entry.ikeSa :=
    ⟨rfl, rfl⟩
  have hother' : (checkedIn sa entry).halfOpen = true → (checkedIn sa entry).other.isSome = true :=
    hother
  simp only [← hmarks]
  unfold checkinEntry
  generalize checkedIn sa entry = entry₁ at hfields hother' ⊢
  obtain ⟨hid, hikeSa⟩ := hfields
  dsimp only
  split_ifs with hleft hmoved hnew
  · refine ⟨sameEntries_removeHalfOpen _ _ _, hid, hikeSa, fun h => h.elim, fun s hs => ?_⟩
    rw [marks_of_halfOpen hleft.1, Multiset.singleton_add] at hs
    change Tallied cfg (0 + s) _
    rw [zero_add]
    exact hs.remove
  · refine ⟨(sameEntries_removeHalfOpen _ _ _).trans (sameEntries_putHalfOpen _ _ _), hid, hikeSa,
      fun _ => rfl, fun s hs => ?_⟩
    rw [marks_of_halfOpen hmoved.1, Multiset.singleton_add] at hs
    change Tallied cfg ((if entry₁.halfOpen then {_} else 0) + s) _
    rw [if_pos hmoved.1, Multiset.singleton_add]
    exact hs.remove.put _
  · refine ⟨sameEntries_putHalfOpen _ _ _, hid, hikeSa, fun _ => rfl, fun s hs => ?_⟩
    rw [marks_of_not (by simpa using hnew.1), zero_add] at hs
    change Tallied cfg ({_} + s) _
    rw [Multiset.singleton_add]
    exact hs.put _
  · exact ⟨⟨rfl, rfl⟩, hid, hikeSa, hother', fun s hs => hs⟩

theorem checkinNew_spec (cfg : ManagerConfig) (sa : IkeSa) (ikeSa : ℕ) (this : IkeSaManager) :
    SameEntries this (this.checkinNew cfg sa ikeSa).2 ∧
      (this.checkinNew cfg sa ikeSa).1.ikeSaId = sa.id ∧
      (this.checkinNew cfg sa ikeSa).1.ikeSa = ikeSa ∧
      ((this.checkinNew cfg sa ikeSa).1.halfOpen = true →
        (this.checkinNew cfg sa ikeSa).1.other.isSome = true) ∧
      ∀ s, Tallied cfg s this →
        Tallied cfg ((this.checkinNew cfg sa ikeSa).1.marks + s)
          (this.checkinNew cfg sa ikeSa).2 := by
  unfold checkinNew
  dsimp only
  split_ifs
  · refine ⟨sameEntries_putHalfOpen _ _ _, rfl, rfl, fun _ => rfl, fun s hs => ?_⟩
    change Tallied cfg ({_} + s) _
    rw [Multiset.singleton_add]
    exact hs.put _
  · refine ⟨⟨rfl, rfl⟩, rfl, rfl, fun h => (by cases h), fun s hs => ?_⟩
    change Tallied cfg (0 + s) _
    rwa [zero_add]

/-- **Forgetting an entry** leaves the table alone, and the entry is counted no more. -/
theorem forget_spec (cfg : ManagerConfig) (entry : IkeSaEntry) (this : IkeSaManager) :
    SameEntries this (this.forget cfg entry) ∧
      ∀ s, Tallied cfg (entry.marks + s) this → Tallied cfg s (this.forget cfg entry) := by
  have hhalf : SameEntries this
      (if entry.halfOpen then this.removeHalfOpen cfg entry else this) ∧
      ∀ s, Tallied cfg (entry.marks + s) this →
        Tallied cfg s (if entry.halfOpen then this.removeHalfOpen cfg entry else this) := by
    split_ifs with hopen
    · refine ⟨sameEntries_removeHalfOpen cfg this entry, fun s hs => ?_⟩
      rw [marks_of_halfOpen hopen, Multiset.singleton_add] at hs
      exact hs.remove
    · refine ⟨⟨rfl, rfl⟩, fun s hs => ?_⟩
      rwa [marks_of_not hopen, zero_add] at hs
  unfold IkeSaManager.forget
  dsimp only
  generalize (if entry.halfOpen then this.removeHalfOpen cfg entry else this) = this₁ at hhalf ⊢
  obtain ⟨hsame₁, htally₁⟩ := hhalf
  have hkeeps (this₂ : IkeSaManager) (h : SameHalfOpen this₁ this₂ ∧ SameEntries this₁ this₂) :
      SameEntries this this₂ ∧ ∀ s, Tallied cfg (entry.marks + s) this → Tallied cfg s this₂ :=
    ⟨hsame₁.trans h.2, fun s hs => (htally₁ s hs).congr h.1⟩
  have hinit (initHash) (this₂ : IkeSaManager) (h : SameHalfOpen this₁ this₂ ∧ SameEntries this₁ this₂) :
      SameHalfOpen this₁ (this₂.removeInitHash cfg initHash) ∧
        SameEntries this₁ (this₂.removeInitHash cfg initHash) :=
    ⟨h.1.trans (same_removeInitHash cfg _ initHash).1, h.2.trans (same_removeInitHash cfg _ initHash).2⟩
  have hrefl : SameHalfOpen this₁ this₁ ∧ SameEntries this₁ this₁ := ⟨⟨rfl, rfl, rfl, rfl⟩, rfl, rfl⟩
  refine hkeeps _ ?_
  split
  · refine hinit _ _ ?_
    split
    · exact same_removeConnectedPeers cfg this₁ entry _ _ _
    · exact hrefl
  · split
    · exact same_removeConnectedPeers cfg this₁ entry _ _ _
    · exact hrefl

theorem Accounted.forget (h : Accounted cfg role next (entry.marks + taken) this) :
    Accounted cfg role next taken (this.forget cfg entry) := by
  obtain ⟨⟨htable, htotal⟩, htally⟩ := forget_spec cfg entry this
  refine ⟨htable ▸ h.placed, ?_, ?_, htable ▸ h.entries⟩
  · rw [htotal, htable, h.total]
  · rw [htable]
    exact htally _ (by rw [← add_assoc]; exact h.tallied)

/-! ## Calls -/

theorem EntryOk.of_same (h : EntryOk role next entry) (hid : entry'.ikeSaId = entry.ikeSaId)
    (hikeSa : entry'.ikeSa = entry.ikeSa) (hopen : entry'.halfOpen = entry.halfOpen)
    (hother : entry'.other = entry.other) : EntryOk role next entry' :=
  ⟨hikeSa ▸ h.lt, by rw [hid, hikeSa, h.role], by rw [hopen, hother]; exact h.other⟩

theorem Accounted.checkout (h : Accounted cfg role next taken this) {id : IkeSaId}
    {result : Option ℕ × IkeSaManager} (hcheckout : this.checkout cfg id = some result) :
    Accounted cfg role next taken result.2 := by
  unfold IkeSaManager.checkout getEntryById at hcheckout
  obtain ⟨entry, hfind, heq⟩ | ⟨-, heq⟩ :=
    getEntryByMatch_cases cfg this id (IkeSaEntry.matchById · id)
  · rw [heq] at hcheckout
    dsimp only at hcheckout
    obtain ⟨-, hok⟩ := h.entry_ok hfind
    split at hcheckout
    · cases hcheckout
    · cases hcheckout
      exact (h.lock _).unlock _
    · cases hcheckout
      refine Accounted.unlock (Accounted.updateSame (h.lock _) hfind ?_ ?_ ?_) _
      · rfl
      · rfl
      · exact hok.of_same rfl rfl rfl rfl
  · rw [heq] at hcheckout
    cases hcheckout
    exact (h.lock _).unlock _

theorem Accounted.checkoutById (h : Accounted cfg role next taken this) {sas : ℕ → IkeSa} {id : U32}
    {result : Option ℕ × IkeSaManager} (hcheckout : this.checkoutById cfg sas id = some result) :
    Accounted cfg role next taken result.2 := by
  obtain ⟨found, hfound, rfl⟩ := Option.map_eq_some_iff.mp hcheckout
  cases found with
  | none => exact h
  | some item =>
    obtain ⟨row, entry⟩ := item
    have hmem : (row, entry) ∈ this.ikeSaTable :=
      (List.mergeSort_perm _ _).mem_iff.mp (mem_of_checkoutItem hfound)
    obtain ⟨entry', hfind⟩ :=
      Option.isSome_iff_exists.mp (Rows.isSome_find (p := (· = entry)) hmem (by simp))
    obtain rfl : entry' = entry := by simpa using Rows.pred_of_find hfind
    exact h.updateSame hfind rfl rfl ((h.entries _ hmem).of_same rfl rfl rfl rfl)

/-- **The first part of checking in**, under the lock of the segment. -/
theorem Accounted.checkinFirst (h : Accounted cfg role next taken this) {sa : IkeSa} {ikeSa : ℕ}
    (hrole : role ikeSa = sa.id.isInitiatorFlag) (hlt : ikeSa < next) :
    Accounted cfg role next taken (this.checkinFirst cfg sa ikeSa).2 := by
  unfold IkeSaManager.checkinFirst getEntryBySa
  obtain ⟨entry, hfind, heq⟩ | ⟨-, heq⟩ := getEntryByMatch_cases cfg this sa.id (·.ikeSa = ikeSa)
  · rw [heq]
    obtain ⟨-, hok⟩ := h.entry_ok hfind
    have hikeSa : entry.ikeSa = ikeSa := by simpa using Rows.pred_of_find hfind
    have hentryRole : entry.ikeSaId.isInitiatorFlag = sa.id.isInitiatorFlag := by
      rw [hok.role, hikeSa, hrole]
    obtain ⟨hsame, hid, hikeSa', hother, htally⟩ := checkinEntry_spec cfg sa entry
      (this.lockSingleSegment cfg (cfg.idRow sa.id)) hentryRole hok.other
    refine (h.lock _).updateEntry hfind hsame htally (by rw [hid]) ⟨?_, ?_, hother⟩
    · rw [hikeSa']
      exact hok.lt
    · rw [hid, hikeSa', hikeSa, hrole]
  · rw [heq]
    obtain ⟨hsame, hid, hikeSa', hother, htally⟩ := checkinNew_spec cfg sa ikeSa
      ((this.lockSingleSegment cfg (cfg.idRow sa.id)).unlockSingleSegment cfg (cfg.idRow sa.id))
    have hunlocked := (h.lock (cfg.idRow sa.id)).unlock (cfg.idRow sa.id)
    refine Accounted.putEntry ⟨?_, ?_, ?_, ?_⟩
      ⟨by rwa [hikeSa'], by rw [hid, hikeSa', hrole], hother⟩
    · rw [hsame.table]
      exact hunlocked.placed
    · rw [hsame.total, hsame.table]
      exact hunlocked.total
    · rw [hsame.table, add_assoc]
      exact htally _ hunlocked.tallied
    · rw [hsame.table]
      exact hunlocked.entries

/-- **The rest of checking in**: identities are not counted. -/
theorem Accounted.checkinLast (h : Accounted cfg role next taken this) (sa : IkeSa) (ikeSa : ℕ) :
    Accounted cfg role next taken (this.checkinLast cfg sa ikeSa) := by
  unfold IkeSaManager.checkinLast
  cases hfind : this.entryOf cfg sa.id ikeSa with
  | none => exact h
  | some entry =>
    obtain ⟨hmem, hok⟩ := h.entry_ok hfind
    have hrow : cfg.idRow sa.id = cfg.idRow entry.ikeSaId := h.placed _ hmem
    obtain ⟨hsame, hsame'⟩ := same_putConnectedPeers cfg this
      { entry with
        checkedOut := false
        myId := some sa.myId
        otherId := some sa.otherEapId
        other := some (entry.other.getD sa.otherHost) }
      sa.myId sa.otherEapId (entry.other.getD sa.otherHost).family
    refine h.updateEntry hfind hsame' (fun s hs => ?_) hrow.symm ⟨hok.lt, hok.role, fun _ => rfl⟩
    suffices htallied : Tallied cfg _ this from htallied.congr hsame
    by_cases hopen : entry.halfOpen = true
    · obtain ⟨other, hother⟩ := Option.isSome_iff_exists.mp (hok.other hopen)
      have hmarks : IkeSaEntry.marks { entry with
          checkedOut := false
          myId := some sa.myId
          otherId := some sa.otherEapId
          other := some (entry.other.getD sa.otherHost) } = entry.marks := by
        simp [IkeSaEntry.marks, IkeSaEntry.mark, IkeSaEntry.address, hother]
      rwa [hmarks]
    · rw [marks_of_not hopen] at hs
      rwa [marks_of_not (by simpa using hopen)]

theorem Accounted.takeOut (h : Accounted cfg role next taken this)
    (hfind : Rows.find row pred this.ikeSaTable = some entry) (hok : EntryOk role next entry')
    (hmarks : entry'.marks = entry.marks) (hid : entry'.ikeSaId = entry.ikeSaId) :
    Accounted cfg role next (entry'.marks + taken)
      ((((this.lockSingleSegment cfg row).updateEntry row pred entry').removeEntry cfg
        entry').unlockSingleSegment cfg row) := by
  have hwritten := (h.lock row).updateSame hfind hmarks hid hok
  have hmem := (Rows.perm_modify hfind fun _ => entry').mem_iff.mpr List.mem_cons_self
  exact (hwritten.removeEntry hmem).unlock row

/-- **What `checkin_and_destroy` takes out of the table** is all that is not counted there. -/
theorem Accounted.checkinAndRemove (h : Accounted cfg role next 0 this) (id : IkeSaId)
    (ikeSa : ℕ) :
    Accounted cfg role next (((this.checkinAndRemove cfg id ikeSa).1.map IkeSaEntry.marks).getD 0)
      (this.checkinAndRemove cfg id ikeSa).2 := by
  unfold IkeSaManager.checkinAndRemove getEntryBySa
  obtain ⟨entry, hfind, heq⟩ | ⟨-, heq⟩ := getEntryByMatch_cases cfg this id (·.ikeSa = ikeSa)
  · rw [heq]
    obtain ⟨-, hok⟩ := h.entry_ok hfind
    dsimp only
    split_ifs
    · refine Accounted.unlock (Accounted.updateSame (h.lock _) hfind ?_ ?_ ?_) _
      · rfl
      · rfl
      · exact hok.of_same rfl rfl rfl rfl
    · rw [← add_zero ((Option.map IkeSaEntry.marks _).getD 0)]
      exact h.takeOut hfind (hok.of_same rfl rfl rfl rfl) rfl rfl
  · rw [heq]
    exact (h.lock _).unlock _

theorem Accounted.checkinAndDestroy (h : Accounted cfg role next 0 this) (id : IkeSaId)
    (ikeSa : ℕ) : Accounted cfg role next 0 (this.checkinAndDestroy cfg id ikeSa) := by
  have hremoved := h.checkinAndRemove id ikeSa
  unfold IkeSaManager.checkinAndDestroy
  generalize this.checkinAndRemove cfg id ikeSa = removed at hremoved ⊢
  obtain ⟨_ | entry, this'⟩ := removed
  · exact hremoved
  · have hmarks : Accounted cfg role next (entry.marks + 0) this' := by
      rw [add_zero]
      exact hremoved
    exact hmarks.forget

theorem Accounted.flush (h : Accounted cfg role next taken this) :
    Accounted cfg role next taken this.flush := by
  have hmarks : marksOf this.flush.ikeSaTable = marksOf this.ikeSaTable := by
    unfold marksOf Rows.sumOf IkeSaManager.flush
    rw [List.map_map]
    rfl
  refine ⟨?_, ?_, ?_, ?_⟩
  · intro item hitem
    obtain ⟨before, hbefore, rfl⟩ := List.mem_map.mp hitem
    exact h.placed before hbefore
  · change this.totalSaCount = (List.length (List.map _ _) : ℤ)
    rw [List.length_map, h.total]
  · rw [hmarks]
    exact h.tallied.congr ⟨rfl, rfl, rfl, rfl⟩
  · intro item hitem
    obtain ⟨before, hbefore, rfl⟩ := List.mem_map.mp hitem
    exact (h.entries before hbefore).of_same rfl rfl rfl rfl

/-- **An entry is destroyed at the end**: it is forgotten, and then taken out of the table. -/
theorem Accounted.removeEntryAt (h : Accounted cfg role next taken this) {item : ℕ × IkeSaEntry}
    (hitem : item ∈ this.ikeSaTable) :
    Accounted cfg role next taken { this.forget cfg item.2 with
      ikeSaTable := (this.forget cfg item.2).ikeSaTable.erase item
      totalSaCount := (this.forget cfg item.2).totalSaCount - 1 } := by
  obtain ⟨⟨htable, htotal⟩, htally⟩ := forget_spec cfg item.2 this
  have hperm := List.perm_cons_erase hitem
  refine ⟨fun item' hitem' => ?_, ?_, ?_, fun item' hitem' => ?_⟩
  · rw [htable] at hitem'
    exact h.placed item' (List.mem_of_mem_erase hitem')
  · have hlength := hperm.length_eq
    rw [List.length_cons] at hlength
    change (this.forget cfg item.2).totalSaCount - 1 = _
    rw [htotal, htable, h.total, hlength]
    push_cast
    ring
  · have ht := h.tallied
    rw [marksOf, Rows.sumOf_perm _ hperm, Rows.sumOf_cons, add_left_comm] at ht
    rw [htable]
    exact (htally _ ht).congr ⟨rfl, rfl, rfl, rfl⟩
  · rw [htable] at hitem'
    exact h.entries item' (List.mem_of_mem_erase hitem')

theorem Accounted.destroyAllEntries (h : Accounted cfg role next taken this) :
    Accounted cfg role next taken (this.destroyAllEntries cfg) := by
  unfold IkeSaManager.destroyAllEntries
  have hall : (this.enumerate cfg).Perm this.ikeSaTable := List.mergeSort_perm _ _
  generalize this.enumerate cfg = items at hall ⊢
  -- what is left to destroy is what is left in the table
  induction items generalizing this with
  | nil => exact h
  | cons item items ih =>
    have hitem : item ∈ this.ikeSaTable := hall.mem_iff.mp List.mem_cons_self
    refine ih (h.removeEntryAt hitem) ?_
    change items.Perm ((this.forget cfg item.2).ikeSaTable.erase item)
    rw [(forget_spec cfg item.2 this).1.table]
    exact (List.cons_perm_iff_perm_erase.mp hall).2

theorem Accounted.roles (h : Accounted cfg role next taken this) {role' : ℕ → Bool} {next' : ℕ}
    (hrole : ∀ ikeSa < next, role' ikeSa = role ikeSa) (hle : next ≤ next') :
    Accounted cfg role' next' taken this := by
  refine ⟨h.placed, h.total, h.tallied, fun item hitem => ?_⟩
  obtain ⟨hlt, hrole', hother⟩ := h.entries item hitem
  exact ⟨hlt.trans_le hle, by rw [hrole', hrole _ hlt], hother⟩

end IkeSaManager

/-! ## Runs -/

namespace ManagerWorld

open IkeSaManager

variable {cfg : ManagerConfig} {this : ManagerWorld}

/-- **The manager counts its entries** by the roles of their IKE_SAs. -/
def Counted (cfg : ManagerConfig) (this : ManagerWorld) : Prop :=
  Accounted cfg (fun ikeSa => (this.sas ikeSa).id.isInitiatorFlag) this.next 0 this.manager

theorem roles_update (sas : ℕ → IkeSa) {ikeSa : ℕ} {sa : IkeSa}
    (hrole : sa.id.isInitiatorFlag = (sas ikeSa).id.isInitiatorFlag) (other : ℕ) :
    (Function.update sas ikeSa sa other).id.isInitiatorFlag = (sas other).id.isInitiatorFlag := by
  by_cases h : other = ikeSa
  · subst h
    rw [Function.update_self, hrole]
  · rw [Function.update_of_ne h]

theorem Counted.allocate (h : Counted cfg this) (sa : IkeSa) : Counted cfg (this.allocate sa) := by
  refine Accounted.roles h (fun ikeSa hlt => ?_) (Nat.le_succ _)
  change (Function.update this.sas this.next sa ikeSa).id.isInitiatorFlag = _
  rw [Function.update_of_ne hlt.ne]

theorem Counted.checkoutNew (h : Counted cfg this) (version : IkeVersion) (initiator : Bool)
    (spi : U64) (uniqueId : U32) :
    Counted cfg (this.checkoutNew version initiator spi uniqueId) := by
  unfold ManagerWorld.checkoutNew
  dsimp only
  split_ifs
  · exact h
  all_goals exact h.allocate _

theorem Counted.with_manager {manager : IkeSaManager} (h : Counted cfg this)
    (hsame : SameHalfOpen this.manager manager ∧ SameEntries this.manager manager) :
    Counted cfg { this with manager } :=
  Accounted.congr h hsame.2 hsame.1

theorem Counted.createByMessage (h : Counted cfg this) (message : Message) (version : IkeVersion)
    (hash : Chunk) (ourSpi : U64) (uniqueId : Option U32) :
    Counted cfg (this.createByMessage cfg message version hash ourSpi uniqueId).2 := by
  have hremoved : Counted cfg { this with manager := this.manager.removeInitHash cfg hash } :=
    h.with_manager (same_removeInitHash cfg this.manager hash)
  unfold ManagerWorld.createByMessage
  dsimp only
  split_ifs
  · cases uniqueId with
    | none => exact hremoved
    | some uniqueId =>
      have hallocated := h.allocate
        (ikeSaCreate { message.localId with responderSpi := ourSpi } version uniqueId)
      change Accounted cfg _ (this.next + 1) 0
        ((this.manager.putEntry cfg _).unlockSingleSegment cfg _)
      refine Accounted.unlock (Accounted.putEntry ?_ ⟨?_, ?_, ?_⟩) _
      · exact (zero_add (0 : Multiset (Chunk × Bool))).symm ▸ hallocated
      · exact Nat.lt_succ_self this.next
      · change _ = (Function.update this.sas this.next _ this.next).id.isInitiatorFlag
        rw [Function.update_self]
        rfl
      · intro hopen
        cases hopen
  · exact hremoved

theorem Counted.lookupByMessage (h : Counted cfg this) {message : Message} {id : IkeSaId}
    {result : Option ℕ × ManagerWorld}
    (hlookup : this.lookupByMessage cfg message id = some result) : Counted cfg result.2 := by
  unfold ManagerWorld.lookupByMessage getEntryById at hlookup
  obtain ⟨entry, hfind, heq⟩ | ⟨-, heq⟩ :=
    getEntryByMatch_cases cfg this.manager id (IkeSaEntry.matchById · id)
  · rw [heq] at hlookup
    dsimp only at hlookup
    obtain ⟨-, hok⟩ := Accounted.entry_ok h hfind
    have hunlocked := (Accounted.lock h (cfg.idRow id)).unlock (cfg.idRow id)
    split_ifs at hlookup
    · cases hlookup
      exact hunlocked
    all_goals
      split at hlookup
      · cases hlookup
      · cases hlookup
        exact hunlocked
      · cases hlookup
        refine Accounted.roles (Accounted.unlock (Accounted.updateSame (Accounted.lock h _)
          hfind ?_ ?_ ?_) _) (fun other _ => roles_update _ ?_ other) le_rfl
        · rfl
        · rfl
        · exact hok.of_same rfl rfl rfl rfl
        · simp
  · rw [heq] at hlookup
    cases hlookup
    exact (Accounted.lock h _).unlock _

theorem Counted.checkoutByMessage (h : Counted cfg this) {message : Message} {spi : U64}
    {uniqueId : Option U32} {result : Option ℕ × ManagerWorld}
    (hcheckout : this.checkoutByMessage cfg message spi uniqueId = some result) :
    Counted cfg result.2 := by
  unfold ManagerWorld.checkoutByMessage at hcheckout
  split at hcheckout
  · exact h.lookupByMessage hcheckout
  · rename_i version _
    split at hcheckout
    · cases hcheckout
      exact h
    · rename_i hash _
      have hchecked := h.with_manager (same_checkAndPutInitHash cfg this.manager hash spi)
      generalize this.manager.checkAndPutInitHash cfg hash spi = checked at hchecked hcheckout
      obtain ⟨status, ourSpi, manager⟩ := checked
      dsimp only at hchecked hcheckout
      split at hcheckout
      · rename_i heq
        cases heq
        cases hcheckout
        exact hchecked.createByMessage message version hash _ uniqueId
      · rename_i heq
        cases heq
        cases hcheckout
        exact hchecked
      · rename_i heq
        cases heq
        exact hchecked.lookupByMessage hcheckout

theorem Counted.newInitiatorSpi (h : Counted cfg this) (ikeSa : ℕ) (current : Option ℕ) (spi : U64) :
    Counted cfg (this.newInitiatorSpi cfg ikeSa current spi).2 := by
  unfold ManagerWorld.newInitiatorSpi getEntryBySa
  dsimp only
  split_ifs
  iterate 4 exact h
  obtain ⟨entry, hfind, heq⟩ | ⟨-, heq⟩ :=
    getEntryByMatch_cases cfg this.manager (this.sas ikeSa).id (·.ikeSa = ikeSa)
  · rw [heq]
    obtain ⟨-, hok⟩ := Accounted.entry_ok h hfind
    obtain rfl : entry.ikeSa = ikeSa := by simpa using Rows.pred_of_find hfind
    dsimp only
    split_ifs
    · exact (Accounted.lock h _).unlock _
    · have hok' : EntryOk _ this.next
          { entry with driveoutWaitingThreads := true, driveoutNewThreads := true } :=
        hok.of_same rfl rfl rfl rfl
      have htaken := Accounted.takeOut h hfind hok' rfl rfl
      have hroles := roles_update this.sas
        ((this.sas entry.ikeSa).role_apply (.setInitiatorSpi spi))
      have hid : ((this.sas entry.ikeSa).apply (.setInitiatorSpi spi)).id.isInitiatorFlag =
          entry.ikeSaId.isInitiatorFlag := by rw [IkeSa.role_apply, hok.role]
      have hmarks : IkeSaEntry.marks { entry with
          ikeSaId := ((this.sas entry.ikeSa).apply (.setInitiatorSpi spi)).id
          driveoutWaitingThreads := false
          driveoutNewThreads := false } = entry.marks := by
        simp only [IkeSaEntry.marks, IkeSaEntry.mark, IkeSaEntry.address, hid]
      refine Accounted.unlock (Accounted.putEntry (Accounted.roles ?_
        (fun other _ => hroles other) le_rfl) ?_) _
      · rw [hmarks]
        exact htaken
      · exact ⟨hok.lt, by rw [hroles]; exact IkeSa.role_apply _ _, hok.other⟩
  · rw [heq]
    exact (Accounted.lock h _).unlock _

theorem Counted.checkin (h : Counted cfg this) {ikeSa : ℕ} (hlt : ikeSa < this.next) :
    Counted cfg (this.checkin cfg ikeSa) := by
  have hfirst : Accounted cfg _ _ _ (this.manager.checkinFirst cfg (this.sas ikeSa) ikeSa).2 :=
    Accounted.checkinFirst h rfl hlt
  unfold ManagerWorld.checkin
  dsimp only
  generalize this.manager.checkinFirst cfg (this.sas ikeSa) ikeSa = first at hfirst ⊢
  obtain ⟨applies, manager⟩ := first
  cases applies with
  | true =>
    dsimp only at hfirst ⊢
    split_ifs
    · cases hentry : manager.entryOf cfg (this.sas ikeSa).id ikeSa with
      | none => exact hfirst.unlock _
      | some entry =>
        obtain ⟨-, hok⟩ := hfirst.entry_ok hentry
        refine Accounted.unlock (Accounted.updateSame hfirst hentry ?_ ?_ ?_) _
        · rfl
        · rfl
        · exact hok.of_same rfl rfl rfl rfl
    · exact (hfirst.checkinLast _ _).unlock _
  | false => exact hfirst.unlock _

theorem Counted.checkinContacted (h : Counted cfg this) (ikeSa : ℕ) :
    Counted cfg (this.checkinContacted cfg ikeSa) :=
  Accounted.roles (Accounted.checkinLast h _ _)
    (fun other _ => roles_update _ (IkeSa.role_apply _ _) other) le_rfl

/-- **Every call keeps the counters exact.** -/
theorem Counted.call (h : Counted cfg this) {call : ManagerCall} {this' : ManagerWorld}
    (hcall : this.call cfg call = some this') : Counted cfg this' := by
  cases call with
  | change ikeSa change =>
    cases hcall
    exact Accounted.roles h (fun other _ => roles_update _ (IkeSa.role_apply _ _) other) le_rfl
  | checkout id =>
    obtain ⟨result, hresult, rfl⟩ := Option.map_eq_some_iff.mp hcall
    exact Accounted.checkout h hresult
  | checkoutNew version initiator spi uniqueId =>
    cases hcall
    exact h.checkoutNew version initiator spi uniqueId
  | checkoutByMessage message spi uniqueId =>
    obtain ⟨result, hresult, rfl⟩ := Option.map_eq_some_iff.mp hcall
    exact h.checkoutByMessage hresult
  | checkoutById id =>
    obtain ⟨result, hresult, rfl⟩ := Option.map_eq_some_iff.mp hcall
    exact Accounted.checkoutById h hresult
  | newInitiatorSpi ikeSa current spi =>
    cases hcall
    exact h.newInitiatorSpi ikeSa current spi
  | checkin ikeSa =>
    obtain ⟨hlt, heq⟩ := Option.ite_none_right_eq_some.mp hcall
    cases heq
    exact h.checkin hlt
  | checkinContacted ikeSa =>
    obtain ⟨-, heq⟩ := Option.ite_none_right_eq_some.mp hcall
    cases heq
    exact h.checkinContacted ikeSa
  | checkinAndDestroy ikeSa =>
    cases hcall
    exact Accounted.checkinAndDestroy h _ ikeSa
  | flush =>
    cases hcall
    exact Accounted.flush h
  | flushed =>
    obtain ⟨-, heq⟩ := Option.ite_none_right_eq_some.mp hcall
    cases heq
    exact Accounted.destroyAllEntries h

theorem counted_of_run {calls : List ManagerCall} (h : LTS.Run (managerSystem cfg) calls this) :
    Counted cfg this := by
  refine h.invariant ?_ fun hcounted hstep => hcounted.call hstep
  rintro this ⟨hmanager, -⟩
  unfold Counted
  rw [hmanager]
  exact ⟨fun item hitem => (by cases hitem), rfl, tallied_create, fun item hitem => (by cases hitem)⟩

/-! ## What the counters are -/

/-- The managed entries that are flagged. -/
def halfOpenEntries (this : ManagerWorld) : List IkeSaEntry :=
  (this.manager.ikeSaTable.map Prod.snd).filter IkeSaEntry.halfOpen

def isResponder (this : ManagerWorld) (entry : IkeSaEntry) : Bool :=
  !(this.sas entry.ikeSa).id.isInitiatorFlag

/-- **All counters are those of the managed entries.** -/
structure HalfOpenExact (cfg : ManagerConfig) (this : ManagerWorld) : Prop where
  halfOpenCount : this.manager.halfOpenCount = this.halfOpenEntries.length
  halfOpenCountResponder :
    this.manager.halfOpenCountResponder = this.halfOpenEntries.countP this.isResponder
  /-- the records of addresses -/
  record : ∀ item ∈ this.manager.halfOpenTable,
    item.2.count = this.halfOpenEntries.countP (·.address = item.2.other) ∧
    item.2.countResponder = this.halfOpenEntries.countP
      (fun entry => entry.address = item.2.other && this.isResponder entry) ∧
    0 < item.2.count
  recorded : ∀ address, (∃ item ∈ this.manager.halfOpenTable, item.2.other = address) ↔
    ∃ entry ∈ this.halfOpenEntries, entry.address = address
  nodup : (this.manager.halfOpenTable.map (·.2.other)).Nodup
  sum : (this.manager.halfOpenTable.map (·.2.count)).sum = this.manager.halfOpenCount
  sumResponder :
    (this.manager.halfOpenTable.map (·.2.countResponder)).sum = this.manager.halfOpenCountResponder
  /-- what `get_half_open_count` returns for an address -/
  getHalfOpenCount : ∀ ip : Host,
    this.manager.getHalfOpenCount cfg (some ip) false =
      this.halfOpenEntries.countP (·.address = ip.address) ∧
    this.manager.getHalfOpenCount cfg (some ip) true = this.halfOpenEntries.countP
      (fun entry => entry.address = ip.address && this.isResponder entry)
  segments : ∀ i, 0 ≤ this.manager.halfOpenSegments i
  totalSaCount : this.manager.totalSaCount = this.manager.ikeSaTable.length

theorem marksOf_eq (table : List (ℕ × IkeSaEntry)) :
    marksOf table = (((table.map Prod.snd).filter IkeSaEntry.halfOpen).map IkeSaEntry.mark :
      List (Chunk × Bool)) := by
  induction table with
  | nil => rfl
  | cons item table ih =>
    rw [marksOf, Rows.sumOf_cons, ← marksOf, ih, List.map_cons, List.filter_cons]
    cases hopen : item.2.halfOpen
    · simp [IkeSaEntry.marks, hopen]
    · simp [IkeSaEntry.marks, hopen]

theorem countP_marksOf (this : ManagerWorld) {p : Chunk × Bool → Prop} [DecidablePred p]
    {q : IkeSaEntry → Bool} (h : ∀ entry ∈ this.halfOpenEntries, p entry.mark ↔ q entry = true) :
    (marksOf this.manager.ikeSaTable).countP p = this.halfOpenEntries.countP q := by
  rw [marksOf_eq, Multiset.coe_countP, List.countP_map]
  refine List.countP_congr fun entry hentry => ?_
  rw [Function.comp_apply, decide_eq_true_eq]
  exact h entry hentry

theorem hasAddress_marksOf (this : ManagerWorld) (addr : Chunk) :
    HasAddress (marksOf this.manager.ikeSaTable) addr ↔
      ∃ entry ∈ this.halfOpenEntries, entry.address = addr := by
  unfold HasAddress
  rw [marksOf_eq]
  simp only [Multiset.mem_coe, List.mem_map]
  constructor
  · rintro ⟨_, ⟨entry, hentry, rfl⟩, heq⟩
    exact ⟨entry, hentry, heq⟩
  · rintro ⟨entry, hentry, heq⟩
    exact ⟨entry.mark, ⟨entry, hentry, rfl⟩, heq⟩

/-- **In every reachable state the half-open IKE_SAs are counted exactly**, and all IKE_SAs. -/
theorem halfOpen_exact {calls : List ManagerCall} (h : LTS.Run (managerSystem cfg) calls this) :
    HalfOpenExact cfg this := by
  obtain ⟨-, htotal, htally, hentries⟩ := counted_of_run h
  rw [zero_add] at htally
  have hmark : ∀ entry ∈ this.halfOpenEntries, entry.mark.2 = this.isResponder entry := by
    intro entry hentry
    obtain ⟨item, hitem, rfl⟩ := List.mem_map.mp (List.mem_of_mem_filter hentry)
    exact congrArg not (hentries item hitem).role
  have hcount : ∀ addr, (recordOf (marksOf this.manager.ikeSaTable) addr).count =
      this.halfOpenEntries.countP (·.address = addr) := fun addr =>
    congrArg Nat.cast (countP_marksOf this fun entry _ => by simp [IkeSaEntry.mark])
  have hcountResponder : ∀ addr,
      (recordOf (marksOf this.manager.ikeSaTable) addr).countResponder =
        this.halfOpenEntries.countP
          fun entry => entry.address = addr && this.isResponder entry := fun addr =>
    congrArg Nat.cast (countP_marksOf this fun entry hentry => by
      rw [hmark entry hentry]
      simp [IkeSaEntry.mark])
  have hsum := htally.recorded.sum
  refine ⟨?_, ?_, fun item hitem => ?_, fun addr => ?_, htally.recorded.nodup, ?_, ?_, fun ip => ?_,
    fun i => ?_, htotal⟩
  · rw [htally.halfOpenCount, marksOf_eq, Multiset.coe_card, List.length_map]
    rfl
  · rw [htally.halfOpenCountResponder]
    exact congrArg Nat.cast (countP_marksOf this fun entry hentry => by rw [hmark entry hentry])
  · have hrecord : item.2 = recordOf _ item.2.other :=
      congrArg Prod.snd (htally.recorded.record item hitem).2
    have hpos : item.2.count ≠ 0 := by
      rw [hrecord, Ne, count_recordOf, not_not, ← htally.recorded.complete _ id]
      exact ⟨item, hitem, rfl⟩
    rw [← hcount, ← hcountResponder, ← hrecord]
    refine ⟨rfl, rfl, lt_of_le_of_ne ?_ hpos.symm⟩
    rw [hrecord]
    exact Int.natCast_nonneg _
  · rw [htally.recorded.complete _ id, hasAddress_marksOf]
  · rw [hsum.1, htally.halfOpenCount]
  · rw [hsum.2, htally.halfOpenCountResponder]
  · rw [← hcount, ← hcountResponder]
    unfold IkeSaManager.getHalfOpenCount
    dsimp only
    obtain ⟨hhas, -, hfind⟩ | ⟨-, -, -, -, hfind, -⟩ := htally.recorded.cases ip.address
    · rw [hfind, recordOf_of_not hhas]
      exact ⟨rfl, rfl⟩
    · rw [hfind]
      exact ⟨rfl, rfl⟩
  · rw [htally.segments i]
    exact Int.natCast_nonneg _

/-- A manager without a hasher or a limit, all in one row. -/
def singleRow : ManagerConfig where
  tableMask := 0
  segmentMask := 0
  key := []
  sha1 _ := none
  ikesaLimit := 0

/-- A new manager. -/
def created : ManagerWorld where
  manager := ikeSaManagerCreate
  sas _ := ikeSaCreate ⟨ikev2MajorVersion, 0, 0, true⟩ .ikev2 0
  next := 0
  contacting := []

/-- We initiate an IKE_SA. -/
def initiating : List ManagerCall :=
  [.checkoutNew .ikev2 true 1 1, .change 0 (.setState .connecting), .checkin 0]

/-- The IKE_SA that we initiate is counted. -/
theorem halfOpen_exact_initiating : ∃ this, LTS.Run (managerSystem singleRow) initiating this ∧
    HalfOpenExact singleRow this ∧ this.manager.halfOpenCount = 1 := by
  have hrun : LTS.Run (managerSystem singleRow) initiating
      ((initiating.foldlM (ManagerWorld.call singleRow) created).get rfl) :=
    ⟨created, ⟨rfl, rfl⟩, LTS.steps_ofOption.mpr (Option.some_get _).symm⟩
  exact ⟨_, hrun, halfOpen_exact hrun, rfl⟩

end ManagerWorld

end StrongSwan
