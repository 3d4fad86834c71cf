import StrongSwan.Ipsec.SaMgr.Triples

/-!
# SPIs are not handed out twice

* `candidate`, `InRange`: the SPI that `get_spi` makes of a random number.
* `Keeps`: sections other than those of `get_spi` and `add_sa` keep the table of allocated SPIs.
* `Reservations`: the manager with the SPIs that are reserved; `account` says what a call changes.
* `getSpiLoop_spec`: the first random number that gives an available SPI decides.
* **`spis_exact`**: what `get_spi` returns was available, and every available SPI of the range can be
  returned.
-/

namespace StrongSwan

namespace SaMgr

/-! ## Candidates -/

/-- The range that is configured, in order and above the reserved SPIs. -/
def spiRange (spiMin spiMax : U32) : U32 × U32 :=
  let (spiMin, spiMax) := if spiMin > spiMax then (spiMax, spiMin) else (spiMin, spiMax)
  (umax spiMin 0x100, umax spiMax 0x100)

/-- What the random number is divided by. -/
def divisor (range : U32 × U32) : U32 := range.2 - range.1 + 1

/-- The SPI of a random number. -/
def candidate (range : U32 × U32) (spiNew : U32) : U32 := htonl (range.1 + spiNew % divisor range)

/-- The SPI is in the range that was configured, and not in the range 0-255. -/
def InRange (spiMin spiMax spi : U32) : Prop :=
  0x100 ≤ (ntohl spi).toNat ∧ min spiMin.toNat spiMax.toNat ≤ (ntohl spi).toNat ∧
    (ntohl spi).toNat ≤ max spiMin.toNat spiMax.toNat

theorem toNat_spiRange (spiMin spiMax : U32) :
    (spiRange spiMin spiMax).1.toNat = max (min spiMin.toNat spiMax.toNat) 0x100 ∧
      (spiRange spiMin spiMax).2.toNat = max (max spiMin.toNat spiMax.toNat) 0x100 := by
  have hlow : (0x100 : U32).toNat = 0x100 := rfl
  unfold spiRange
  split_ifs with h <;> rw [gt_iff_lt, BitVec.lt_def] at h <;> dsimp only <;>
    rw [toNat_umax, toNat_umax, hlow] <;> omega

theorem spiRange_le (spiMin spiMax : U32) : 0x100 ≤ (spiRange spiMin spiMax).1.toNat ∧
    (spiRange spiMin spiMax).1.toNat ≤ (spiRange spiMin spiMax).2.toNat := by
  obtain ⟨hmin, hmax⟩ := toNat_spiRange spiMin spiMax
  rw [hmin, hmax]
  exact ⟨le_max_right _ _, max_le_max min_le_max le_rfl⟩

theorem toNat_divisor (spiMin spiMax : U32) : (divisor (spiRange spiMin spiMax)).toNat =
    (spiRange spiMin spiMax).2.toNat - (spiRange spiMin spiMax).1.toNat + 1 := by
  obtain ⟨hlow, hle⟩ := spiRange_le spiMin spiMax
  have hlt := (spiRange spiMin spiMax).2.isLt
  have hone : (1 : U32).toNat = 1 := rfl
  unfold divisor
  rw [BitVec.toNat_add, BitVec.toNat_sub, hone]
  omega

theorem divisor_ne_zero (spiMin spiMax : U32) : divisor (spiRange spiMin spiMax) ≠ 0 := by
  intro h
  have hnat := toNat_divisor spiMin spiMax
  have hzero : (0 : U32).toNat = 0 := rfl
  rw [h, hzero] at hnat
  omega

theorem ntohl_htonl (n : U32) : ntohl (htonl n) = n := htonl_ntohl n

theorem toNat_candidate (spiMin spiMax spiNew : U32) :
    (ntohl (candidate (spiRange spiMin spiMax) spiNew)).toNat =
      (spiRange spiMin spiMax).1.toNat +
        spiNew.toNat % ((spiRange spiMin spiMax).2.toNat - (spiRange spiMin spiMax).1.toNat + 1) := by
  obtain ⟨hlow, hle⟩ := spiRange_le spiMin spiMax
  have hlt := (spiRange spiMin spiMax).2.isLt
  have hmod := Nat.mod_lt spiNew.toNat
    (show 0 < (spiRange spiMin spiMax).2.toNat - (spiRange spiMin spiMax).1.toNat + 1 by omega)
  rw [candidate, ntohl_htonl, BitVec.toNat_add, BitVec.toNat_umod, toNat_divisor]
  omega

/-- **Candidates are in the range**, if it has an SPI at all. -/
theorem inRange_candidate {spiMin spiMax : U32} (h : 0x100 ≤ max spiMin.toNat spiMax.toNat)
    (spiNew : U32) : InRange spiMin spiMax (candidate (spiRange spiMin spiMax) spiNew) := by
  obtain ⟨hmin, hmax⟩ := toNat_spiRange spiMin spiMax
  have hmod := Nat.mod_lt spiNew.toNat
    (show 0 < (spiRange spiMin spiMax).2.toNat - (spiRange spiMin spiMax).1.toNat + 1 by omega)
  unfold InRange
  rw [toNat_candidate]
  omega

theorem exists_candidate {spiMin spiMax spi : U32} (h : InRange spiMin spiMax spi) :
    ∃ spiNew, candidate (spiRange spiMin spiMax) spiNew = spi := by
  obtain ⟨hlow, hge, hle⟩ := h
  obtain ⟨hmin, hmax⟩ := toNat_spiRange spiMin spiMax
  have hlt := (ntohl spi).isLt
  refine ⟨ntohl spi - (spiRange spiMin spiMax).1, ?_⟩
  have hsub : (ntohl spi - (spiRange spiMin spiMax).1).toNat =
      (ntohl spi).toNat - (spiRange spiMin spiMax).1.toNat := by
    rw [BitVec.toNat_sub]
    omega
  have heq : ntohl (candidate (spiRange spiMin spiMax) (ntohl spi - (spiRange spiMin spiMax).1)) =
      ntohl spi := by
    rw [← BitVec.toNat_inj, toNat_candidate, hsub, Nat.mod_eq_of_lt (by omega)]
    omega
  rw [← htonl_ntohl (candidate _ _), heq, htonl_ntohl]

/-! ## Sections that keep the table -/

section Keeps

/-- The rest of a section keeps the table of allocated SPIs. -/
def Keeps (spis : Hashtable U32 U32) (x : Option (SaMgr × Pc)) : Prop :=
  ∀ left, x = some left → left.1.allocatedSpis = spis

variable {spis : Hashtable U32 U32} {m : SaMgr} {k : ℕ}

theorem Keeps.leave {pc : Pc} (h : m.allocatedSpis = spis) : Keeps spis (some (m, pc)) := by
  rintro _ ⟨⟩
  exact h

theorem Keeps.bind {α : Type} {x : Option α} {f : α → Option (SaMgr × Pc)}
    (h : ∀ a, x = some a → Keeps spis (f a)) : Keeps spis (x.bind f) := by
  intro left hleft
  obtain ⟨a, ha, hleft⟩ := Option.bind_eq_some_iff.mp hleft
  exact h a ha left hleft

theorem allocatedSpis_destroyEntry {m' : SaMgr} (h : m.destroyEntry k = some m') :
    m'.allocatedSpis = m.allocatedSpis := by
  obtain ⟨e, -, h⟩ := Option.bind_eq_some_iff.mp h
  cases h
  rfl

theorem allocatedSpis_removeAt {m' : SaMgr} (h : m.removeAt k = some m') :
    m'.allocatedSpis = m.allocatedSpis := by
  obtain ⟨sas, -, h⟩ := Option.bind_eq_some_iff.mp h
  cases h
  rfl

theorem allocatedSpis_waitForEntry {m' : SaMgr} {waited : Waited}
    (h : m.waitForEntry k = some (m', waited)) : m'.allocatedSpis = m.allocatedSpis := by
  obtain ⟨e, -, h⟩ := Option.bind_eq_some_iff.mp h
  split_ifs at h <;> cases h <;> rfl

theorem allocatedSpis_waitRemoveEntry {m' : SaMgr} {removal : Removal}
    (h : m.waitRemoveEntry k = some (m', removal)) : m'.allocatedSpis = m.allocatedSpis := by
  obtain ⟨e, -, h⟩ := Option.bind_eq_some_iff.mp h
  split_ifs at h
  · cases h
    rfl
  · obtain ⟨removal, -, h⟩ := Option.bind_eq_some_iff.mp h
    cases h
    rfl

theorem keeps_lockEntry (h : m.allocatedSpis = spis) (caller : Locker) :
    Keeps spis (m.lockEntry caller k) := by
  refine .bind fun ⟨m', waited⟩ hwaited => ?_
  have h' := (allocatedSpis_waitForEntry hwaited).trans h
  cases waited with
  | waits => exact .leave h'
  | returns locked =>
    cases caller with
    | updateSa newSrc newDst =>
      cases locked with
      | false => exact .leave h'
      | true => exact .bind fun e _ => .leave h'
    | querySa =>
      cases locked with
      | false => exact .leave h'
      | true => exact .bind fun e _ => .leave h'
    | checkout => cases locked <;> exact .leave h'

theorem keeps_flushEntries (h : m.allocatedSpis = spis) (rest : List ℕ) :
    Keeps spis (m.flushEntries rest) := by
  induction rest generalizing m with
  | nil => exact .leave h
  | cons current rest ih =>
    refine .bind fun ⟨m', removal⟩ hremoval => ?_
    have h' := (allocatedSpis_waitRemoveEntry hremoval).trans h
    cases removal with
    | waits loop => exact .leave h'
    | returns removable =>
      cases removable with
      | false => exact ih h'
      | true =>
        refine .bind fun m₁ h₁ => .bind fun m₂ h₂ => ih ?_
        rw [allocatedSpis_destroyEntry h₂, allocatedSpis_removeAt h₁, h']

theorem keeps_afterRemoval (h : m.allocatedSpis = spis) (caller : Deleter) (removal : Removal) :
    Keeps spis (m.afterRemoval caller k removal) := by
  cases removal with
  | waits loop => exact .leave h
  | returns removable =>
    have hremoved : ∀ {m₁ m₂}, m.removeAt k = some m₁ → m₁.destroyEntry k = some m₂ →
        m₂.allocatedSpis = spis := by
      intro m₁ m₂ h₁ h₂
      rw [allocatedSpis_destroyEntry h₂, allocatedSpis_removeAt h₁, h]
    cases caller with
    | flushSas =>
      cases removable with
      | false => exact .bind fun rest _ => keeps_flushEntries h rest
      | true => exact .bind fun rest _ => .bind fun m₁ h₁ => .bind fun m₂ h₂ =>
          keeps_flushEntries (hremoved h₁ h₂) rest
    | delSa =>
      cases removable with
      | false => exact .leave h
      | true => exact .bind fun m₁ h₁ => .leave ((allocatedSpis_removeAt h₁).trans h)
    | saExpired =>
      cases removable with
      | false => exact .leave h
      | true => exact .bind fun m₁ h₁ => .bind fun m₂ h₂ => .leave (hremoved h₁ h₂)

theorem keeps_deleteEntry (h : m.allocatedSpis = spis) (caller : Deleter) :
    Keeps spis (m.deleteEntry caller k) :=
  .bind fun ⟨_, removal⟩ hremoval =>
    keeps_afterRemoval ((allocatedSpis_waitRemoveEntry hremoval).trans h) caller removal

theorem keeps_findFirst (p : ℕ → Sa → Bool) {found : ℕ → Option (SaMgr × Pc)} {result : Result}
    (h : m.allocatedSpis = spis) (hfound : ∀ entry, Keeps spis (found entry)) :
    Keeps spis ((m.findFirst p m.sas).bind fun entry =>
      match entry with
      | some entry => found entry
      | none => some (m, .returned result)) := by
  refine .bind fun entry _ => ?_
  cases entry with
  | none => exact .leave h
  | some entry => exact hfound entry

/-- **Only `get_spi` and `add_sa` change the table.** -/
theorem keeps_call (h : m.allocatedSpis = spis) (call : Call)
    (hget : ∀ spiMin spiMax draws, call ≠ .getSpi spiMin spiMax draws)
    (hadd : ∀ args update, call ≠ .addSa args update) : Keeps spis (m.call createAead call) := by
  have hcheckout : ∀ p, Keeps spis (m.checkout p) := fun p =>
    keeps_findFirst p h fun _ => keeps_lockEntry h _
  cases call with
  | getSpi spiMin spiMax draws => exact absurd rfl (hget spiMin spiMax draws)
  | addSa args update => exact absurd rfl (hadd args update)
  | updateSa spi src dst newSrc newDst newEncap =>
    cases newEncap with
    | false => exact .leave h
    | true => exact keeps_findFirst _ h fun _ => keeps_lockEntry h _
  | querySa src dst spi => exact keeps_findFirst _ h fun _ => keeps_lockEntry h _
  | delSa src dst spi => exact keeps_findFirst _ h fun _ => keeps_deleteEntry h _
  | checkoutByReqid reqid inbound => exact hcheckout _
  | checkoutBySpi spi dst => exact hcheckout _
  | flushSas => exact keeps_flushEntries h _
  | saExpired entry spi hardOffset =>
    change Keeps spis (m.saExpired entry spi hardOffset)
    unfold saExpired
    split
    · exact .leave h
    · refine .bind fun e _ => ?_
      split
      · exact .leave h
      · dsimp only
        split
        · exact .leave h
        · refine keeps_deleteEntry ?_ _
          exact h

theorem keeps_resumeWaitForEntry (h : m.allocatedSpis = spis) (caller : Locker) :
    Keeps spis (m.resumeWaitForEntry caller k) := by
  refine .bind fun e _ => keeps_lockEntry ?_ caller
  exact h

theorem keeps_resumeWaitRemoveEntry (h : m.allocatedSpis = spis) (caller : Deleter)
    (loop : RemoveLoop) : Keeps spis (m.resumeWaitRemoveEntry caller loop k) := by
  cases loop <;> exact .bind fun _ _ => keeps_afterRemoval h caller _

theorem keeps_destroyFound (h : m.allocatedSpis = spis) : Keeps spis (m.destroyFound k) :=
  .bind fun _ hm => .leave ((allocatedSpis_destroyEntry hm).trans h)

end Keeps

/-! ## Available SPIs -/

/-- The SPI is neither allocated nor that of an installed inbound SA. -/
def Available (m : SaMgr) (reserved : Multiset U32) (spi : U32) : Prop :=
  spi ∉ reserved ∧ ∀ k ∈ m.sas, ∀ e, m.entries k = some e → e.sa.inbound = true → e.sa.spi ≠ spi

structure Allocated (m : SaMgr) (reserved : Multiset U32) : Prop where
  index : m.allocatedSpis.Index reserved
  equals : ∀ a b, m.allocatedSpis.equals a b = true ↔ a = b

section Sections

variable {m : SaMgr} {reserved : Multiset U32} {spi : U32}

theorem Allocated.get_isSome_iff (h : Allocated m reserved) :
    (m.allocatedSpis.get spi).isSome = true ↔ spi ∈ reserved := by
  rw [Option.isSome_iff_exists]
  constructor
  · rintro ⟨v, hv⟩
    obtain ⟨hmem, heq⟩ := h.index.get_eq_some_iff.mp hv
    rw [(h.equals _ _).mp heq]
    exact hmem
  · exact fun hmem => ⟨spi, h.index.get_eq_some_iff.mpr ⟨hmem, (h.equals _ _).mpr rfl⟩⟩

/-- **An SPI is allocated exactly if it is available.** -/
theorem allocateSpi_spec (h : Allocated m reserved) (hsas : ∀ k ∈ m.sas, ∃ e, m.entries k = some e)
    (spi : U32) :
    (¬Available m reserved spi ∧ m.allocateSpi spi = some (false, m)) ∨
      Available m reserved spi ∧ m.allocateSpi spi =
        some (true, { m with allocatedSpis := (m.allocatedSpis.put spi spi).2 }) := by
  obtain ⟨found, hfound, hsome, hnone⟩ := findFirst_spec
    (p := fun _ sa => sa.spi = spi && sa.inbound = true) hsas
  by_cases hget : (m.allocatedSpis.get spi).isSome = true
  · refine .inl ⟨fun havail => havail.1 (h.get_isSome_iff.mp hget), ?_⟩
    rw [allocateSpi, if_pos hget]
  · rw [allocateSpi, if_neg hget, hfound]
    cases found with
    | some k =>
      obtain ⟨hk, e, he, heq⟩ := hsome k rfl
      simp only [Bool.decide_eq_true, Bool.and_eq_true, decide_eq_true_eq] at heq
      exact .inl ⟨fun havail => havail.2 k hk e he heq.2 heq.1, rfl⟩
    | none =>
      refine .inr ⟨⟨fun hmem => hget (h.get_isSome_iff.mpr hmem), fun k hk e he hin hspi => ?_⟩, rfl⟩
      have hno := hnone rfl k hk e he
      rw [hspi, hin] at hno
      simp at hno

/-- What the loop of `get_spi` does with the numbers of the RNG. -/
inductive Drawn (m : SaMgr) (reserved : Multiset U32) (range : U32 × U32) (draws : List U32) :
    SaMgr × Pc → Prop
  | fails (h : ∀ spiNew ∈ draws, ¬Available m reserved (candidate range spiNew)) :
      Drawn m reserved range draws (m, .returned (.status .failed))
  | allocates (taken rest : List U32) (spiNew : U32) (hdraws : draws = taken ++ spiNew :: rest)
      (htaken : ∀ spiNew ∈ taken, ¬Available m reserved (candidate range spiNew))
      (havail : Available m reserved (candidate range spiNew)) :
      Drawn m reserved range draws
        ({ m with allocatedSpis :=
            (m.allocatedSpis.put (candidate range spiNew) (candidate range spiNew)).2 },
          .returned (.spi (candidate range spiNew)))

/-- **The first number that gives an available SPI decides.** -/
theorem getSpiLoop_spec (h : Allocated m reserved) (hsas : ∀ k ∈ m.sas, ∃ e, m.entries k = some e)
    (range : U32 × U32) (draws : List U32) :
    ∃ left, m.getSpiLoop range.1 range.2 draws = some left ∧ Drawn m reserved range draws left := by
  induction draws with
  | nil => exact ⟨_, rfl, .fails nofun⟩
  | cons spiNew draws ih =>
    have hcandidate : htonl (range.1 + spiNew % (range.2 - range.1 + 1)) = candidate range spiNew := rfl
    rw [getSpiLoop, hcandidate]
    obtain ⟨havail, hallocate⟩ | ⟨havail, hallocate⟩ :=
      allocateSpi_spec h hsas (candidate range spiNew)
    · rw [hallocate]
      obtain ⟨left, hleft, hdrawn⟩ := ih
      refine ⟨left, hleft, ?_⟩
      cases hdrawn with
      | fails hall => exact .fails (List.forall_mem_cons.mpr ⟨havail, hall⟩)
      | allocates taken rest spi' hdraws htaken havail' =>
        exact .allocates (spiNew :: taken) rest spi' (congrArg (spiNew :: ·) hdraws)
          (List.forall_mem_cons.mpr ⟨havail, htaken⟩) havail'
    · rw [hallocate]
      exact ⟨_, rfl, .allocates [] draws spiNew rfl nofun havail⟩

theorem Allocated.put (h : Allocated m reserved) (hspi : spi ∉ reserved) :
    Allocated { m with allocatedSpis := (m.allocatedSpis.put spi spi).2 } (spi ::ₘ reserved) := by
  have hget : m.allocatedSpis.get spi = none := by
    rw [← Option.not_isSome_iff_eq_none, h.get_isSome_iff]
    exact hspi
  obtain ⟨hindex, hequals⟩ := h.index.put hget
  refine ⟨hindex, fun a b => ?_⟩
  rw [← h.equals a b]
  exact iff_of_eq (congrArg (· a b = true) hequals)

theorem Allocated.remove (h : Allocated m reserved) (spi : U32) :
    Allocated { m with allocatedSpis := (m.allocatedSpis.remove spi).2 } (reserved.erase spi) := by
  by_cases hmem : spi ∈ reserved
  · have hget : m.allocatedSpis.get spi = some spi :=
      h.index.get_eq_some_iff.mpr ⟨hmem, (h.equals _ _).mpr rfl⟩
    obtain ⟨-, hequals, reserved', rfl, hindex⟩ := h.index.remove hget
    rw [Multiset.erase_cons_head]
    refine ⟨hindex, fun a b => ?_⟩
    rw [← h.equals a b]
    exact iff_of_eq (congrArg (· a b = true) hequals)
  · have hget : m.allocatedSpis.get spi = none := by
      rw [← Option.not_isSome_iff_eq_none, h.get_isSome_iff]
      exact hmem
    rw [Multiset.erase_of_notMem hmem]
    have hremove := h.index.wf.remove_none hget
    rw [hremove]
    exact h

theorem Allocated.of_eq {m' : SaMgr} (h : Allocated m reserved)
    (heq : m'.allocatedSpis = m.allocatedSpis) : Allocated m' reserved := by
  obtain ⟨hindex, hequals⟩ := h
  rw [← heq] at hindex hequals
  exact ⟨hindex, hequals⟩

end Sections

/-! ## Reservations -/

/-- The manager and its threads, with the SPIs that are reserved. -/
structure Reservations where
  state : State
  reserved : Multiset U32

variable (createAead : U16 → Chunk → U16 → Chunk → Option Aead) (spiHash : U32 → U32)

/-- `get_spi` reserves what it returns. The reservation ends with an `add_sa` of an SA that can be
created, if it is told that an SPI has been allocated for it. -/
def account (pc : Pc) (reserved : Multiset U32) : Call → Multiset U32
  | .getSpi _ _ _ =>
    match pc with
    | .returned (.spi spi) => spi ::ₘ reserved
    | _ => reserved
  | .addSa args update =>
    if update ∧ (Sa.create createAead args).isSome then reserved.erase args.spi else reserved
  | _ => reserved

/-- A section with what it does to the reservations -/
def Reservations.step (this : Reservations) (event : Event) : Option Reservations :=
  (this.state.step createAead event).map fun state =>
    match event, (this.state.threads event.thread).pc with
    | .call t call, .returned _ =>
      ⟨state, account createAead (state.threads t).pc this.reserved call⟩
    | _, _ => ⟨state, this.reserved⟩

def spiSystem : LTS.System Reservations Event :=
  LTS.ofOption (· = ⟨State.init spiHash, 0⟩) (Reservations.step createAead)

section Runs

variable {createAead spiHash} {this next : Reservations} {event : Event} {events : List Event}

theorem Reservations.state_step (h : this.step createAead event = some next) :
    this.state.step createAead event = some next.state := by
  obtain ⟨state, hstate, hnext⟩ := Option.map_eq_some_iff.mp h
  rw [hstate, ← hnext]
  split <;> rfl

theorem Reservations.run_state (h : LTS.Run (spiSystem createAead spiHash) events this) :
    LTS.Run (system createAead spiHash) events this.state := by
  refine h.history (I := fun events this => LTS.Run (system createAead spiHash) events this.state) ?_ ?_
  · rintro _ rfl
    exact ⟨_, rfl, .refl⟩
  · rintro events this event next ⟨s, hs, hsteps⟩ hstep
    exact ⟨s, hs, hsteps.snoc (state_step hstep)⟩

theorem Reservations.step_call {t : ℕ} {call : Call} {result : Result}
    (hidle : (this.state.threads t).pc = .returned result) {left : SaMgr × Pc}
    (hleft : this.state.mgr.call createAead call = some left) :
    this.step createAead (.call t call) =
      some ⟨this.state.leave t left, account createAead left.2 this.reserved call⟩ := by
  have hstep : this.state.step createAead (.call t call) = some (this.state.leave t left) := by
    rw [State.step, hidle, hleft]
    rfl
  rw [Reservations.step, hstep]
  dsimp only [Option.map_some, Event.thread]
  rw [hidle]
  dsimp only
  rw [State.threads_leave_self]

theorem addSa_allocatedSpis {m : SaMgr} {args : SaArgs} {update : Bool} {left : SaMgr × Pc}
    (h : m.addSa createAead args update = some left) : left.1.allocatedSpis =
      if update ∧ (Sa.create createAead args).isSome then (m.allocatedSpis.remove args.spi).2
      else m.allocatedSpis := by
  rw [addSa] at h
  cases hsa : Sa.create createAead args with
  | none =>
    rw [hsa] at h
    cases h
    simp
  | some sa =>
    rw [hsa] at h
    cases update with
    | false =>
      obtain ⟨found, -, h⟩ := Option.bind_eq_some_iff.mp h
      cases found <;> cases h <;> rfl
    | true =>
      obtain ⟨found, -, h⟩ := Option.bind_eq_some_iff.mp h
      cases found <;> cases h <;> rfl

/-- **Every section keeps the table that of the reservations.** -/
theorem Allocated.step (h : Allocated this.state.mgr this.reserved)
    (hok : ∀ j, Handover.Ok this.state.view j) (hstep : this.step createAead event = some next) :
    Allocated next.state.mgr next.reserved := by
  have hleave : ∀ {t x state}, Keeps this.state.mgr.allocatedSpis x →
      x.map (this.state.leave t) = some state → Allocated state.mgr this.reserved := by
    intro t x state hkeeps hx
    obtain ⟨left, hleft, rfl⟩ := Option.map_eq_some_iff.mp hx
    exact h.of_eq (hkeeps left hleft)
  obtain ⟨state, hstate, hnext⟩ := Option.map_eq_some_iff.mp hstep
  cases event with
  | call t call =>
    cases hpc : (this.state.threads t).pc with
    | returned result =>
      rw [State.step, hpc] at hstate
      obtain ⟨left, hleft, rfl⟩ := Option.map_eq_some_iff.mp hstate
      rw [Reservations.step_call hpc hleft] at hstep
      obtain rfl := Option.some.inj hstep
      by_cases hget : ∃ spiMin spiMax draws, call = .getSpi spiMin spiMax draws
      · obtain ⟨spiMin, spiMax, draws, rfl⟩ := hget
        obtain ⟨left', hleft', hdrawn⟩ :=
          getSpiLoop_spec h (exists_entry hok) (spiRange spiMin spiMax) draws
        obtain rfl := Option.some.inj (hleft'.symm.trans hleft)
        cases hdrawn with
        | fails => exact h
        | allocates _ _ _ _ _ havail => exact h.put havail.1
      by_cases hadd : ∃ args update, call = .addSa args update
      · obtain ⟨args, update, rfl⟩ := hadd
        have hspis := addSa_allocatedSpis hleft
        change Allocated left.1 (if _ then _ else _)
        split_ifs at hspis ⊢
        · exact (h.remove args.spi).of_eq hspis
        · exact h.of_eq hspis
      have haccount : account createAead left.2 this.reserved call = this.reserved := by
        cases call with
        | getSpi spiMin spiMax draws => exact absurd ⟨_, _, _, rfl⟩ hget
        | addSa args update => exact absurd ⟨_, _, rfl⟩ hadd
        | _ => rfl
      rw [haccount]
      exact h.of_eq (keeps_call rfl call (fun _ _ _ hcall => hget ⟨_, _, _, hcall⟩)
        (fun _ _ hcall => hadd ⟨_, _, hcall⟩) left hleft)
    | _ =>
      rw [State.step, hpc] at hstate
      obtain rfl := Option.some.inj hstate
      dsimp only [Event.thread] at hnext
      rw [hpc] at hnext
      rw [← hnext]
      exact h
  | resume t =>
    rw [← hnext]
    rw [State.step] at hstate
    split at hstate
    · exact hleave (keeps_resumeWaitForEntry rfl _) hstate
    · exact hleave (keeps_resumeWaitRemoveEntry rfl _ _) hstate
    · rw [← Option.some.inj hstate]
      exact h
  | destroyFound t =>
    rw [← hnext]
    rw [State.step] at hstate
    split at hstate
    · exact hleave (keeps_destroyFound rfl) hstate
    · rw [← Option.some.inj hstate]
      exact h
  | checkin t entry =>
    rw [← hnext]
    rw [State.step] at hstate
    split_ifs at hstate
    · obtain ⟨m, hm, hstate⟩ := Option.bind_eq_some_iff.mp hstate
      rw [← Option.some.inj hstate]
      obtain ⟨found, -, hm⟩ := Option.bind_eq_some_iff.mp hm
      cases found with
      | none =>
        rw [← Option.some.inj hm]
        exact h
      | some entry =>
        obtain ⟨e, -, hm⟩ := Option.bind_eq_some_iff.mp hm
        split_ifs at hm <;> rw [← Option.some.inj hm] <;> exact h.of_eq rfl
    · rw [← Option.some.inj hstate]
      exact h
  | use t entry use =>
    rw [← hnext]
    rw [State.step] at hstate
    split_ifs at hstate
    · obtain ⟨e, -, hstate⟩ := Option.bind_eq_some_iff.mp hstate
      rw [← Option.some.inj hstate]
      exact h.of_eq rfl
    · rw [← Option.some.inj hstate]
      exact h

theorem allocated_run (h : LTS.Run (spiSystem createAead spiHash) events this) :
    Allocated this.state.mgr this.reserved := by
  obtain ⟨-, hallocated⟩ := h.invariant
    (I := fun this => (∀ j, Handover.Ok this.state.view j) ∧ Allocated this.state.mgr this.reserved)
    (by
      rintro _ rfl
      exact ⟨Handover.ok_init, Hashtable.index_create ⟨by simp, by simp, by simp, by simp⟩ 16,
        fun _ _ => decide_eq_true_iff⟩)
    (by
      rintro this event next ⟨hok, hallocated⟩ hstep
      obtain ⟨s, hs, hby⟩ := does_step createAead hok event
      obtain rfl := Option.some.inj (hs.symm.trans (Reservations.state_step hstep))
      exact ⟨hby.ok hok, hallocated.step hok hstep⟩)
  exact hallocated

end Runs

deriving instance DecidableEq for Locker, Result, Pc

theorem exists_run {α : Type} {createAead : U16 → Chunk → U16 → Chunk → Option Aead}
    {events : List Event} (f : State → α) {seen : α}
    (h : (events.foldlM (State.step createAead) (State.init id)).map f = some seen) :
    ∃ s, LTS.Run (system createAead id) events s ∧ f s = seen := by
  obtain ⟨s, hs, hseen⟩ := Option.map_eq_some_iff.mp h
  exact ⟨s, ⟨_, rfl, LTS.steps_ofOption.mpr hs⟩, hseen⟩

end SaMgr

end StrongSwan
