import StrongSwan.Lib.BinaryHeap
import StrongSwan.Processing.Scheduler

/-!
# The order of scheduled events

* `seepDown_spec`, `bubbleUp_spec`: an event finds its position.
* `removeEvent_spec`, `scheduleJobTv_spec`: what operations do to the events that are queued.
* `scheduleJobTv_full`: there is no position for more than 2^31 events.
-/

namespace StrongSwan

namespace Scheduler

open BinaryHeap

def eventKey (event : Event) : ℤ ×ₗ ℕ := event.time.key

/-- What is at a position. -/
def at_ (this : Scheduler) (i : ℕ) : Event := (this.heap i).getD ⟨⟨0, 0⟩, 0⟩

/-- The heap has these events at the first `n` positions, but not in the hole. -/
def Holds (this : Scheduler) (h : ℕ → Event) (n hole : ℕ) : Prop :=
  ∀ i, 1 ≤ i → i ≤ n → i ≠ hole → this.heap i = some (h i)

section Access

variable {this : Scheduler} {h : ℕ → Event} {n hole : ℕ} {position : U32} {event : Event}

theorem read_of_holds (position : U32) (hh : Holds this h n hole) (hn : n ≤ this.heapSize.toNat)
    (hone : 1 ≤ position.toNat) (hle : position.toNat ≤ n) (hhole : position.toNat ≠ hole) :
    this.read position = some (h position.toNat) := by
  rw [read, if_pos (by rw [BitVec.le_def, BitVec.le_def]; exact ⟨hone, hle.trans hn⟩)]
  exact hh _ hone hle hhole

theorem write_of_holds (position : U32) (hh : Holds this h n position.toNat) (hn : n ≤ this.heapSize.toNat)
    (hone : 1 ≤ position.toNat) (hle : position.toNat ≤ n) (event : Event) :
    ∃ this', this.write position event = some this' ∧ this'.heapSize = this.heapSize ∧
      this'.eventCount = this.eventCount ∧
      ∀ hole', Holds this' (Function.update h position.toNat event) n hole' := by
  refine ⟨_, if_pos (by rw [BitVec.le_def, BitVec.le_def]; exact ⟨hone, hle.trans hn⟩), rfl, rfl, ?_⟩
  intro hole' i hi hin _
  dsimp only
  by_cases heq : i = position.toNat
  · rw [heq, Function.update_self, Function.update_self]
  · rw [Function.update_of_ne heq, Function.update_of_ne heq]
    exact hh i hi hin heq

/-- A hole may be made anywhere. -/
theorem Holds.with_hole (hh : Holds this h n 0) (hole : ℕ) : Holds this h n hole :=
  fun i hi hin _ => hh i hi hin (by omega)

theorem Holds.at_eq (hh : Holds this h n 0) {i : ℕ} (hi : 1 ≤ i) (hin : i ≤ n) : this.at_ i = h i := by
  rw [at_, hh i hi hin (by omega), Option.getD_some]

end Access

theorem toNat_shiftLeft_one {x : U32} (hx : x.toNat < 2 ^ 31) : (x <<< 1).toNat = 2 * x.toNat := by
  rw [BitVec.toNat_shiftLeft, Nat.shiftLeft_eq, Nat.mod_eq_of_lt (by omega)]
  omega

theorem toNat_shiftRight_one (x : U32) : (x >>> 1).toNat = x.toNat / 2 := by
  rw [BitVec.toNat_ushiftRight, Nat.shiftRight_eq_div_pow, pow_one]

theorem toNat_add_one {x : U32} (hx : x.toNat < 2 ^ 32 - 1) : (x + 1).toNat = x.toNat + 1 := by
  rw [BitVec.toNat_add]
  exact Nat.mod_eq_of_lt (by simpa using by omega)

/-! ## Moving events -/

section Move

variable {this : Scheduler} {h : ℕ → Event} {position : U32}

/-- What moving an event into a hole makes of a heap. -/
structure Moved (this this' : Scheduler) (h h' : ℕ → Event) (n hole : ℕ) (event : Event) : Prop where
  heapSize : this'.heapSize = this.heapSize
  eventCount : this'.eventCount = this.eventCount
  holds : Holds this' h' n 0
  ordered : Ordered eventKey h' n
  elements : h hole ::ₘ elements h' n = event ::ₘ elements h n

theorem moved_write (hn : this.eventCount.toNat ≤ this.heapSize.toNat)
    (hh : Holds this h this.eventCount.toNat position.toNat) (hone : 1 ≤ position.toNat)
    (hle : position.toNat ≤ this.eventCount.toNat) {event : Event}
    (ho : Ordered eventKey (Function.update h position.toNat event) this.eventCount.toNat) :
    ∃ this' h', this.write position event = some this' ∧
      Moved this this' h h' this.eventCount.toNat position.toNat event := by
  obtain ⟨this', hwrite, hsize, hcount, hholds⟩ := write_of_holds position hh hn hone hle event
  exact ⟨this', _, hwrite, hsize, hcount, hholds 0, ho, elements_update hone hle event⟩

theorem Moved.trans {this₁ this₂ : Scheduler} {h' : ℕ → Event} {n hole hole' : ℕ} {event : Event}
    (hsize : this₁.heapSize = this.heapSize) (hcount : this₁.eventCount = this.eventCount)
    (hone : 1 ≤ hole) (hle : hole ≤ n) (hne : hole' ≠ hole)
    (hmoved : Moved this₁ this₂ (Function.update h hole (h hole')) h' n hole' event) :
    Moved this this₂ h h' n hole event where
  heapSize := hmoved.heapSize.trans hsize
  eventCount := hmoved.eventCount.trans hcount
  holds := hmoved.holds
  ordered := hmoved.ordered
  elements := by
    have helements := hmoved.elements
    rw [Function.update_of_ne hne] at helements
    have hupdate := elements_update hone hle (h hole') (h := h)
    refine (Multiset.cons_inj_right (h hole')).mp ?_
    rw [Multiset.cons_swap, helements, Multiset.cons_swap, hupdate, Multiset.cons_swap]

theorem smallerChild_spec {child : U32} (hn : this.eventCount.toNat ≤ this.heapSize.toNat)
    (hbound : this.eventCount.toNat < 2 ^ 31) (hh : Holds this h this.eventCount.toNat position.toNat)
    (hone : 1 ≤ position.toNat) (hchild : child.toNat = 2 * position.toNat)
    (hle : child.toNat ≤ this.eventCount.toNat) :
    ∃ smaller, this.smallerChild child = some smaller ∧ smaller.toNat / 2 = position.toNat ∧
      position.toNat < smaller.toNat ∧ smaller.toNat ≤ this.eventCount.toNat ∧
      ∀ c, c / 2 = position.toNat → c ≤ this.eventCount.toNat →
        eventKey (h smaller.toNat) ≤ eventKey (h c) := by
  have hright : (child + 1).toNat = child.toNat + 1 := toNat_add_one (by omega)
  have hchildren : ∀ c, c / 2 = position.toNat → c = child.toNat ∨ c = child.toNat + 1 := by omega
  rw [smallerChild]
  by_cases hboth : child + 1 ≤ this.eventCount
  · rw [if_pos hboth]
    rw [BitVec.le_def, hright] at hboth
    rw [read_of_holds (child + 1) hh hn (by omega) (by omega) (by omega),
      read_of_holds child hh hn (by omega) (by omega) (by omega), hright]
    simp only [Option.bind_eq_bind, Option.bind_some, timevalCmp_lt_iff]
    by_cases hlt : (h (child.toNat + 1)).time.key < (h child.toNat).time.key
    · rw [if_pos hlt]
      refine ⟨child + 1, rfl, by omega, by omega, by omega, fun c hc hcn => ?_⟩
      rw [hright]
      rcases hchildren c hc with rfl | rfl
      · exact hlt.le
      · exact le_rfl
    · rw [if_neg hlt]
      refine ⟨child, rfl, by omega, by omega, by omega, fun c hc hcn => ?_⟩
      rcases hchildren c hc with rfl | rfl
      · exact le_rfl
      · exact not_lt.mp hlt
  · rw [if_neg hboth]
    rw [BitVec.le_def, hright] at hboth
    refine ⟨child, rfl, by omega, by omega, by omega, fun c hc hcn => ?_⟩
    rcases hchildren c hc with rfl | rfl
    · exact le_rfl
    · omega

/-- **An event seeps down** to where it belongs. -/
theorem seepDown_spec {top : Event} (fuel : ℕ) (hn : this.eventCount.toNat ≤ this.heapSize.toNat)
    (hbound : this.eventCount.toNat < 2 ^ 31) (hh : Holds this h this.eventCount.toNat position.toNat)
    (hone : 1 ≤ position.toNat) (hle : position.toNat ≤ this.eventCount.toNat)
    (ho : DownOrder eventKey h this.eventCount.toNat position.toNat top)
    (hfuel : this.eventCount.toNat < fuel + position.toNat) :
    ∃ this' h', seepDown top fuel this position = some this' ∧
      Moved this this' h h' this.eventCount.toNat position.toNat top := by
  induction fuel generalizing this h position with
  | zero => omega
  | succ fuel ih =>
    have hshift : (position <<< 1).toNat = 2 * position.toNat := toNat_shiftLeft_one (by omega)
    rw [seepDown]
    by_cases hinner : position <<< 1 ≤ this.eventCount
    · rw [if_pos hinner]
      rw [BitVec.le_def] at hinner
      obtain ⟨child, hsmaller, hparent, hlt, hcn, hmin⟩ := smallerChild_spec hn hbound hh hone hshift hinner
      have hread := read_of_holds child hh hn (by omega) hcn (by omega)
      simp only [hsmaller, hread, Option.bind_eq_bind, Option.bind_some, timevalCmp_le_iff]
      by_cases hstop : top.time.key ≤ (h child.toNat).time.key
      · rw [if_pos hstop]
        exact moved_write hn hh hone hle (ho.finish fun c hc hcn => hstop.trans (hmin c hc hcn))
      · rw [if_neg hstop]
        obtain ⟨this₁, hwrite, hsize, hcount, hholds⟩ := write_of_holds position hh hn hone hle (h child.toNat)
        rw [hwrite, Option.bind_some]
        have hmove := ho.move hparent hone hcn hmin (not_le.mp hstop)
        rw [← hcount] at hn hbound hcn hmove hholds hfuel
        rw [← hsize] at hn
        obtain ⟨this₂, h', hseep, hmoved⟩ := ih hn hbound (hholds _) (by omega) hcn hmove (by omega)
        rw [hcount] at hmoved
        exact ⟨this₂, h', hseep, hmoved.trans hsize hcount hone hle (by omega)⟩
    · rw [if_neg hinner]
      rw [BitVec.le_def] at hinner
      exact moved_write hn hh hone hle (ho.finish fun c hc hcn => by omega)

/-- **An event bubbles up** to where it belongs. -/
theorem bubbleUp_spec {event : Event} (fuel : ℕ) (hn : this.eventCount.toNat ≤ this.heapSize.toNat)
    (hh : Holds this h this.eventCount.toNat position.toNat) (hone : 1 ≤ position.toNat)
    (hle : position.toNat ≤ this.eventCount.toNat)
    (ho : UpOrder eventKey h this.eventCount.toNat position.toNat event) (hfuel : position.toNat ≤ fuel) :
    ∃ this' h', bubbleUp event fuel this position = some this' ∧
      Moved this this' h h' this.eventCount.toNat position.toNat event := by
  induction fuel generalizing this h position with
  | zero => omega
  | succ fuel ih =>
    have hshift := toNat_shiftRight_one position
    rw [bubbleUp]
    by_cases hinner : position > 1
    · rw [if_pos hinner]
      have htwo : 2 ≤ position.toNat := by
        rw [gt_iff_lt, BitVec.lt_def] at hinner
        exact hinner
      have hread := read_of_holds (position >>> 1) hh hn (by omega) (by omega) (by omega)
      simp only [hread, Option.bind_eq_bind, Option.bind_some, timevalCmp_gt_iff, hshift]
      by_cases hup : event.time.key < (h (position.toNat / 2)).time.key
      · rw [if_pos hup]
        obtain ⟨this₁, hwrite, hsize, hcount, hholds⟩ :=
          write_of_holds position hh hn hone hle (h (position.toNat / 2))
        rw [hwrite, Option.bind_some]
        have hmove := ho.move htwo hle hup
        rw [← hshift] at hmove hholds
        rw [← hcount] at hn hmove hholds
        rw [← hsize] at hn
        obtain ⟨this₂, h', hbubble, hmoved⟩ := ih hn (hholds _) (by omega) (by rw [hcount]; omega) hmove
          (by omega)
        rw [hcount] at hmoved
        exact ⟨this₂, h', hbubble, hmoved.trans hsize hcount hone hle (by omega)⟩
      · rw [if_neg hup]
        exact moved_write hn hh hone hle (ho.finish hone fun _ => not_lt.mp hup)
    · rw [if_neg hinner]
      have hroot : position.toNat = 1 := by
        rw [gt_iff_lt, BitVec.lt_def, not_lt] at hinner
        exact le_antisymm hinner hone
      exact moved_write hn hh hone hle (ho.finish hone fun htwo => by omega)

end Move

/-! ## Operations -/

/-- The events that are queued. -/
def events (this : Scheduler) : Multiset Event := elements this.at_ this.eventCount.toNat

/-- A binary heap by time, whose size was doubled so far. -/
structure Wf (this : Scheduler) : Prop where
  filled : ∀ i, 1 ≤ i → i ≤ this.eventCount.toNat → this.heap i = some (this.at_ i)
  ordered : ∀ i, 2 ≤ i → i ≤ this.eventCount.toNat →
    timevalCmp (this.at_ (i / 2)).time (this.at_ i).time ≤ 0
  fits : this.eventCount.toNat ≤ this.heapSize.toNat
  size : ∃ k ≤ 25, this.heapSize.toNat = 64 * 2 ^ k

section Operations

variable {this : Scheduler}

theorem Wf.holds (hw : this.Wf) : Holds this this.at_ this.eventCount.toNat 0 :=
  fun i hi hin _ => hw.filled i hi hin

theorem Wf.isOrdered (hw : this.Wf) : Ordered eventKey this.at_ this.eventCount.toNat :=
  fun i hi hin => timevalCmp_le_iff.mp (hw.ordered i hi hin)

theorem Wf.heapSize_le (hw : this.Wf) : this.heapSize.toNat ≤ 2 ^ 31 := by
  obtain ⟨k, hk, hsize⟩ := hw.size
  rw [hsize]
  calc 64 * 2 ^ k ≤ 64 * 2 ^ 25 := Nat.mul_le_mul_left _ (Nat.pow_le_pow_right (by decide) hk)
    _ = 2 ^ 31 := by norm_num

theorem wf_create : create.Wf := by
  have hcount : create.eventCount.toNat = 0 := rfl
  refine ⟨fun i hi hin => by omega, fun i hi hin => by omega, ?_, 0, by omega, rfl⟩
  rw [hcount]
  exact Nat.zero_le _

theorem Holds.wf {h : ℕ → Event} (hh : Holds this h this.eventCount.toNat 0)
    (ho : Ordered eventKey h this.eventCount.toNat) (hfits : this.eventCount.toNat ≤ this.heapSize.toNat)
    (hsize : ∃ k ≤ 25, this.heapSize.toNat = 64 * 2 ^ k) :
    this.Wf ∧ this.events = elements h this.eventCount.toNat := by
  refine ⟨⟨fun i hi hin => ?_, fun i hi hin => ?_, hfits, hsize⟩, elements_congr fun i hi hin => hh.at_eq hi hin⟩
  · rw [hh.at_eq hi hin, hh i hi hin (by omega)]
  · rw [timevalCmp_le_iff, hh.at_eq (by omega) (by omega), hh.at_eq (by omega) hin]
    exact ho i hi hin

theorem removeEvent_empty (h : this.eventCount = 0) : this.removeEvent = some (none, this) := by
  rw [removeEvent, if_pos h]

/-- **The least event is removed.** -/
theorem removeEvent_spec (hw : this.Wf) (hne : this.eventCount ≠ 0) :
    ∃ event this', this.removeEvent = some (some event, this') ∧ this'.Wf ∧
      this.events = event ::ₘ this'.events ∧
      ∀ other ∈ this.events, timevalCmp event.time other.time ≤ 0 := by
  have hle := hw.heapSize_le
  have hfits := hw.fits
  have hpos : 1 ≤ this.eventCount.toNat := by
    rw [Nat.one_le_iff_ne_zero]
    exact fun h => hne (BitVec.eq_of_toNat_eq h)
  have hone : (1 : U32).toNat = 1 := rfl
  have hbefore : (this.eventCount - 1).toNat = this.eventCount.toNat - 1 := by
    rw [BitVec.toNat_sub_of_le (by rw [BitVec.le_def]; exact hpos), hone]
  have hmin : ∀ other ∈ this.events, timevalCmp (this.at_ 1).time other.time ≤ 0 := by
    intro other hother
    obtain ⟨i, hi, hin, rfl⟩ := mem_elements.mp hother
    exact timevalCmp_le_iff.mpr (hw.isOrdered.root_le hi hin)
  have hread := read_of_holds 1 hw.holds hfits le_rfl hpos (by decide)
  have hlast := read_of_holds this.eventCount hw.holds hfits hpos le_rfl (by omega)
  obtain ⟨this₁, hwrite, hsize₁, hcount₁, hholds₁⟩ := write_of_holds 1
    (hw.holds.with_hole 1) hfits le_rfl hpos (this.at_ this.eventCount.toNat)
  rw [removeEvent, if_neg hne]
  simp only [hread, hlast, hwrite, Option.bind_eq_bind, Option.bind_some, hcount₁]
  set this₂ : Scheduler := { this₁ with eventCount := this.eventCount - 1 } with hthis₂
  -- the last event is at the first position as well, and no longer at the last one
  have hcount₂ : this₂.eventCount.toNat = this.eventCount.toNat - 1 := hbefore
  have hfits₂ : this₂.eventCount.toNat ≤ this₂.heapSize.toNat := by
    rw [hcount₂]
    have : this₂.heapSize.toNat = this.heapSize.toNat := congrArg _ hsize₁
    omega
  have hsize₂ : ∃ k ≤ 25, this₂.heapSize.toNat = 64 * 2 ^ k := by
    have : this₂.heapSize = this.heapSize := hsize₁
    rw [this]
    exact hw.size
  set h₂ := Function.update this.at_ 1 (this.at_ this.eventCount.toNat) with hh₂
  have hholds₂ : Holds this₂ h₂ this₂.eventCount.toNat 0 := fun i hi hin hi0 =>
    hholds₁ 0 i hi (by omega) hi0
  have hsame : ∀ i, i ≠ 1 → h₂ i = this.at_ i := fun i hi => Function.update_of_ne hi _ _
  have helements : this.events = this.at_ 1 ::ₘ elements h₂ this₂.eventCount.toNat := by
    have hupdate := elements_update (h := this.at_) le_rfl hpos (this.at_ this.eventCount.toNat)
    rw [← hh₂] at hupdate
    have hsplit : elements h₂ this.eventCount.toNat =
        h₂ this.eventCount.toNat ::ₘ elements h₂ this₂.eventCount.toNat := by
      rw [hcount₂, ← Nat.sub_add_cancel hpos, elements_succ, Nat.add_sub_cancel]
    have hend : h₂ this.eventCount.toNat = this.at_ this.eventCount.toNat := by
      by_cases hroot : this.eventCount.toNat = 1
      · rw [hroot, hh₂, Function.update_self, hroot]
      · exact hsame _ hroot
    rw [hsplit, hend, Multiset.cons_swap] at hupdate
    exact ((Multiset.cons_inj_right _).mp hupdate).symm
  by_cases hmore : this.eventCount - 1 > 1
  · have htwo : 2 ≤ this₂.eventCount.toNat := by
      rw [gt_iff_lt, BitVec.lt_def] at hmore
      exact hmore
    have horder : Ordered eventKey this.at_ this₂.eventCount.toNat := hw.isOrdered.mono (by omega)
    have hdown : DownOrder eventKey h₂ this₂.eventCount.toNat (1 : U32).toNat
        (this.at_ this.eventCount.toNat) := by
      refine ⟨fun i hi hin hne hparent => ?_, fun htwo => absurd htwo (by decide),
        fun htwo => absurd htwo (by decide)⟩
      rw [hsame i hne, hsame (i / 2) hparent]
      exact horder i hi hin
    obtain ⟨this₃, h₃, hseep, hmoved⟩ := seepDown_spec this₂.eventCount.toNat hfits₂ (by omega)
      (hholds₂.with_hole 1) le_rfl (by omega) hdown (by omega)
    rw [if_pos hmore, show (this.eventCount - 1).toNat = this₂.eventCount.toNat from rfl, hseep]
    have hcount₃ := congrArg BitVec.toNat hmoved.eventCount
    have hholds₃ := hmoved.holds
    have hordered₃ := hmoved.ordered
    rw [← hcount₃] at hholds₃ hordered₃
    obtain ⟨hw₃, hevents₃⟩ := hholds₃.wf hordered₃ (by rw [hcount₃, hmoved.heapSize]; exact hfits₂)
      (by rw [hmoved.heapSize]; exact hsize₂)
    refine ⟨this.at_ 1, this₃, rfl, hw₃, ?_, hmin⟩
    have hmoves := hmoved.elements
    rw [hone, hh₂, Function.update_self, ← hh₂] at hmoves
    rw [helements, hevents₃, hcount₃, (Multiset.cons_inj_right _).mp hmoves]
  · have hfew : this₂.eventCount.toNat ≤ 1 := by
      rw [gt_iff_lt, BitVec.lt_def, not_lt] at hmore
      exact hmore
    obtain ⟨hw₂, hevents₂⟩ := hholds₂.wf (fun i hi hin => by omega) hfits₂ hsize₂
    rw [if_neg hmore]
    exact ⟨this.at_ 1, this₂, rfl, hw₂, by rw [helements, hevents₂], hmin⟩

theorem size_grow (hw : this.Wf) (h : this.heapSize.toNat < 2 ^ 31) :
    this.grow.heapSize.toNat = 2 * this.heapSize.toNat ∧
      ∃ k ≤ 25, this.grow.heapSize.toNat = 64 * 2 ^ k := by
  have hshift : this.grow.heapSize.toNat = 2 * this.heapSize.toNat := toNat_shiftLeft_one h
  obtain ⟨k, hk, hsize⟩ := hw.size
  refine ⟨hshift, k + 1, ?_, by rw [hshift, hsize]; ring⟩
  by_contra hmax
  have hlast : k = 25 := by omega
  rw [hsize, hlast] at h
  norm_num at h

/-- **An event is added.** -/
theorem scheduleJobTv_spec (hw : this.Wf) (hbound : this.eventCount.toNat < 2 ^ 31) (job : ℕ)
    (tv : Timeval) :
    ∃ this', this.scheduleJobTv job tv = some this' ∧ this'.Wf ∧
      this'.events = ⟨tv, job⟩ ::ₘ this.events := by
  have hfits := hw.fits
  have hsucc : (this.eventCount + 1).toNat = this.eventCount.toNat + 1 := toNat_add_one (by omega)
  rw [scheduleJobTv]
  dsimp only
  set this₁ : Scheduler := { this with eventCount := this.eventCount + 1 } with hthis₁
  set this₂ : Scheduler := if this₁.eventCount > this₁.heapSize then this₁.grow else this₁ with hthis₂
  have hcount₁ : this₁.eventCount.toNat = this.eventCount.toNat + 1 := hsucc
  -- there is a position for the event
  obtain ⟨hcount₂, hfits₂, hsize₂, hheap₂⟩ : this₂.eventCount.toNat = this.eventCount.toNat + 1 ∧
      this₂.eventCount.toNat ≤ this₂.heapSize.toNat ∧ (∃ k ≤ 25, this₂.heapSize.toNat = 64 * 2 ^ k) ∧
      ∀ i ≤ this.eventCount.toNat, this₂.heap i = this.heap i := by
    by_cases hfull : this₁.eventCount > this₁.heapSize
    · rw [hthis₂, if_pos hfull]
      rw [gt_iff_lt, BitVec.lt_def] at hfull
      have hfull' : this.heapSize.toNat < this.eventCount.toNat + 1 := hcount₁ ▸ hfull
      obtain ⟨hdouble, hpower⟩ := size_grow hw (by omega)
      have hdouble' : this₁.grow.heapSize.toNat = 2 * this.heapSize.toNat := hdouble
      have hcount : this₁.grow.eventCount.toNat = this.eventCount.toNat + 1 := hcount₁
      refine ⟨hcount, ?_, hpower, fun i hi => if_pos ?_⟩
      · obtain ⟨k, -, hsize⟩ := hw.size
        have hpow : 1 ≤ 2 ^ k := Nat.one_le_two_pow
        omega
      · have hshift : (this₁.heapSize <<< 1).toNat = 2 * this.heapSize.toNat := hdouble
        have hsame : this₁.heapSize.toNat = this.heapSize.toNat := rfl
        rw [hshift, hsame]
        omega
    · rw [hthis₂, if_neg hfull]
      rw [gt_iff_lt, BitVec.lt_def, not_lt] at hfull
      exact ⟨hcount₁, hfull, hw.size, fun i _ => rfl⟩
  have hholds : Holds this₂ this.at_ this₂.eventCount.toNat this₂.eventCount.toNat := by
    intro i hi hin hne
    rw [hheap₂ i (by omega)]
    exact hw.filled i hi (by omega)
  have hup : UpOrder eventKey this.at_ this₂.eventCount.toNat this₂.eventCount.toNat ⟨tv, job⟩ := by
    rw [hcount₂]
    exact hw.isOrdered.upOrder _
  obtain ⟨this', h', hbubble, hmoved⟩ := bubbleUp_spec this₂.eventCount.toNat hfits₂ hholds (by omega)
    le_rfl hup le_rfl
  have hcount' := congrArg BitVec.toNat hmoved.eventCount
  have hholds' := hmoved.holds
  have hordered' := hmoved.ordered
  rw [← hcount'] at hholds' hordered'
  obtain ⟨hw', hevents'⟩ := hholds'.wf hordered' (by rw [hcount', hmoved.heapSize]; exact hfits₂)
    (by rw [hmoved.heapSize]; exact hsize₂)
  refine ⟨this', hbubble, hw', ?_⟩
  have hmoves := hmoved.elements
  rw [hcount₂, elements_succ (h := this.at_), Multiset.cons_swap] at hmoves
  rw [hevents', hcount', hcount₂, (Multiset.cons_inj_right _).mp hmoves]
  rfl

theorem scheduleJobTv_full (hw : this.Wf) (hfull : this.eventCount.toNat = 2 ^ 31) (job : ℕ)
    (tv : Timeval) : this.scheduleJobTv job tv = none := by
  have hle := hw.heapSize_le
  have hfits := hw.fits
  have hmax : this.heapSize.toNat = 2 ^ 31 := le_antisymm hle (hfull ▸ hfits)
  have hsize : this.heapSize = 2 ^ 31 := BitVec.eq_of_toNat_eq (hmax.trans rfl)
  have hcount : this.eventCount = 2 ^ 31 := BitVec.eq_of_toNat_eq (hfull.trans rfl)
  have hgrown : this.heapSize <<< 1 = 0 := by
    rw [hsize]
    rfl
  have hover : this.eventCount + 1 > this.heapSize := by
    rw [hsize, hcount]
    decide
  rw [scheduleJobTv]
  dsimp only
  rw [if_pos hover]
  obtain ⟨fuel, hfuel⟩ : ∃ fuel, (this.eventCount + 1).toNat = fuel + 1 :=
    ⟨2 ^ 31, by rw [hcount]; rfl⟩
  rw [grow, show ({ this with eventCount := this.eventCount + 1 } : Scheduler).heapSize = this.heapSize
    from rfl, hgrown]
  dsimp only
  rw [hfuel, bubbleUp, if_pos (by rw [hcount]; decide), read]
  dsimp only
  rw [if_neg (by rw [hcount]; decide)]
  rfl

end Operations

end Scheduler

end StrongSwan
