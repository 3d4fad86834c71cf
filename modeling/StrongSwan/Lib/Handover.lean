import StrongSwan.Lib.System
import Mathlib

/-!
# Handover of shared objects

Threads share objects that one of them at a time may hold, and that one of them may remove from a
list and destroy. A thread that removes an object dooms it, waits until it is unlocked, then until
no other thread waits for it, and only then unlinks it.

* `State`, `Step`: the cells of objects and what every thread is doing.
* `Ok`: what holds of one object, **`ok_step`**: it does of all of them after every step.
* `frame`: an object keeps it in steps that do not concern it.
* `unlinked_step`, `destroyed_step`: an object is unlinked and destroyed at most once.
* `By`: what a thread does in one go, `By.quiet`: how far it changes the objects.
-/

namespace Handover

universe u v

/-- An object with the fields that guard it. -/
structure Cell (α : Type v) where
  item : α
  locked : Bool
  waiters : ℕ
  doomed : Bool

/-- What a thread is doing. -/
inductive Role
  | idle
  /-- sleeps until the object is unlocked or doomed -/
  | waiting (k : ℕ)
  /-- has doomed the object and sleeps until it is unlocked -/
  | removing (k : ℕ)
  /-- sleeps until no thread waits for the object -/
  | draining (k : ℕ)
  /-- has unlinked the object -/
  | owning (k : ℕ)
  deriving DecidableEq

namespace Role

/-- The object a role is about. -/
def key : Role → Option ℕ
  | idle => none
  | waiting k | removing k | draining k | owning k => some k

/-- A thread in this role is going to destroy the object. -/
def Deletes (r : Role) (k : ℕ) : Prop := r = removing k ∨ r = draining k ∨ r = owning k

theorem Deletes.key {r : Role} {k : ℕ} (h : r.Deletes k) : r.key = some k := by
  obtain rfl | rfl | rfl := h <;> rfl

end Role

/-- The objects, named by numbers in the order of their creation, and the threads. -/
structure State (τ : Type u) (α : Type v) where
  cells : ℕ → Option (Cell α)
  linked : List ℕ
  next : ℕ
  role : τ → Role
  held : τ → Finset ℕ

/-- What a thread does to an object. -/
inductive Move (α : Type v)
  | create (x : α)
  | acquire (k : ℕ)
  | release (k : ℕ)
  | wait (k : ℕ)
  | wake (k : ℕ)
  | doom (k : ℕ)
  | drain (k : ℕ)
  | unlink (k : ℕ)
  | destroy (k : ℕ)
  | modify (k : ℕ) (f : α → α)

variable {τ : Type u} [DecidableEq τ] {α : Type v}

namespace State

def setCell (s : State τ α) (k : ℕ) (c : Option (Cell α)) : State τ α :=
  { s with cells := Function.update s.cells k c }

def setRole (s : State τ α) (t : τ) (r : Role) : State τ α :=
  { s with role := Function.update s.role t r }

def setHeld (s : State τ α) (t : τ) (ks : Finset ℕ) : State τ α :=
  { s with held := Function.update s.held t ks }

def setLinked (s : State τ α) (ks : List ℕ) : State τ α := { s with linked := ks }

end State

/-- A move of a thread. -/
inductive Step : State τ α → τ × Move α → State τ α → Prop
  | create {s : State τ α} (t : τ) (x : α) : Step s (t, .create x)
      { s.setCell s.next (some ⟨x, false, 0, false⟩) with
        linked := s.next :: s.linked
        next := s.next + 1 }
  | acquire {s : State τ α} {t : τ} {k : ℕ} {c : Cell α} : k ∈ s.linked → s.cells k = some c →
      c.locked = false → c.doomed = false → Step s (t, .acquire k)
        ((s.setCell k (some { c with locked := true })).setHeld t (insert k (s.held t)))
  | release {s : State τ α} {t : τ} {k : ℕ} {c : Cell α} : k ∈ s.held t → s.cells k = some c →
      Step s (t, .release k)
        ((s.setCell k (some { c with locked := false })).setHeld t ((s.held t).erase k))
  | wait {s : State τ α} {t : τ} {k : ℕ} {c : Cell α} : s.role t = .idle → k ∈ s.linked →
      s.cells k = some c → Step s (t, .wait k)
        ((s.setCell k (some { c with waiters := c.waiters + 1 })).setRole t (.waiting k))
  | wake {s : State τ α} {t : τ} {k : ℕ} {c : Cell α} : s.role t = .waiting k →
      s.cells k = some c → Step s (t, .wake k)
        ((s.setCell k (some { c with waiters := c.waiters - 1 })).setRole t .idle)
  | doom {s : State τ α} {t : τ} {k : ℕ} {c : Cell α} : s.role t = .idle → k ∈ s.linked →
      s.cells k = some c → c.doomed = false → Step s (t, .doom k)
        ((s.setCell k (some { c with doomed := true })).setRole t (.removing k))
  | drain {s : State τ α} {t : τ} {k : ℕ} {c : Cell α} : s.role t = .removing k →
      s.cells k = some c → c.locked = false → Step s (t, .drain k) (s.setRole t (.draining k))
  | unlink {s : State τ α} {t : τ} {k : ℕ} {c : Cell α} : s.role t = .draining k →
      s.cells k = some c → c.waiters = 0 → Step s (t, .unlink k)
        ((s.setLinked (s.linked.erase k)).setRole t (.owning k))
  | destroy {s : State τ α} {t : τ} {k : ℕ} : s.role t = .owning k → Step s (t, .destroy k)
      ((s.setCell k none).setRole t .idle)
  | modify {s : State τ α} {k : ℕ} {c : Cell α} (t : τ) (f : α → α) : s.cells k = some c →
      Step s (t, .modify k f) (s.setCell k (some { c with item := f c.item }))

/-- At first there are no objects. -/
def system : LTS.System (State τ α) (τ × Move α) where
  init s := s = ⟨fun _ => none, [], 0, fun _ => .idle, fun _ => ∅⟩
  step := Step

/-! ## The invariant -/

/-- What holds of an object. -/
structure Ok (s : State τ α) (k : ℕ) : Prop where
  nodup : s.linked.Nodup
  linked : k ∈ s.linked → ∃ c, s.cells k = some c
  fresh : s.next ≤ k → k ∉ s.linked ∧ s.cells k = none
  held : ∀ {t c}, k ∈ s.held t → s.cells k = some c → k ∈ s.linked ∧ c.locked = true
  holder : ∀ {t t'}, k ∈ s.held t → k ∈ s.held t' → t = t'
  locked : ∀ {c}, s.cells k = some c → c.locked = true → ∃ t, k ∈ s.held t
  alive : ∀ {t}, k ∈ s.held t ∨ (s.role t).key = some k → ∃ c, s.cells k = some c
  waiters : ∀ {c}, s.cells k = some c → {t | s.role t = .waiting k}.encard = c.waiters
  waiting : ∀ {t}, s.role t = .waiting k → k ∈ s.linked
  removing : ∀ {t c}, s.role t = .removing k ∨ s.role t = .draining k → s.cells k = some c →
    k ∈ s.linked ∧ c.doomed = true
  draining : ∀ {t c}, s.role t = .draining k → s.cells k = some c → c.locked = false
  owning : ∀ {t c}, s.role t = .owning k → s.cells k = some c →
    k ∉ s.linked ∧ c.locked = false ∧ c.waiters = 0
  deleter : ∀ {t t'}, (s.role t).Deletes k → (s.role t').Deletes k → t = t'

variable {s s' : State τ α} {j k : ℕ}

omit [DecidableEq τ] in
theorem Ok.frame (h : Ok s j) (hnodup : s'.linked.Nodup) (hcell : s'.cells j = s.cells j)
    (hlinked : j ∈ s'.linked ↔ j ∈ s.linked) (hnext : s.next ≤ s'.next)
    (hheld : ∀ t, j ∈ s'.held t ↔ j ∈ s.held t)
    (hrole : ∀ t r, r.key = some j → (s'.role t = r ↔ s.role t = r)) : Ok s' j := by
  have hwaiting : ∀ t, s'.role t = .waiting j ↔ s.role t = .waiting j := fun t => hrole t _ rfl
  have hremoving : ∀ t, s'.role t = .removing j ↔ s.role t = .removing j := fun t => hrole t _ rfl
  have hdraining : ∀ t, s'.role t = .draining j ↔ s.role t = .draining j := fun t => hrole t _ rfl
  have howning : ∀ t, s'.role t = .owning j ↔ s.role t = .owning j := fun t => hrole t _ rfl
  have hkey : ∀ t, (s'.role t).key = some j → (s.role t).key = some j := by
    intro t ht
    rw [(hrole t _ ht).mp rfl]
    exact ht
  have hdeletes : ∀ t, (s'.role t).Deletes j ↔ (s.role t).Deletes j := by
    intro t
    simp only [Role.Deletes, hremoving, hdraining, howning]
  refine ⟨hnodup, ?_, ?_, ?_, ?_, ?_, ?_, ?_, ?_, ?_, ?_, ?_, ?_⟩
  · rw [hlinked, hcell]
    exact h.linked
  · rw [hlinked, hcell]
    exact fun hj => h.fresh (hnext.trans hj)
  · intro t c
    rw [hheld, hlinked, hcell]
    exact h.held
  · intro t t'
    rw [hheld, hheld]
    exact h.holder
  · intro c
    rw [hcell]
    simp only [hheld]
    exact h.locked
  · intro t ht
    rw [hcell]
    rw [hheld] at ht
    exact h.alive (ht.imp_right (hkey t))
  · intro c
    rw [hcell]
    simp only [hwaiting]
    exact h.waiters
  · intro t
    rw [hwaiting, hlinked]
    exact h.waiting
  · intro t c
    rw [hremoving, hdraining, hlinked, hcell]
    exact h.removing
  · intro t c
    rw [hdraining, hcell]
    exact h.draining
  · intro t c
    rw [howning, hlinked, hcell]
    exact h.owning
  · intro t t'
    rw [hdeletes, hdeletes]
    exact h.deleter

theorem role_update_iff {t : τ} {r : Role} (hold : (s.role t).key ≠ some j) (hnew : r.key ≠ some j)
    (t' : τ) (r' : Role) (hr' : r'.key = some j) :
    (Function.update s.role t r) t' = r' ↔ s.role t' = r' := by
  by_cases ht : t' = t
  · subst ht
    rw [Function.update_self]
    constructor
    · rintro rfl
      exact absurd hr' hnew
    · rintro rfl
      exact absurd hr' hold
  · rw [Function.update_of_ne ht]

/-- The object of a move. -/
def key (s : State τ α) : Move α → ℕ
  | .create _ => s.next
  | .acquire k | .release k | .wait k | .wake k | .doom k | .drain k | .unlink k | .destroy k
  | .modify k _ => k

variable {e : τ × Move α}

theorem nodup_step (h : ∀ j, Ok s j) (hstep : Step s e s') : s'.linked.Nodup := by
  have hnodup := (h 0).nodup
  cases hstep with
  | create t x => exact List.nodup_cons.mpr ⟨((h s.next).fresh le_rfl).1, hnodup⟩
  | unlink _ _ _ => exact hnodup.erase _
  | _ => exact hnodup

/-- **A move concerns one object.** -/
theorem Ok.step_other (h : ∀ j, Ok s j) (hstep : Step s e s')
    (hj : j ≠ key s e.2) : Ok s' j := by
  have hnodup := nodup_step h hstep
  have hcell : ∀ {k : ℕ} {c : Option (Cell α)}, j ≠ k → Function.update s.cells k c j = s.cells j :=
    fun hne => Function.update_of_ne hne _ _
  have hidle : ∀ {t : τ}, s.role t = .idle → (s.role t).key ≠ some j := by
    intro t ht
    simp [ht, Role.key]
  have hkey : ∀ {t : τ} {r : Role} {k : ℕ}, s.role t = r → r.key = some k → j ≠ k →
      (s.role t).key ≠ some j := by
    intro t r k ht hr hne
    rw [ht, hr]
    simpa using hne.symm
  have hnew : ∀ {r : Role} {k : ℕ}, r.key = some k → j ≠ k → r.key ≠ some j := by
    intro r k hr hne
    rw [hr]
    simpa using hne.symm
  cases hstep with
  | create t x =>
    exact (h j).frame hnodup (hcell hj) (List.mem_cons.trans (or_iff_right hj)) (Nat.le_succ _)
      (fun _ => Iff.rfl) fun _ _ _ => Iff.rfl
  | @acquire t k c _ _ _ _ =>
    refine (h j).frame hnodup (hcell hj) Iff.rfl le_rfl (fun t' => ?_) fun _ _ _ => Iff.rfl
    change j ∈ Function.update s.held t _ t' ↔ _
    by_cases ht : t' = t
    · subst ht
      rw [Function.update_self]
      exact Finset.mem_insert.trans (or_iff_right hj)
    · rw [Function.update_of_ne ht]
  | @release t k c _ _ =>
    refine (h j).frame hnodup (hcell hj) Iff.rfl le_rfl (fun t' => ?_) fun _ _ _ => Iff.rfl
    change j ∈ Function.update s.held t _ t' ↔ _
    by_cases ht : t' = t
    · subst ht
      rw [Function.update_self]
      exact Finset.mem_erase.trans (and_iff_right hj)
    · rw [Function.update_of_ne ht]
  | wait hrole _ _ =>
    exact (h j).frame hnodup (hcell hj) Iff.rfl le_rfl (fun _ => Iff.rfl)
      (role_update_iff (hidle hrole) (hnew rfl hj))
  | wake hrole _ =>
    exact (h j).frame hnodup (hcell hj) Iff.rfl le_rfl (fun _ => Iff.rfl)
      (role_update_iff (hkey hrole rfl hj) (by simp [Role.key]))
  | doom hrole _ _ _ =>
    exact (h j).frame hnodup (hcell hj) Iff.rfl le_rfl (fun _ => Iff.rfl)
      (role_update_iff (hidle hrole) (hnew rfl hj))
  | drain hrole _ _ =>
    exact (h j).frame hnodup rfl Iff.rfl le_rfl (fun _ => Iff.rfl)
      (role_update_iff (hkey hrole rfl hj) (hnew rfl hj))
  | unlink hrole _ _ =>
    exact (h j).frame hnodup rfl (List.mem_erase_of_ne hj) le_rfl (fun _ => Iff.rfl)
      (role_update_iff (hkey hrole rfl hj) (hnew rfl hj))
  | destroy hrole =>
    exact (h j).frame hnodup (hcell hj) Iff.rfl le_rfl (fun _ => Iff.rfl)
      (role_update_iff (hkey hrole rfl hj) (by simp [Role.key]))
  | modify t f _ =>
    exact (h j).frame hnodup (hcell hj) Iff.rfl le_rfl (fun _ => Iff.rfl) fun _ _ _ => Iff.rfl

/-! ### The object of a move -/

variable {t : τ} {c : Cell α}

omit [DecidableEq τ] in
theorem update_cell {cells : ℕ → Option (Cell α)} {c' : Cell α}
    (h : Function.update cells k (some c) k = some c') : c = c' := by
  rw [Function.update_self] at h
  exact Option.some.inj h

theorem Ok.create (h : Ok s s.next) {x : α} (hstep : Step s (t, .create x) s') : Ok s' s.next := by
  obtain ⟨hlinked, hcell⟩ := h.fresh le_rfl
  have hdead : ∀ {t}, ¬(s.next ∈ s.held t ∨ (s.role t).key = some s.next) := by
    intro t ht
    obtain ⟨c, hc⟩ := h.alive ht
    rw [hcell] at hc
    cases hc
  have hheld : ∀ {t}, s.next ∉ s.held t := fun ht => hdead (.inl ht)
  have hrole : ∀ {t r}, s.role t = r → r.key ≠ some s.next := by
    rintro t _ rfl hr
    exact hdead (.inr hr)
  cases hstep
  refine ⟨List.nodup_cons.mpr ⟨hlinked, h.nodup⟩, fun _ => ⟨_, Function.update_self ..⟩,
    fun hk => absurd hk (by simp), fun ht => absurd ht hheld, fun ht => absurd ht hheld, ?_,
    fun ht => absurd ht hdead, ?_, fun ht => absurd rfl (hrole ht), ?_,
    fun ht => absurd rfl (hrole ht), fun ht => absurd rfl (hrole ht),
    fun ht => absurd ht.key (hrole rfl)⟩
  · intro c hc hlocked
    obtain rfl := update_cell hc
    cases hlocked
  · intro c hc
    obtain rfl := update_cell hc
    have hempty : {t | s.role t = .waiting s.next} = ∅ :=
      Set.eq_empty_of_forall_notMem fun t ht => hrole ht rfl
    change {t | s.role t = .waiting s.next}.encard = 0
    rw [hempty, Set.encard_empty]
  · rintro t c (ht | ht)
    · exact absurd rfl (hrole ht)
    · exact absurd rfl (hrole ht)

omit [DecidableEq τ] in
theorem Ok.lt_next (h : Ok s k) (hc : s.cells k = some c) : ¬s.next ≤ k := by
  intro hk
  have := (h.fresh hk).2
  rw [hc] at this
  cases this

omit [DecidableEq τ] in
theorem Ok.change (h : Ok s k) (hc : s.cells k = some c) (c' : Cell α) (held' : τ → Finset ℕ)
    (hwaiters : c'.waiters = c.waiters) (hdoomed : c.doomed = true → c'.doomed = true)
    (hheld : ∀ t, k ∈ held' t → k ∈ s.linked ∧ c'.locked = true)
    (hlocked : c'.locked = true → ∃ t, k ∈ held' t)
    (hholder : ∀ t t', k ∈ held' t → k ∈ held' t' → t = t')
    (hdeletes : ∀ t, s.role t = .draining k ∨ s.role t = .owning k → c'.locked = false) :
    Ok { s.setCell k (some c') with held := held' } k := by
  refine ⟨h.nodup, fun _ => ⟨c', Function.update_self ..⟩, fun hk => absurd hk (h.lt_next hc), ?_,
    fun h₁ h₂ => hholder _ _ h₁ h₂, ?_, fun _ => ⟨c', Function.update_self ..⟩, ?_, h.waiting, ?_,
    ?_, ?_, h.deleter⟩
  · intro t c₁ ht h₁
    obtain rfl := update_cell h₁
    exact hheld t ht
  · intro c₁ h₁
    obtain rfl := update_cell h₁
    exact hlocked
  · intro c₁ h₁
    obtain rfl := update_cell h₁
    rw [hwaiters]
    exact h.waiters hc
  · intro t c₁ ht h₁
    obtain rfl := update_cell h₁
    obtain ⟨hlinked, hc⟩ := h.removing ht hc
    exact ⟨hlinked, hdoomed hc⟩
  · intro t c₁ ht h₁
    obtain rfl := update_cell h₁
    exact hdeletes t (.inl ht)
  · intro t c₁ ht h₁
    obtain rfl := update_cell h₁
    obtain ⟨hlinked, -, hzero⟩ := h.owning ht hc
    exact ⟨hlinked, hdeletes t (.inr ht), hwaiters.trans hzero⟩

omit [DecidableEq τ] in
theorem Ok.setCell (h : Ok s k) (hc : s.cells k = some c) (c' : Cell α)
    (hlocked : c'.locked = c.locked) (hwaiters : c'.waiters = c.waiters)
    (hdoomed : c.doomed = true → c'.doomed = true) : Ok (s.setCell k (some c')) k := by
  refine h.change hc c' s.held hwaiters hdoomed (fun t ht => ?_) (fun hl => ?_)
    (fun _ _ => h.holder) fun t ht => ?_
  · rw [hlocked]
    exact h.held ht hc
  · rw [hlocked] at hl
    exact h.locked hc hl
  · rw [hlocked]
    exact ht.elim (fun ht => h.draining ht hc) fun ht => (h.owning ht hc).2.1

/-- **A free object can be locked**: then one thread holds it. -/
theorem Ok.acquire (h : Ok s k) (hk : k ∈ s.linked) (hc : s.cells k = some c)
    (hlocked : c.locked = false) (hdoomed : c.doomed = false) :
    Ok ((s.setCell k (some { c with locked := true })).setHeld t (insert k (s.held t))) k := by
  have honly : ∀ t', k ∈ Function.update s.held t (insert k (s.held t)) t' → t' = t := by
    intro t' ht'
    by_contra hne
    rw [Function.update_of_ne hne] at ht'
    rw [(h.held ht' hc).2] at hlocked
    cases hlocked
  refine h.change hc _ _ rfl id (fun _ _ => ⟨hk, rfl⟩) (fun _ => ⟨t, by simp⟩)
    (fun t₁ t₂ h₁ h₂ => (honly t₁ h₁).trans (honly t₂ h₂).symm) ?_
  rintro t' (ht' | ht')
  · rw [(h.removing (.inr ht') hc).2] at hdoomed
    cases hdoomed
  · exact absurd hk (h.owning ht' hc).1

theorem Ok.release (h : Ok s k) (hk : k ∈ s.held t) (hc : s.cells k = some c) :
    Ok ((s.setCell k (some { c with locked := false })).setHeld t ((s.held t).erase k)) k := by
  have hfree : ∀ t', k ∉ Function.update s.held t ((s.held t).erase k) t' := by
    intro t' ht'
    by_cases hne : t' = t
    · subst hne
      rw [Function.update_self] at ht'
      exact Finset.notMem_erase _ _ ht'
    · rw [Function.update_of_ne hne] at ht'
      exact hne (h.holder ht' hk)
  exact h.change hc _ _ rfl id (fun t' ht' => absurd ht' (hfree t')) (fun hl => by cases hl)
    (fun t' _ ht' => absurd ht' (hfree t')) fun _ _ => rfl

theorem Ok.setRole (h : Ok s k) (hc : s.cells k = some c) {r : Role} (hold : s.role t ≠ .waiting k)
    (hnew : r ≠ .waiting k)
    (hremoving : r = .removing k ∨ r = .draining k → k ∈ s.linked ∧ c.doomed = true)
    (hdraining : r = .draining k → c.locked = false) (howning : r ≠ .owning k)
    (hdeleter : r.Deletes k → ∀ t', (s.role t').Deletes k → t' = t) : Ok (s.setRole t r) k := by
  have hself : (s.setRole t r).role t = r := Function.update_self ..
  have hother : ∀ {t'}, t' ≠ t → (s.setRole t r).role t' = s.role t' :=
    fun hne => Function.update_of_ne hne _ _
  have hcell : ∀ {c'}, (s.setRole t r).cells k = some c' → c = c' :=
    fun hc' => Option.some.inj (hc.symm.trans hc')
  have hwaiting : ∀ t', (s.setRole t r).role t' = .waiting k ↔ s.role t' = .waiting k := by
    intro t'
    by_cases hne : t' = t
    · subst hne
      rw [hself]
      exact iff_of_false hnew hold
    · rw [hother hne]
  refine ⟨h.nodup, h.linked, h.fresh, h.held, h.holder, h.locked, fun _ => ⟨c, hc⟩, ?_, ?_, ?_, ?_,
    ?_, ?_⟩
  · intro c' hc'
    simp only [hwaiting]
    exact h.waiters hc'
  · intro t' ht'
    exact h.waiting ((hwaiting t').mp ht')
  · intro t' c' ht' hc'
    obtain rfl := hcell hc'
    by_cases hne : t' = t
    · subst hne
      rw [hself] at ht'
      exact hremoving ht'
    · rw [hother hne] at ht'
      exact h.removing ht' hc
  · intro t' c' ht' hc'
    obtain rfl := hcell hc'
    by_cases hne : t' = t
    · subst hne
      rw [hself] at ht'
      exact hdraining ht'
    · rw [hother hne] at ht'
      exact h.draining ht' hc
  · intro t' c' ht' hc'
    obtain rfl := hcell hc'
    by_cases hne : t' = t
    · subst hne
      rw [hself] at ht'
      exact absurd ht' howning
    · rw [hother hne] at ht'
      exact h.owning ht' hc
  · intro t₁ t₂ h₁ h₂
    by_cases hne₁ : t₁ = t <;> by_cases hne₂ : t₂ = t
    · rw [hne₁, hne₂]
    · subst hne₁
      rw [hself] at h₁
      rw [hother hne₂] at h₂
      exact (hdeleter h₁ t₂ h₂).symm
    · subst hne₂
      rw [hself] at h₂
      rw [hother hne₁] at h₁
      exact hdeleter h₂ t₁ h₁
    · rw [hother hne₁] at h₁
      rw [hother hne₂] at h₂
      exact h.deleter h₁ h₂

theorem Ok.setWaiters (h : Ok s k) (hk : k ∈ s.linked) (hc : s.cells k = some c) {r : Role} {n : ℕ}
    (hold : ¬(s.role t).Deletes k) (hnew : ¬r.Deletes k)
    (hcount : {t' | Function.update s.role t r t' = .waiting k}.encard = n) :
    Ok ((s.setCell k (some { c with waiters := n })).setRole t r) k := by
  have hrole : ∀ {t'}, (Function.update s.role t r t').Deletes k → (s.role t').Deletes k := by
    intro t' ht'
    by_cases hne : t' = t
    · subst hne
      rw [Function.update_self] at ht'
      exact absurd ht' hnew
    · rwa [Function.update_of_ne hne] at ht'
  have hother : ∀ {t' r'}, Function.update s.role t r t' = r' → r'.Deletes k → s.role t' = r' := by
    intro t' r' ht' hr'
    by_cases hne : t' = t
    · subst hne
      rw [Function.update_self] at ht'
      exact absurd (ht'.symm ▸ hr') hnew
    · rwa [Function.update_of_ne hne] at ht'
  refine ⟨h.nodup, fun _ => ⟨_, Function.update_self ..⟩, fun hk => absurd hk (h.lt_next hc), ?_,
    h.holder, ?_, fun _ => ⟨_, Function.update_self ..⟩, ?_, fun _ => hk, ?_, ?_, ?_,
    fun h₁ h₂ => h.deleter (hrole h₁) (hrole h₂)⟩
  · intro t' c' ht' hc'
    obtain rfl := update_cell hc'
    have hold := h.held ht' hc
    exact hold
  · intro c' hc'
    obtain rfl := update_cell hc'
    have hold := h.locked hc
    exact hold
  · intro c' hc'
    obtain rfl := update_cell hc'
    exact hcount
  · intro t' c' ht' hc'
    obtain rfl := update_cell hc'
    have hold := h.removing (ht'.imp (hother · (.inl rfl)) (hother · (.inr (.inl rfl)))) hc
    exact hold
  · intro t' c' ht' hc'
    obtain rfl := update_cell hc'
    have hold := h.draining (hother ht' (.inr (.inl rfl))) hc
    exact hold
  · intro t' c' ht' hc'
    obtain rfl := update_cell hc'
    exact absurd hk (h.owning (hother ht' (.inr (.inr rfl))) hc).1

theorem Ok.encard_wait (h : Ok s k) (hc : s.cells k = some c) (hrole : s.role t = .idle) :
    {t' | Function.update s.role t (.waiting k) t' = .waiting k}.encard = (c.waiters + 1 : ℕ) := by
  have hset : {t' | Function.update s.role t (.waiting k) t' = .waiting k} =
      insert t {t' | s.role t' = .waiting k} := by
    ext t'
    by_cases hne : t' = t
    · subst hne
      simp
    · simp [hne]
  rw [hset, Set.encard_insert_of_notMem (by simp [hrole]), h.waiters hc]
  rfl

theorem Ok.encard_wake (h : Ok s k) (hc : s.cells k = some c) (hrole : s.role t = .waiting k) :
    {t' | Function.update s.role t .idle t' = .waiting k}.encard = (c.waiters - 1 : ℕ) := by
  have hset : {t' | Function.update s.role t .idle t' = .waiting k} =
      {t' | s.role t' = .waiting k} \ {t} := by
    ext t'
    by_cases hne : t' = t
    · subst hne
      simp
    · simp [hne]
  rw [hset, Set.encard_sdiff_singleton_of_mem (by exact hrole), h.waiters hc]
  rfl

omit [DecidableEq τ] in
/-- No thread refers to an object that has been unlinked, but the one that will destroy it. -/
theorem Ok.unused (h : Ok s k) (hc : s.cells k = some c) (hk : k ∉ s.linked)
    (hrole : (s.role t).Deletes k) (t' : τ) :
    k ∉ s.held t' ∧ ((s.role t').key = some k → t' = t) := by
  refine ⟨fun ht' => hk (h.held ht' hc).1, fun ht' => ?_⟩
  cases hr : s.role t' with
  | idle =>
    rw [hr] at ht'
    cases ht'
  | waiting k' =>
    rw [hr] at ht'
    obtain rfl := Option.some.inj ht'
    exact absurd (h.waiting hr) hk
  | removing k' =>
    rw [hr] at ht'
    obtain rfl := Option.some.inj ht'
    exact absurd (h.removing (.inl hr) hc).1 hk
  | draining k' =>
    rw [hr] at ht'
    obtain rfl := Option.some.inj ht'
    exact absurd (h.removing (.inr hr) hc).1 hk
  | owning k' =>
    rw [hr] at ht'
    obtain rfl := Option.some.inj ht'
    exact h.deleter (.inr (.inr hr)) hrole

theorem Ok.unlink (h : Ok s k) (hrole : s.role t = .draining k) (hc : s.cells k = some c)
    (hwaiters : c.waiters = 0) :
    Ok ((s.setLinked (s.linked.erase k)).setRole t (.owning k)) k := by
  have hk : k ∉ s.linked.erase k := h.nodup.not_mem_erase
  have hlocked := h.draining hrole hc
  have hempty : {t | s.role t = .waiting k} = ∅ := by
    rw [← Set.encard_eq_zero, h.waiters hc, hwaiters]
    rfl
  have hwaiting : ∀ {t'}, s.role t' ≠ .waiting k := fun ht' =>
    Set.eq_empty_iff_forall_notMem.mp hempty _ ht'
  have hheld : ∀ {t'}, k ∉ s.held t' := by
    intro t' ht'
    rw [(h.held ht' hc).2] at hlocked
    cases hlocked
  have hother : ∀ {t'}, t' ≠ t → ¬(s.role t').Deletes k := fun hne ht' =>
    hne (h.deleter ht' (.inr (.inl hrole)))
  have hrole' : ∀ {t'}, Function.update s.role t (.owning k) t' ≠ .waiting k := by
    intro t'
    by_cases hne : t' = t
    · subst hne
      simp
    · rw [Function.update_of_ne hne]
      exact hwaiting
  have hdeletes : ∀ {t' r}, Function.update s.role t (.owning k) t' = r → r.Deletes k →
      t' = t ∧ r = .owning k := by
    intro t' r ht' hr
    by_cases hne : t' = t
    · subst hne
      rw [Function.update_self] at ht'
      exact ⟨rfl, ht'.symm⟩
    · rw [Function.update_of_ne hne] at ht'
      exact absurd (ht' ▸ hr) (hother hne)
  refine ⟨h.nodup.erase _, fun hk' => absurd hk' hk, fun hn => absurd hn (h.lt_next hc),
    fun ht' => absurd ht' hheld, fun ht' => absurd ht' hheld, h.locked, fun _ => ⟨c, hc⟩, ?_,
    fun ht' => absurd ht' hrole', ?_, ?_, ?_, fun h₁ h₂ =>
      (hdeletes rfl h₁).1.trans (hdeletes rfl h₂).1.symm⟩
  · intro c' hc'
    obtain rfl := Option.some.inj (hc.symm.trans hc')
    rw [hwaiters, Nat.cast_zero, Set.encard_eq_zero]
    exact Set.eq_empty_of_forall_notMem fun t' ht' => hrole' ht'
  · rintro t' c' (ht' | ht') -
    · exact absurd (hdeletes ht' (.inl rfl)).2 (by simp)
    · exact absurd (hdeletes ht' (.inr (.inl rfl))).2 (by simp)
  · intro t' c' ht' _
    exact absurd (hdeletes ht' (.inr (.inl rfl))).2 (by simp)
  · intro t' c' _ hc'
    obtain rfl := Option.some.inj (hc.symm.trans hc')
    exact ⟨hk, hlocked, hwaiters⟩

theorem Ok.destroy (h : Ok s k) (hrole : s.role t = .owning k) :
    Ok ((s.setCell k none).setRole t .idle) k := by
  obtain ⟨c, hc⟩ := h.alive (t := t) (.inr (by rw [hrole]; rfl))
  have hk := (h.owning hrole hc).1
  have hunused := h.unused hc hk (.inr (.inr hrole))
  have hnone : (s.setCell k none).cells k = none := Function.update_self ..
  have hdead : ∀ {c'}, (s.setCell k none).cells k ≠ some c' := by
    rw [hnone]
    simp
  have hrole' : ∀ {t'}, (Function.update s.role t .idle t').key ≠ some k := by
    intro t' ht'
    by_cases hne : t' = t
    · subst hne
      rw [Function.update_self] at ht'
      cases ht'
    · rw [Function.update_of_ne hne] at ht'
      exact hne ((hunused t').2 ht')
  have hne : ∀ {t' r}, Function.update s.role t .idle t' = r → r.key ≠ some k := by
    rintro t' _ rfl
    exact hrole'
  refine ⟨h.nodup, fun hk' => absurd hk' hk, fun _ => ⟨hk, hnone⟩, fun _ hc' => absurd hc' hdead,
    fun ht' => absurd ht' (hunused _).1, fun hc' => absurd hc' hdead, ?_,
    fun hc' => absurd hc' hdead, fun ht' => absurd rfl (hne ht'),
    fun _ hc' => absurd hc' hdead, fun _ hc' => absurd hc' hdead,
    fun _ hc' => absurd hc' hdead, fun ht' => absurd ht'.key hrole'⟩
  rintro t' (ht' | ht')
  · exact absurd ht' (hunused t').1
  · exact absurd ht' hrole'

theorem not_deletes {r : Role} (h : r = .idle ∨ r = .waiting k) : ¬r.Deletes k := by
  obtain rfl | rfl := h <;> simp [Role.Deletes]

/-- **The object of a move keeps what holds of it.** -/
theorem Ok.step_self (h : Ok s (key s e.2)) (hstep : Step s e s') :
    Ok s' (key s e.2) := by
  cases hstep with
  | create t x => exact h.create (.create t x)
  | acquire hk hc hlocked hdoomed => exact h.acquire hk hc hlocked hdoomed
  | release hheld hc => exact h.release hheld hc
  | wait hrole hk hc =>
    exact h.setWaiters hk hc (not_deletes (.inl hrole)) (not_deletes (.inr rfl))
      (h.encard_wait hc hrole)
  | wake hrole hc =>
    exact h.setWaiters (h.waiting hrole) hc (not_deletes (.inr hrole)) (not_deletes (.inl rfl))
      (h.encard_wake hc hrole)
  | @doom t k c hrole hk hc hdoomed =>
    have hnone : ∀ t', ¬(s.role t').Deletes k := by
      rintro t' (ht' | ht' | ht')
      · rw [(h.removing (.inl ht') hc).2] at hdoomed
        cases hdoomed
      · rw [(h.removing (.inr ht') hc).2] at hdoomed
        cases hdoomed
      · exact (h.owning ht' hc).1 hk
    have hmark := h.setCell hc { c with doomed := true } rfl rfl fun _ => rfl
    exact hmark.setRole (Function.update_self ..) (by simp [State.setCell, hrole]) (by simp)
      (fun _ => ⟨hk, rfl⟩) (by simp) (by simp) fun _ t' ht' => absurd ht' (hnone t')
  | drain hrole hc hlocked =>
    exact h.setRole hc (by simp [hrole]) (by simp) (fun _ => h.removing (.inl hrole) hc)
      (fun _ => hlocked) (by simp) fun _ t' ht' => h.deleter ht' (.inl hrole)
  | unlink hrole hc hwaiters => exact h.unlink hrole hc hwaiters
  | destroy hrole => exact h.destroy hrole
  | modify t f hc => exact h.setCell hc _ rfl rfl id

theorem ok_step (h : ∀ j, Ok s j) (hstep : Step s e s') (j : ℕ) : Ok s' j := by
  by_cases hj : j = key s e.2
  · rw [hj]
    exact (h _).step_self hstep
  · exact Ok.step_other h hstep hj

omit [DecidableEq τ] in
theorem ok_init (j : ℕ) :
    Ok (⟨fun _ => none, [], 0, fun _ => .idle, fun _ => ∅⟩ : State τ α) j := by
  constructor <;> simp [Role.Deletes, Role.key]

/-! ## Removal -/

theorem next_le_step (hstep : Step s e s') : s.next ≤ s'.next := by
  cases hstep with
  | create t x => exact Nat.le_succ _
  | _ => exact le_rfl

theorem unlinked_step (hstep : Step s e s') (hnext : k < s.next)
    (hk : k ∉ s.linked) : k ∉ s'.linked := by
  cases hstep with
  | create t x =>
    intro h
    obtain rfl | h := List.mem_cons.mp h
    · exact lt_irrefl _ hnext
    · exact hk h
  | unlink _ _ _ => exact fun h => hk (List.mem_of_mem_erase h)
  | _ => exact hk

theorem destroyed_step (hstep : Step s e s') (hnext : k < s.next)
    (hk : s.cells k = none) : s'.cells k = none := by
  have hother : ∀ {j : ℕ} {c : Cell α} {c' : Option (Cell α)}, s.cells j = some c →
      Function.update s.cells j c' k = none := by
    intro j c c' hc
    rw [Function.update_of_ne, hk]
    rintro rfl
    rw [hk] at hc
    cases hc
  cases hstep with
  | create t x => exact (Function.update_of_ne hnext.ne _ _).trans hk
  | acquire _ hc _ _ => exact hother hc
  | release _ hc => exact hother hc
  | wait _ _ hc => exact hother hc
  | wake _ hc => exact hother hc
  | doom _ _ hc _ => exact hother hc
  | drain _ _ _ => exact hk
  | unlink _ _ _ => exact hk
  | @destroy t j _ =>
    change Function.update s.cells j none k = none
    rw [Function.update_apply, hk, ite_self]
  | modify _ _ hc => exact hother hc

/-! ## What a thread does in one go -/

/-- A thread gets from one state to another by moves of a class. -/
def By (C : Move α → Prop) (t : τ) (s s' : State τ α) : Prop :=
  ∃ es, (∀ e ∈ es, e.1 = t ∧ C e.2) ∧ LTS.Steps system s es s'

variable {C : Move α → Prop}

theorem By.refl (s : State τ α) : By C t s s := ⟨[], by simp, .refl⟩

theorem By.trans {s'' : State τ α} (h : By C t s s') (h' : By C t s' s'') : By C t s s'' := by
  obtain ⟨es, hes, hrun⟩ := h
  obtain ⟨es', hes', hrun'⟩ := h'
  refine ⟨es ++ es', fun e he => ?_, hrun.trans hrun'⟩
  exact (List.mem_append.mp he).elim (hes e) (hes' e)

theorem By.single {m : Move α} (hm : C m) (h : Step s (t, m) s') : By C t s s' :=
  ⟨[(t, m)], by simpa using hm, LTS.steps_singleton.mpr h⟩

theorem By.ok (h : By C t s s') (hs : ∀ j, Ok s j) : ∀ j, Ok s' j := by
  obtain ⟨es, -, hrun⟩ := h
  exact hrun.preserves (I := fun s => ∀ j, Ok s j) (C := fun _ => True)
    (fun _ hs hstep => ok_step hs hstep) (fun _ _ => trivial) hs

theorem By.next_le (h : By C t s s') : s.next ≤ s'.next := by
  obtain ⟨es, -, hrun⟩ := h
  induction hrun with
  | refl => exact le_rfl
  | snoc _ hstep ih => exact ih.trans (next_le_step hstep)

theorem By.removed (h : By C t s s') (hk : k < s.next) :
    k < s'.next ∧ (k ∉ s.linked → k ∉ s'.linked) ∧ (s.cells k = none → s'.cells k = none) := by
  obtain ⟨es, -, hrun⟩ := h
  induction hrun with
  | refl => exact ⟨hk, id, id⟩
  | snoc _ hstep ih =>
    obtain ⟨hnext, hlinked, hcells⟩ := ih
    exact ⟨hnext.trans_le (next_le_step hstep), fun h => unlinked_step hstep hnext (hlinked h),
      fun h => destroyed_step hstep hnext (hcells h)⟩

/-- The move creates only objects of a class, and changes items only along a relation. -/
def Quiet (N : α → Prop) (R : ℕ → α → α → Prop) : Move α → Prop
  | .create x => N x
  | .modify k f => ∀ x, R k x (f x)
  | _ => True

/-- The object was there with an item that the new one is related to, or it is a new one. -/
def Comes (N : α → Prop) (R : ℕ → α → α → Prop) (s s' : State τ α) (k : ℕ) (x' : α) : Prop :=
  (∃ c, s.cells k = some c ∧ R k c.item x' ∧ (k ∈ s'.linked → k ∈ s.linked)) ∨
    s.next ≤ k ∧ ∃ x, N x ∧ R k x x'

theorem quiet_step {N : α → Prop} {R : ℕ → α → α → Prop} (hrefl : ∀ k x, R k x x)
    (hquiet : Quiet N R e.2) (hstep : Step s e s') {c' : Cell α}
    (hc' : s'.cells k = some c') : Comes N R s s' k c'.item := by
  have hcell : ∀ {j : ℕ} {c₀ c₁ : Cell α}, s.cells j = some c₀ →
      Function.update s.cells j (some c₁) k = some c' → R j c₀.item c₁.item →
      ∃ c, s.cells k = some c ∧ R k c.item c'.item := by
    intro j c₀ c₁ hc₀ hc' hR
    by_cases hj : k = j
    · subst hj
      obtain rfl := update_cell hc'
      exact ⟨c₀, hc₀, hR⟩
    · rw [Function.update_of_ne hj] at hc'
      exact ⟨c', hc', hrefl _ _⟩
  have hsame : (∃ c, s.cells k = some c ∧ R k c.item c'.item) → (k ∈ s'.linked → k ∈ s.linked) →
      Comes N R s s' k c'.item :=
    fun ⟨c, hc, hR⟩ hlinked => .inl ⟨c, hc, hR, hlinked⟩
  cases hstep with
  | create t x =>
    by_cases hk : k = s.next
    · subst hk
      obtain rfl := update_cell hc'
      exact .inr ⟨le_rfl, x, hquiet, hrefl _ _⟩
    · change Function.update s.cells s.next _ k = some c' at hc'
      rw [Function.update_of_ne hk] at hc'
      refine hsame ⟨c', hc', hrefl _ _⟩ fun hk' => ?_
      exact (List.mem_cons.mp hk').resolve_left hk
  | acquire _ hc _ _ => exact hsame (hcell hc hc' (hrefl _ _)) id
  | release _ hc => exact hsame (hcell hc hc' (hrefl _ _)) id
  | wait _ _ hc => exact hsame (hcell hc hc' (hrefl _ _)) id
  | wake _ hc => exact hsame (hcell hc hc' (hrefl _ _)) id
  | doom _ _ hc _ => exact hsame (hcell hc hc' (hrefl _ _)) id
  | drain _ _ _ => exact hsame ⟨c', hc', hrefl _ _⟩ id
  | unlink _ _ _ => exact hsame ⟨c', hc', hrefl _ _⟩ List.mem_of_mem_erase
  | @destroy t j _ =>
    change Function.update s.cells j none k = some c' at hc'
    by_cases hj : k = j
    · subst hj
      rw [Function.update_self] at hc'
      cases hc'
    · rw [Function.update_of_ne hj] at hc'
      exact hsame ⟨c', hc', hrefl _ _⟩ id
  | modify t f hc => exact hsame (hcell hc hc' (hquiet _)) id

/-- **What a thread does by quiet moves**: every object that is there was there, with an item it
is related to, or is a new one. -/
theorem By.quiet {N : α → Prop} {R : ℕ → α → α → Prop} (hrefl : ∀ k x, R k x x)
    (htrans : ∀ {k x y z}, R k x y → R k y z → R k x z) (hC : ∀ m, C m → Quiet N R m)
    (h : By C t s s') {c' : Cell α} (hc' : s'.cells k = some c') : Comes N R s s' k c'.item := by
  obtain ⟨es, hes, hrun⟩ := h
  induction hrun generalizing c' with
  | refl => exact .inl ⟨c', hc', hrefl _ _, id⟩
  | snoc hrun hstep ih =>
    have hes' := fun e he => hes e (List.mem_append_left _ he)
    obtain ⟨c₁, hc₁, hR₁, hlinked₁⟩ | ⟨hnext, x, hN, hR₁⟩ :=
      quiet_step hrefl (hC _ (hes _ (by simp)).2) hstep hc'
    · obtain ⟨c, hc, hR, hlinked⟩ | ⟨hnext, x, hN, hR⟩ := ih hc₁ hes'
      · exact .inl ⟨c, hc, htrans hR hR₁, hlinked ∘ hlinked₁⟩
      · exact .inr ⟨hnext, x, hN, htrans hR hR₁⟩
    · exact .inr ⟨(By.next_le ⟨_, hes', hrun⟩).trans hnext, x, hN, hR₁⟩

end Handover
