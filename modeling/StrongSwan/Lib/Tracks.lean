import Mathlib

/-!
# Two tracks of increasing numbers

A generator has two tracks and remembers the last number of each, its mark. Numbers above the mark of
a track are new to it.

* `Tracks`, `put`: the marks, and a number put on a track.
* `Below`: all issued numbers are at or below the marks; **`Below.fresh`**: a number above the mark is
  new, and `Below.put` keeps it so.
* `place`: the lower track if the number is above its mark, else the upper one.
* `Streams`, **`place_streams`**: of two streams that increase each for itself, in any interleaving,
  every number finds a place.
-/

inductive Track
  | lower
  | upper
  deriving DecidableEq, Repr

/-- The marks of the two tracks, `⊥` for an empty one. -/
structure Tracks (α : Type*) where
  lower : WithBot α
  upper : WithBot α

namespace Tracks

variable {α : Type*} [LinearOrder α] {s : Tracks α} {k : Track} {x : α} {issued : List (Track × α)}

def mark (s : Tracks α) : Track → WithBot α
  | .lower => s.lower
  | .upper => s.upper

/-- A number is put on a track. -/
def put (s : Tracks α) (x : α) : Track → Tracks α
  | .lower => { s with lower := x }
  | .upper => { s with upper := x }

omit [LinearOrder α] in
theorem mark_put_self (s : Tracks α) (x : α) (k : Track) : (s.put x k).mark k = x := by
  cases k <;> rfl

omit [LinearOrder α] in
theorem mark_put_of_ne (s : Tracks α) (x : α) {j k : Track} (h : j ≠ k) :
    (s.put x k).mark j = s.mark j := by
  cases j <;> cases k <;> first | rfl | exact absurd rfl h

/-! ## Numbers that were issued -/

/-- No issued number is above the mark of its track. -/
def Below (s : Tracks α) (issued : List (Track × α)) : Prop :=
  ∀ p ∈ issued, (p.2 : WithBot α) ≤ s.mark p.1

theorem below_nil : s.Below [] := nofun

/-- **A number above the mark is new.** -/
theorem Below.fresh (h : s.Below issued) (hx : s.mark k < x) : (k, x) ∉ issued :=
  fun hmem => absurd (h _ hmem) hx.not_ge

theorem Below.put (h : s.Below issued) (hx : s.mark k < x) : (s.put x k).Below ((k, x) :: issued) := by
  intro p hp
  obtain rfl | hp := List.mem_cons.mp hp
  · rw [mark_put_self]
  · by_cases hk : p.1 = k
    · rw [hk, mark_put_self]
      exact (hk ▸ h p hp).trans hx.le
    · rw [mark_put_of_ne _ _ hk]
      exact h p hp

/-! ## Two streams -/

/-- The track of a number, if it is new. -/
def place (s : Tracks α) (x : α) : Option Track :=
  if s.lower < x then some .lower else if s.upper < x then some .upper else none

theorem lt_of_place (h : s.place x = some k) : s.mark k < x := by
  unfold place at h
  split_ifs at h with hlower hupper
  · cases h
    exact hlower
  · cases h
    exact hupper

/-- The last numbers of two streams. The lower track has the higher one, and what is on the upper
track has been passed by both. -/
structure Streams (s : Tracks α) (last : Bool → WithBot α) : Prop where
  lower : s.lower = max (last false) (last true)
  upper : ∀ b, s.upper ≤ last b

theorem streams_bot : Streams (⟨⊥, ⊥⟩ : Tracks α) fun _ => ⊥ :=
  ⟨(max_self _).symm, fun _ => le_rfl⟩

theorem max_last (last : Bool → WithBot α) (b : Bool) :
    max (last false) (last true) = max (last b) (last !b) := by
  cases b
  · rfl
  · exact max_comm _ _

/-- **A number that is new to its stream finds a place.** -/
theorem place_streams {last : Bool → WithBot α} (h : s.Streams last) {b : Bool} (hx : last b < x) :
    ∃ k, s.place x = some k ∧ (s.put x k).Streams (Function.update last b x) := by
  have hupper : s.upper < x := (h.upper b).trans_lt hx
  have hlower := h.lower
  rw [max_last last b] at hlower
  have hlast : ∀ c, last c ≤ Function.update last b (x : WithBot α) c := by
    intro c
    by_cases hc : c = b
    · rw [hc, Function.update_self]
      exact hx.le
    · rw [Function.update_of_ne hc]
  have hother : (!b) ≠ b := by cases b <;> decide
  by_cases hplace : s.lower < x
  · refine ⟨.lower, if_pos hplace, ?_, fun c => (h.upper c).trans (hlast c)⟩
    -- both streams have passed to the new number or stay below it
    rw [max_last _ b, Function.update_self, Function.update_of_ne hother, max_eq_left]
    · rfl
    · exact (le_max_right _ _).trans (hlower ▸ hplace.le)
  · -- the other stream is ahead
    have hle : (x : WithBot α) ≤ last !b := by
      have := not_lt.mp hplace
      rw [hlower] at this
      exact (le_max_iff.mp this).resolve_left hx.not_ge
    refine ⟨.upper, (if_neg hplace).trans (if_pos hupper), ?_, fun c => ?_⟩
    · rw [max_last _ b, Function.update_self, Function.update_of_ne hother, max_eq_right hle]
      exact hlower.trans (max_eq_right (hx.le.trans hle))
    · change (x : WithBot α) ≤ _
      by_cases hc : c = b
      · rw [hc, Function.update_self]
      · have hcb : c = !b := by cases b <;> cases c <;> first | rfl | exact absurd rfl hc
        rw [Function.update_of_ne hc, hcb]
        exact hle

end Tracks
