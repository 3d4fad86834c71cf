import Mathlib

/-!
# Enumerators

An enumerator takes turns. A turn stops, or goes on to the next state, with or without a value.

* `Turn`, `Next`, `Reached`, `Yields`: the states of an enumeration, and the values it yields.
* `Ends`: an enumeration that stops.
* **`ends_of_decreasing`**, `reached_invariant`: the rules for a measure and for an invariant.
-/

namespace Enumeration

/-- A turn of an enumerator. -/
inductive Turn (ε α : Type*)
  | stop
  | again (next : ε)
  | yield (a : α) (next : ε)

variable {ε α : Type*}

def Turn.ofOption : Option (α × ε) → Turn ε α
  | none => .stop
  | some (a, next) => .yield a next

variable {turn : ε → Turn ε α} {e e' start : ε} {a : α}

/-- The state after a turn. -/
def Next (turn : ε → Turn ε α) (e e' : ε) : Prop :=
  turn e = .again e' ∨ ∃ a, turn e = .yield a e'

/-- The states of an enumeration. -/
def Reached (turn : ε → Turn ε α) : ε → ε → Prop := Relation.ReflTransGen (Next turn)

/-- The values of an enumeration. -/
def Yields (turn : ε → Turn ε α) (start : ε) (a : α) : Prop :=
  ∃ e next, Reached turn start e ∧ turn e = .yield a next

/-- The enumeration stops. -/
def Ends (turn : ε → Turn ε α) (e : ε) : Prop := Acc (fun e' e => Next turn e e') e

theorem reached_invariant {P : ε → Prop} (hstep : ∀ e e', P e → Next turn e e' → P e')
    (hstart : P start) (he : Reached turn start e) : P e := by
  induction he with
  | refl => exact hstart
  | tail _ hnext ih => exact hstep _ _ ih hnext

theorem ends_of_decreasing {P : ε → Prop} (measure : ε → ℕ)
    (hstep : ∀ e e', P e → Next turn e e' → P e' ∧ measure e' < measure e) (hinv : P e) :
    Ends turn e := by
  induction hm : measure e using Nat.strong_induction_on generalizing e with
  | _ m ih =>
    refine ⟨e, fun e' hnext => ?_⟩
    obtain ⟨hinv', hlt⟩ := hstep e e' hinv hnext
    exact ih _ (hm ▸ hlt) hinv' rfl

theorem yields_of_yields {next : ε} (hturn : Next turn e next) (h : Yields turn next a) :
    Yields turn e a := by
  obtain ⟨last, after, hreached, hyield⟩ := h
  exact ⟨last, after, .head hturn hreached, hyield⟩

theorem yields_iff_of_yield {b : α} {next : ε} (h : turn e = .yield b next) :
    Yields turn e a ↔ a = b ∨ Yields turn next a := by
  constructor
  · rintro ⟨last, after, hreached, hyield⟩
    rcases Relation.ReflTransGen.cases_head hreached with rfl | ⟨e', hnext, hrest⟩
    · rw [h] at hyield
      injection hyield with hab
      exact .inl hab.symm
    · rcases hnext with hagain | ⟨c, hyielded⟩
      · rw [h] at hagain
        cases hagain
      · rw [h] at hyielded
        injection hyielded with _ hnext
        exact .inr ⟨last, after, hnext ▸ hrest, hyield⟩
  · rintro (rfl | hlater)
    · exact ⟨e, next, .refl, h⟩
    · exact yields_of_yields (.inr ⟨b, h⟩) hlater

theorem not_yields_of_stop (h : turn e = .stop) : ¬ Yields turn e a := by
  rintro ⟨last, after, hreached, hyield⟩
  rcases Relation.ReflTransGen.cases_head hreached with rfl | ⟨e', hagain | ⟨b, hyielded⟩, -⟩
  · rw [h] at hyield
    cases hyield
  · rw [h] at hagain
    cases hagain
  · rw [h] at hyielded
    cases hyielded

end Enumeration
