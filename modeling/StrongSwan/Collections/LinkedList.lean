import Mathlib.Data.List.Sort
import Mathlib.Data.List.InsertIdx

/-!
# Linked lists

Lists with the position of an enumerator, which decides where `insertBefore` puts an element.

**`insertBefore_enumerateUntil`**: inserting where a loop was left is ordered insertion.
-/

namespace StrongSwan

namespace LinkedList

variable {α : Type}

/-- The position of a list enumerator. -/
inductive Enumerator
  | start
  | element (i : ℕ)
  | finished
  deriving DecidableEq, Repr

/-- The position in which a loop over the list is left at the first element that satisfies `p`. -/
def enumerateUntil (p : α → Bool) (list : List α) : Enumerator :=
  match list.findIdx? p with
  | some i => .element i
  | none => .finished

def insertBefore (list : List α) (enumerator : Enumerator) (item : α) : List α :=
  match enumerator with
  | .start => item :: list
  | .element i => list.insertIdx i item
  | .finished => list ++ [item]

/-- The elements an enumerator at `x` has still to visit, if there is such an element. -/
def following [DecidableEq α] (x : α) : List α → Option (List α)
  | [] => none
  | y :: list => if y = x then some list else following x list

theorem exists_following [DecidableEq α] {x : α} {list : List α} (h : x ∈ list) :
    ∃ visited rest, following x list = some rest ∧ list = visited ++ x :: rest := by
  induction list with
  | nil => cases h
  | cons y list ih =>
    by_cases hy : y = x
    · subst hy
      exact ⟨[], list, if_pos rfl, rfl⟩
    · obtain ⟨visited, rest, hrest, heq⟩ := ih (List.mem_of_ne_of_mem (Ne.symm hy) h)
      exact ⟨y :: visited, rest, (if_neg hy).trans hrest, by rw [heq, List.cons_append]⟩

/-- `remove_at`, of an element that must be in the list; the enumerator goes back by one. -/
def removeAt [DecidableEq α] (x : α) (list : List α) : Option (List α) :=
  if x ∈ list then some (list.erase x) else none

/-- **Insertion before the first element that may follow.** -/
theorem insertBefore_enumerateUntil (r : α → α → Prop) [DecidableRel r] (list : List α) (item : α) :
    insertBefore list (enumerateUntil (fun current => r item current) list) item =
      list.orderedInsert r item := by
  induction list with
  | nil => rfl
  | cons a list ih =>
    rw [List.orderedInsert_cons]
    unfold enumerateUntil at ih ⊢
    rw [List.findIdx?_cons]
    by_cases h : r item a
    · simp [h, insertBefore]
    · simp only [h, decide_false, Bool.false_eq_true, if_false, ← ih]
      cases list.findIdx? fun current => r item current <;> rfl

end LinkedList

end StrongSwan
