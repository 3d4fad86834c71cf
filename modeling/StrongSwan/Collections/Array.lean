import Mathlib.Data.List.Basic
import Mathlib.Tactic

/-!
# Arrays

`Arr` is an element-based `array_t`: its elements, and the numbers of allocated but unused elements
at its front and its end. The room decides on which side an insertion or a removal moves the
elements, which a caller notices that passes a pointer into the array itself (`insertOwn`).
-/

namespace StrongSwan

/-- Maximum number of unused head/tail elements before cleanup. -/
def ARRAY_MAX_UNUSED : ℕ := 32

/-- `array_t` -/
structure Arr (α : Type) where
  elems : List α
  /-- allocated but unused elements at array front -/
  head : ℕ
  /-- allocated but unused elements at array end -/
  tail : ℕ
  deriving DecidableEq

namespace Arr

variable {α : Type}

def create (reserve : ℕ) : Arr α := ⟨[], 0, reserve⟩

/-- The side `array_insert` makes space on when it appends: `true` for the head room. -/
def insertsAtHead (this : Arr α) : Bool :=
  if 0 < this.head ∧ this.tail = 0 then true
  else if 0 < this.tail ∧ this.head = 0 then false
  else ¬ this.elems.length > this.elems.length / 2

/-- `array_insert` at `ARRAY_TAIL` -/
def insert (this : Arr α) (data : α) : Arr α :=
  if this.insertsAtHead then ⟨this.elems ++ [data], max this.head 1 - 1, this.tail⟩
  else ⟨this.elems ++ [data], this.head, max this.tail 1 - 1⟩

/-- `array_insert` at `ARRAY_TAIL` of the own element at index `i`, passed by its address. Making
space at the head moves the elements down first, so that the address holds the next element; a
`realloc` is taken to leave the old bytes readable. -/
def insertOwn (this : Arr α) (i : ℕ) (own : α) : Arr α :=
  if this.insertsAtHead then this.insert (this.elems.getD (i + 1) own) else this.insert own

def compress (this : Arr α) : Arr α := ⟨this.elems, 0, 0⟩

def remove (this : Arr α) (i : ℕ) : Arr α :=
  let removed : Arr α :=
    if i > this.elems.length / 2 then ⟨this.elems.eraseIdx i, this.head, this.tail + 1⟩
    else ⟨this.elems.eraseIdx i, this.head + 1, this.tail⟩
  if removed.head + removed.tail > ARRAY_MAX_UNUSED then removed.compress else removed

@[simp] theorem elems_create (n : ℕ) : (create n : Arr α).elems = [] := rfl

@[simp] theorem elems_insert (a : Arr α) (x : α) : (a.insert x).elems = a.elems ++ [x] := by
  unfold insert
  split_ifs <;> rfl

@[simp] theorem elems_remove (a : Arr α) (i : ℕ) : (a.remove i).elems = a.elems.eraseIdx i := by
  unfold remove compress
  dsimp only
  split_ifs <;> rfl

theorem elems_insertOwn {a : Arr α} {i : ℕ} {own : α} (h : own ∈ a.elems) :
    ∃ x ∈ a.elems, (a.insertOwn i own).elems = a.elems ++ [x] := by
  unfold insertOwn
  split_ifs
  · refine ⟨a.elems.getD (i + 1) own, ?_, elems_insert _ _⟩
    rw [List.getD_eq_getElem?_getD]
    cases hx : a.elems[i + 1]? with
    | none => exact h
    | some x => exact List.mem_of_getElem? hx
  · exact ⟨own, h, elems_insert _ _⟩

end Arr

end StrongSwan
