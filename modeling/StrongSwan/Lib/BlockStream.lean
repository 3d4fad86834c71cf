import Mathlib

/-!
# Streams of blocks

A stream is given by blocks of one size, and read in pieces of any size.

* `item`, `slice`: an item of the stream, and some of them from a position on.
* **`slice_add`**: slices that follow each other are one slice.
* `take_drop_block`: what is within a block.
-/

namespace BlockStream

universe u

variable {α : Type u} [Inhabited α] (size : ℕ) (block : ℕ → List α)

/-- The item at a position. -/
def item (i : ℕ) : α := (block (i / size)).getD (i % size) default

/-- The items from a position on. -/
def slice (start len : ℕ) : List α := (List.range' start len).map (item size block)

variable {size : ℕ} {block : ℕ → List α}

@[simp] theorem length_slice (start len : ℕ) : (slice size block start len).length = len := by
  simp [slice]

@[simp] theorem slice_zero (start : ℕ) : slice size block start 0 = [] := rfl

/-- **Slices that follow each other are one slice.** -/
theorem slice_add (start len len' : ℕ) : slice size block start (len + len') =
    slice size block start len ++ slice size block (start + len) len' := by
  rw [slice, slice, slice, ← List.map_append, ← List.range'_append_1]

theorem take_drop_block {n used len : ℕ} (hsize : 0 < size) (hlength : (block n).length = size)
    (hlen : used + len ≤ size) :
    ((block n).drop used).take len = slice size block (n * size + used) len := by
  refine List.ext_getElem (by simp; omega) fun i hi hi' => ?_
  have hlt : i < len := by simpa using hi'
  have hdiv : (n * size + used + i) / size = n := by
    rw [Nat.add_assoc, Nat.mul_comm, Nat.mul_add_div hsize, Nat.div_eq_of_lt (by omega), Nat.add_zero]
  have hmod : (n * size + used + i) % size = used + i := by
    rw [Nat.add_assoc, Nat.mul_comm, Nat.mul_add_mod, Nat.mod_eq_of_lt (by omega)]
  simp only [List.getElem_take, List.getElem_drop, slice, List.getElem_map, List.getElem_range',
    Nat.one_mul, item, hdiv, hmod]
  rw [List.getD_eq_getElem?_getD, List.getElem?_eq_getElem (by omega), Option.getD_some]

end BlockStream
