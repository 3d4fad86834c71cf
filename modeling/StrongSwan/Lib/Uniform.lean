import Mathlib.Data.List.Basic

/-!
# Joined blocks of one length

Blocks of `n` items that are joined are taken, dropped, read and replaced at multiples of `n`.
-/

namespace Uniform

variable {α β : Type*} {f : α → List β} {n : ℕ}

theorem length_flatMap (h : ∀ a, (f a).length = n) (xs : List α) :
    (xs.flatMap f).length = n * xs.length := by
  induction xs with
  | nil => rfl
  | cons x xs ih =>
    rw [List.flatMap_cons, List.length_append, h, ih, List.length_cons, Nat.mul_succ, Nat.add_comm]

theorem drop_flatMap (h : ∀ a, (f a).length = n) (xs : List α) (k : ℕ) :
    (xs.flatMap f).drop (n * k) = (xs.drop k).flatMap f := by
  induction xs generalizing k with
  | nil => simp
  | cons x xs ih =>
    cases k with
    | zero => rfl
    | succ k =>
      rw [List.flatMap_cons, Nat.mul_succ, Nat.add_comm, ← List.drop_drop, ← h x, List.drop_left,
        h x, ih, List.drop_succ_cons]

theorem take_flatMap (h : ∀ a, (f a).length = n) (xs : List α) (k : ℕ) :
    (xs.flatMap f).take (n * k) = (xs.take k).flatMap f := by
  induction xs generalizing k with
  | nil => simp
  | cons x xs ih =>
    cases k with
    | zero => rfl
    | succ k =>
      rw [List.flatMap_cons, Nat.mul_succ, Nat.add_comm, ← h x, List.take_length_add_append,
        h x, ih, List.take_succ_cons, List.flatMap_cons]

theorem set_flatMap (h : ∀ a, (f a).length = n) {xs : List α} {k : ℕ} (hk : k < xs.length) (a : α) :
    (xs.set k a).flatMap f =
      (xs.flatMap f).take (n * k) ++ (f a ++ (xs.flatMap f).drop (n * k + n)) := by
  rw [List.set_eq_take_append_cons_drop, if_pos hk, List.flatMap_append, List.flatMap_cons,
    ← Nat.mul_succ, take_flatMap h, drop_flatMap h]

theorem getElem_flatMap (h : ∀ a, (f a).length = n) {xs : List α} {k : ℕ} {a : α}
    (ha : xs[k]? = some a) : ((xs.flatMap f).drop (n * k)).take n = f a := by
  obtain ⟨hk, rfl⟩ := List.getElem?_eq_some_iff.mp ha
  rw [drop_flatMap h, List.drop_eq_getElem_cons hk, List.flatMap_cons]
  nth_rewrite 1 [← h xs[k]]
  exact List.take_left

theorem replicate_flatMap {b : β} {a : α} (h : f a = List.replicate n b) (k : ℕ) :
    (List.replicate k a).flatMap f = List.replicate (n * k) b := by
  induction k with
  | zero => rfl
  | succ k ih =>
    rw [List.replicate_succ, List.flatMap_cons, h, ih, Nat.mul_succ, Nat.add_comm,
      List.replicate_add]

end Uniform
