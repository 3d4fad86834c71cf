import Mathlib

/-!
# Numbered pieces

Pieces with numbers are kept in increasing order, one for each number.

* `insertNew`: a piece is inserted at its place, unless there is one with its number.
* `Numbered`: the numbers increase; **`insertNew_spec`**.
* `cut`: pieces from the front of a list; **`flatten_cut`**.
* `exists_first`: where a sequence has them all for the first time.
* **`numbers_of_complete`**: `n` pieces with numbers from `1` to `n` have exactly these numbers.
-/

namespace Pieces

universe u

variable {α : Type u} (number : α → ℕ)

/-- Insert a piece before the first one with a higher number than the given one; `none` if there is a
piece with that number before. -/
def insertNew (n : ℕ) (x : α) : List α → Option (List α)
  | [] => some [x]
  | y :: l =>
    if number y = n then none
    else if number y > n then some (x :: y :: l)
    else (insertNew n x l).map (y :: ·)

/-- The numbers increase. -/
def Numbered (l : List α) : Prop := l.Pairwise fun x y => number x < number y

variable {number} {n : ℕ} {x : α} {l l' : List α}

theorem Numbered.nodup (h : Numbered number l) : l.Nodup :=
  h.imp fun hlt heq => absurd (congrArg number heq) (ne_of_lt hlt)

theorem mem_of_insertNew (h : insertNew number n x l = some l') {y : α} (hy : y ∈ l') :
    y = x ∨ y ∈ l := by
  induction l generalizing l' with
  | nil =>
    obtain rfl := Option.some.inj h
    exact .inl (List.mem_singleton.mp hy)
  | cons z l ih =>
    unfold insertNew at h
    split_ifs at h
    · obtain rfl := Option.some.inj h
      exact List.mem_cons.mp hy
    · obtain ⟨l'', hl'', rfl⟩ := Option.map_eq_some_iff.mp h
      obtain rfl | hy := List.mem_cons.mp hy
      · exact .inr List.mem_cons_self
      · exact (ih hl'' hy).imp_right (List.mem_cons_of_mem _)

/-- **A new piece gets its place**, and only a number that is there already is refused. -/
theorem insertNew_spec (hl : Numbered number l) (hx : number x = n) :
    (insertNew number n x l = none ∧ ∃ y ∈ l, number y = n) ∨
      ∃ l', insertNew number n x l = some l' ∧ (∀ y ∈ l, number y ≠ n) ∧ Numbered number l' ∧
        l'.Perm (x :: l) := by
  induction l with
  | nil => exact .inr ⟨[x], rfl, by simp, List.pairwise_singleton _ _, .refl _⟩
  | cons y l ih =>
    obtain ⟨hy, hl⟩ := List.pairwise_cons.mp hl
    unfold insertNew
    split_ifs with heq hgt
    · exact .inl ⟨rfl, y, List.mem_cons_self, heq⟩
    · refine .inr ⟨_, rfl, fun z hz => ?_, ?_, .refl _⟩
      · obtain rfl | hz := List.mem_cons.mp hz
        · exact heq
        · have := hy z hz
          omega
      · refine List.pairwise_cons.mpr ⟨fun z hz => ?_, List.pairwise_cons.mpr ⟨hy, hl⟩⟩
        obtain rfl | hz := List.mem_cons.mp hz
        · omega
        · have := hy z hz
          omega
    · obtain ⟨hnone, z, hz, hn⟩ | ⟨l', hsome, hnew, hl', hperm⟩ := ih hl
      · exact .inl ⟨by rw [hnone, Option.map_none], z, List.mem_cons_of_mem _ hz, hn⟩
      · refine .inr ⟨y :: l', by rw [hsome, Option.map_some], fun z hz => ?_, ?_, ?_⟩
        · obtain rfl | hz := List.mem_cons.mp hz
          · exact heq
          · exact hnew z hz
        · refine List.pairwise_cons.mpr ⟨fun z hz => ?_, hl'⟩
          obtain rfl | hz := List.mem_cons.mp (hperm.subset hz)
          · omega
          · exact hy z hz
        · exact (hperm.cons y).trans (.swap _ _ _)

theorem eq_of_perm (hl : Numbered number l) (hl' : Numbered number l') (h : l.Perm l') : l = l' :=
  h.eq_of_pairwise (fun _ _ _ _ h₁ h₂ => absurd h₁ h₂.asymm) hl hl'

/-- **As many pieces as there are numbers** have them all, in order. -/
theorem numbers_of_complete (hl : Numbered number l) (hrange : ∀ y ∈ l, 1 ≤ number y ∧ number y ≤ n)
    (hlength : l.length = n) : l.map number = List.range' 1 n := by
  have hsorted : (l.map number).Pairwise (· < ·) := List.pairwise_map.mpr hl
  have hsub : (l.map number).Subperm (List.range' 1 n) := by
    refine List.subperm_of_subset (hsorted.imp ne_of_lt) fun k hk => ?_
    obtain ⟨y, hy, rfl⟩ := List.mem_map.mp hk
    have := hrange y hy
    exact List.mem_range'_1.mpr (by omega)
  have hperm : (l.map number).Perm (List.range' 1 n) :=
    hsub.perm_of_length_le (by rw [List.length_map, List.length_range', hlength])
  exact hperm.eq_of_pairwise (fun _ _ _ _ h₁ h₂ => absurd h₁ h₂.asymm) hsorted
    List.pairwise_lt_range'

/-- Cut `n` pieces of a length from the front of a list. -/
def cut (len : ℕ) : ℕ → List α → List (List α)
  | 0, _ => []
  | n + 1, l => l.take len :: cut len n (l.drop len)

@[simp] theorem length_cut (len n : ℕ) (l : List α) : (cut len n l).length = n := by
  induction n generalizing l with
  | zero => rfl
  | succ n ih => rw [cut, List.length_cons, ih]

/-- **The pieces are the front of the list.** -/
theorem flatten_cut (len n : ℕ) (l : List α) : (cut len n l).flatten = l.take (n * len) := by
  induction n generalizing l with
  | zero => simp [cut]
  | succ n ih =>
    rw [cut, List.flatten_cons, ih, Nat.succ_mul, Nat.add_comm, List.take_add]

theorem getElem?_cut (len n : ℕ) (l : List α) {k : ℕ} (h : k < n) :
    (cut len n l)[k]? = some ((l.drop (k * len)).take len) := by
  induction n generalizing l k with
  | zero => exact absurd h (Nat.not_lt_zero k)
  | succ n ih =>
    cases k with
    | zero => rw [cut, Nat.zero_mul]; rfl
    | succ k =>
      rw [cut, List.getElem?_cons_succ, ih _ (Nat.lt_of_succ_lt_succ h), List.drop_drop,
        Nat.succ_mul, Nat.add_comm]

theorem exists_first {P : List α → Prop} (hnil : ¬ P []) {l : List α} (h : P l) :
    ∃ before x after, l = before ++ x :: after ∧ ¬ P before ∧ P (before ++ [x]) := by
  induction l using List.reverseRecOn with
  | nil => exact absurd h hnil
  | append_singleton l x ih =>
    by_cases hl : P l
    · obtain ⟨before, y, after, rfl, hbefore, hy⟩ := ih hl
      exact ⟨before, y, after ++ [x], by simp, hbefore, hy⟩
    · exact ⟨l, x, [], rfl, hl, h⟩

end Pieces
