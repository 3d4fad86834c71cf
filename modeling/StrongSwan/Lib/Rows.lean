import Mathlib

/-!
# Tables with rows

The items of a hash table with the rows they are in. Items are put at the front of their row, and the
first one of a row that satisfies a predicate is found, changed or removed.

* `find`, `put`, `remove`, `modify`.
* **`find_cases`**: where the item that is found is, and what removing and changing it do.
* **`find_modify_of_ne`**, `find_modify_self`, `find_remove_of_ne`: what is found after a change.
* `sumOf`: the sum of weights of the items.
* `Placed`: every item is in its row.
-/

namespace Rows

universe u

variable {α : Type u}

/-- An item is in a row and satisfies a predicate. -/
def hit (row : ℕ) (p : α → Bool) (item : ℕ × α) : Bool := item.1 = row && p item.2

/-- The first item of a row that satisfies a predicate. -/
def find (row : ℕ) (p : α → Bool) (t : List (ℕ × α)) : Option α :=
  (t.find? (hit row p)).map Prod.snd

/-- Insert an item at the front of a row. -/
def put (row : ℕ) (x : α) (t : List (ℕ × α)) : List (ℕ × α) := (row, x) :: t

/-- Remove the first item of a row that satisfies a predicate. -/
def remove (row : ℕ) (p : α → Bool) (t : List (ℕ × α)) : List (ℕ × α) := t.eraseP (hit row p)

/-- Change the first item of a row that satisfies a predicate. -/
def modify (row : ℕ) (p : α → Bool) (f : α → α) : List (ℕ × α) → List (ℕ × α)
  | [] => []
  | item :: t => if hit row p item then (item.1, f item.2) :: t else item :: modify row p f t

variable {row : ℕ} {p : α → Bool} {x : α} {t : List (ℕ × α)}

theorem hit_iff {item : ℕ × α} : hit row p item = true ↔ item.1 = row ∧ p item.2 = true := by
  simp [hit]

/-- **Where an item is found**: nothing before it is a hit, and what is removed or changed is this
item. -/
theorem find_cases (row : ℕ) (p : α → Bool) (t : List (ℕ × α)) :
    (find row p t = none ∧ (∀ item ∈ t, hit row p item = false) ∧ remove row p t = t ∧
      ∀ f, modify row p f t = t) ∨
    ∃ before x after, t = before ++ (row, x) :: after ∧ p x = true ∧
      (∀ item ∈ before, hit row p item = false) ∧ find row p t = some x ∧
      remove row p t = before ++ after ∧
      ∀ f, modify row p f t = before ++ (row, f x) :: after := by
  induction t with
  | nil => exact .inl ⟨rfl, by simp, rfl, fun f => rfl⟩
  | cons item t ih =>
    by_cases hhit : hit row p item = true
    · obtain ⟨rfl, hp⟩ := hit_iff.mp hhit
      refine .inr ⟨[], item.2, t, rfl, hp, by simp, ?_, ?_, fun f => ?_⟩
      · rw [find, List.find?_cons_of_pos hhit]
        rfl
      · rw [remove, List.eraseP_cons_of_pos hhit]
        rfl
      · rw [modify, if_pos hhit]
        rfl
    · have hnot : hit row p item = false := by simpa using hhit
      have hfind : find row p (item :: t) = find row p t := by
        rw [find, List.find?_cons_of_neg (by simp [hnot])]
        rfl
      have hremove : remove row p (item :: t) = item :: remove row p t :=
        List.eraseP_cons_of_neg (by simp [hnot])
      have hmodify : ∀ f, modify row p f (item :: t) = item :: modify row p f t := fun f => by
        rw [modify, if_neg hhit]
      obtain ⟨hnone, hmiss, hsame, hsame'⟩ | ⟨before, x, after, rfl, hp, hmiss, hsome, hrest, hchange⟩ :=
        ih
      · refine .inl ⟨hfind.trans hnone, ?_, hremove.trans (by rw [hsame]), fun f => ?_⟩
        · exact List.forall_mem_cons.mpr ⟨hnot, hmiss⟩
        · rw [hmodify, hsame']
      · refine .inr ⟨item :: before, x, after, rfl, hp, ?_, hfind.trans hsome, ?_, fun f => ?_⟩
        · exact List.forall_mem_cons.mpr ⟨hnot, hmiss⟩
        · rw [hremove, hrest]
          rfl
        · rw [hmodify, hchange]
          rfl

theorem find_some (h : find row p t = some x) :
    ∃ before after, t = before ++ (row, x) :: after ∧ p x = true ∧
      (∀ item ∈ before, hit row p item = false) ∧ remove row p t = before ++ after ∧
      ∀ f, modify row p f t = before ++ (row, f x) :: after := by
  obtain ⟨hnone, -⟩ | ⟨before, y, after, ht, hp, hmiss, hsome, hremove, hmodify⟩ := find_cases row p t
  · rw [hnone] at h
    cases h
  · obtain rfl := Option.some.inj (hsome.symm.trans h)
    exact ⟨before, after, ht, hp, hmiss, hremove, hmodify⟩

theorem mem_of_find (h : find row p t = some x) : (row, x) ∈ t := by
  obtain ⟨before, after, rfl, -⟩ := find_some h
  simp

theorem pred_of_find (h : find row p t = some x) : p x = true := by
  obtain ⟨before, after, -, hp, -⟩ := find_some h
  exact hp

theorem find_none (h : find row p t = none) : ∀ x, (row, x) ∈ t → p x = false := by
  obtain ⟨-, hmiss, -⟩ | ⟨before, y, after, -, -, -, hsome, -⟩ := find_cases row p t
  · intro x hx
    have hhit := hmiss _ hx
    rw [← Bool.not_eq_true, hit_iff] at hhit
    simpa using hhit
  · rw [hsome] at h
    cases h

theorem isSome_find (hmem : (row, x) ∈ t) (hp : p x = true) : (find row p t).isSome = true := by
  cases h : find row p t with
  | none => rw [find_none h x hmem] at hp; cases hp
  | some y => rfl

theorem perm_remove (h : find row p t = some x) : t.Perm ((row, x) :: remove row p t) := by
  obtain ⟨before, after, rfl, -, -, hremove, -⟩ := find_some h
  rw [hremove]
  exact List.perm_middle

theorem perm_modify (h : find row p t = some x) (f : α → α) :
    (modify row p f t).Perm ((row, f x) :: remove row p t) := by
  obtain ⟨before, after, rfl, -, -, hremove, hmodify⟩ := find_some h
  rw [hremove, hmodify]
  exact List.perm_middle

/-! ## What else is found -/

theorem find_put (row' : ℕ) (y : α) (t : List (ℕ × α)) :
    find row p (put row' y t) = if hit row p (row', y) then some y else find row p t := by
  unfold find put
  rw [List.find?_cons]
  cases hit row p (row', y) <;> rfl

theorem find_append (before after : List (ℕ × α)) :
    find row p (before ++ after) = (find row p before).or (find row p after) := by
  unfold find
  rw [List.find?_append, Option.map_or]

theorem find_cons (item : ℕ × α) (after : List (ℕ × α)) :
    find row p (item :: after) = if hit row p item then some item.2 else find row p after :=
  find_put item.1 item.2 after

theorem find_modify_of_ne {row' : ℕ} {p' : α → Bool} {f : α → α} {y : α}
    (h : find row p t = some x) (hfind : find row' p' t = some y) (hne : x ≠ y)
    (hf : p y = false → p (f y) = false) : find row p (modify row' p' f t) = some x := by
  obtain ⟨before, after, rfl, -, -, -, hmodify⟩ := find_some hfind
  rw [hmodify]
  rw [find_append, find_cons] at h ⊢
  cases hbefore : find row p before with
  | some z => rwa [hbefore] at h
  | none =>
    rw [hbefore, Option.none_or] at h
    rw [Option.none_or]
    by_cases hhit : hit row p (row', y) = true
    · rw [if_pos hhit] at h
      exact absurd (Option.some.inj h).symm hne
    · rw [if_neg hhit] at h
      rw [if_neg fun hhit' => hhit ?_, h]
      obtain ⟨hrow, hp⟩ := hit_iff.mp hhit'
      refine hit_iff.mpr ⟨hrow, ?_⟩
      by_contra hnot
      rw [hf (by simpa using hnot)] at hp
      cases hp

theorem find_modify_self {p' : α → Bool} {f : α → α} (h : find row p t = some x)
    (hfind : find row p' t = some x) (hf : p (f x) = true) :
    find row p (modify row p' f t) = some (f x) := by
  obtain ⟨before, after, rfl, hp', hmiss, -, hmodify⟩ := find_some hfind
  have hhit : hit row p (row, f x) = true := hit_iff.mpr ⟨rfl, hf⟩
  rw [hmodify, find_append, find_cons, if_pos hhit]
  cases hbefore : find row p before with
  | none => rfl
  | some z =>
    rw [find_append, hbefore] at h
    obtain rfl : z = x := Option.some.inj h
    have hhit' : hit row p' (row, z) = true := hit_iff.mpr ⟨rfl, hp'⟩
    rw [hmiss _ (mem_of_find hbefore)] at hhit'
    cases hhit'

theorem find_remove_of_ne {row' : ℕ} {p' : α → Bool} {y : α} (h : find row p t = some x)
    (hfind : find row' p' t = some y) (hne : x ≠ y) : find row p (remove row' p' t) = some x := by
  obtain ⟨before, after, rfl, -, -, hremove, -⟩ := find_some hfind
  rw [hremove]
  rw [find_append, find_cons] at h
  rw [find_append]
  by_cases hhit : hit row p (row', y) = true
  · rw [if_pos hhit] at h
    cases hbefore : find row p before with
    | some z => rwa [hbefore] at h
    | none =>
      rw [hbefore] at h
      exact absurd (Option.some.inj h).symm hne
  · rwa [if_neg hhit] at h

theorem find_map {β : Type u} {q : β → Bool} {f : α → β} (hq : ∀ x, q (f x) = p x)
    (t : List (ℕ × α)) :
    find row q (t.map fun item => (item.1, f item.2)) = (find row p t).map f := by
  induction t with
  | nil => rfl
  | cons item t ih =>
    have hhit : hit row q (item.1, f item.2) = hit row p item := by simp [hit, hq]
    rw [List.map_cons, find_cons, find_cons, ih, hhit]
    split <;> rfl

theorem find_modify_eq [DecidableEq α] {y : α} (h : find row p t = some x) (hp : p y = true) :
    find row (· = y) (modify row p (fun _ => y) t) = some y ∧
      remove row (· = y) (modify row p (fun _ => y) t) = remove row p t := by
  obtain ⟨before, after, rfl, -, hmiss, hremove, hmodify⟩ := find_some h
  have hhit : hit row (· = y) (row, y) = true := hit_iff.mpr ⟨rfl, by simp⟩
  have hnot : ∀ item ∈ before, ¬ hit row (· = y) item = true := by
    intro item hitem hhit
    obtain ⟨hrow, heq⟩ := hit_iff.mp hhit
    have hmiss := hmiss item hitem
    rw [hit_iff.mpr ⟨hrow, by rw [of_decide_eq_true heq]; exact hp⟩] at hmiss
    cases hmiss
  rw [hmodify, hremove]
  constructor
  · rw [find_append, find_cons, if_pos hhit]
    cases hbefore : find row (· = y) before with
    | none => rfl
    | some z =>
      have hz := pred_of_find hbefore
      exact absurd (by simpa [hit] using hz) (hnot _ (mem_of_find hbefore))
  · rw [remove, List.eraseP_append_right _ hnot, List.eraseP_cons_of_pos hhit]

/-! ## Sums -/

section Sum

variable {M : Type*} [AddCommMonoid M] (w : α → M)

/-- The sum of weights of all items. -/
def sumOf (t : List (ℕ × α)) : M := (t.map fun item => w item.2).sum

theorem sumOf_cons (item : ℕ × α) (t : List (ℕ × α)) :
    sumOf w (item :: t) = w item.2 + sumOf w t := List.sum_cons

theorem sumOf_put (row : ℕ) (x : α) (t : List (ℕ × α)) : sumOf w (put row x t) = w x + sumOf w t :=
  List.sum_cons

theorem sumOf_perm {t' : List (ℕ × α)} (h : t.Perm t') : sumOf w t = sumOf w t' :=
  (h.map _).sum_eq

theorem sumOf_map {f : α → α} (hw : ∀ x, w (f x) = w x) (t : List (ℕ × α)) :
    sumOf w (t.map fun item => (item.1, f item.2)) = sumOf w t := by
  unfold sumOf
  rw [List.map_map]
  exact congrArg List.sum (List.map_congr_left fun item _ => hw item.2)

variable {w}

theorem sumOf_find (h : find row p t = some x) : sumOf w t = w x + sumOf w (remove row p t) :=
  (sumOf_perm w (perm_remove h)).trans (sumOf_cons w _ _)

theorem sumOf_modify (h : find row p t = some x) (f : α → α) :
    sumOf w (modify row p f t) = w (f x) + sumOf w (remove row p t) :=
  (sumOf_perm w (perm_modify h f)).trans (sumOf_cons w _ _)

end Sum

/-! ## Placement -/

/-- Every item is in its row. -/
def Placed (rowOf : α → ℕ) (t : List (ℕ × α)) : Prop := ∀ item ∈ t, item.1 = rowOf item.2

variable {rowOf : α → ℕ}

theorem Placed.put (h : Placed rowOf t) (x : α) : Placed rowOf (put (rowOf x) x t) :=
  List.forall_mem_cons.mpr ⟨rfl, h⟩

theorem Placed.remove (h : Placed rowOf t) (row : ℕ) (p : α → Bool) :
    Placed rowOf (remove row p t) :=
  fun item hitem => h item (List.mem_of_mem_eraseP hitem)

theorem Placed.modify (h : Placed rowOf t) {f : α → α} (hf : ∀ x, p x = true → rowOf x = row →
    rowOf (f x) = row) : Placed rowOf (modify row p f t) := by
  obtain ⟨-, -, -, hsame⟩ | ⟨before, x, after, rfl, hp, -, -, -, hmodify⟩ := find_cases row p t
  · rw [hsame]
    exact h
  · rw [hmodify]
    intro item hitem
    obtain hitem | hitem := List.mem_append.mp hitem
    · exact h item (List.mem_append_left _ hitem)
    · obtain rfl | hitem := List.mem_cons.mp hitem
      · exact (hf x hp (h (row, x) (by simp)).symm).symm
      · exact h item (by simp [hitem])

end Rows
