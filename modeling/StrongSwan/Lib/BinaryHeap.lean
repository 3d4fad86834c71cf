import Mathlib

/-!
# Binary heaps in arrays

The elements of a heap are at the positions from 1 to `n`; the parent of `i` is at `i / 2`. An element is
sifted by moving others into a hole.

* `Ordered`, `Ordered.root_le`: the first element is the least.
* `UpOrder`, `UpOrder.move`, `UpOrder.finish`: a hole that moves up.
* `DownOrder`, `DownOrder.move`, `DownOrder.finish`: a hole that moves down.
* `elements`, `elements_update`: what is in the heap.
-/

namespace BinaryHeap

universe u v

variable {α : Type u} {κ : Type v} [LinearOrder κ] {key : α → κ} {h : ℕ → α} {n hole : ℕ} {e : α}

/-- No element is less than its parent. -/
def Ordered (key : α → κ) (h : ℕ → α) (n : ℕ) : Prop :=
  ∀ i, 2 ≤ i → i ≤ n → key (h (i / 2)) ≤ key (h i)

/-- **The first element is the least.** -/
theorem Ordered.root_le (ho : Ordered key h n) {i : ℕ} (hi : 1 ≤ i) (hn : i ≤ n) :
    key (h 1) ≤ key (h i) := by
  induction i using Nat.strongRecOn with
  | ind i ih =>
    rcases Nat.eq_or_lt_of_le hi with rfl | htwo
    · exact le_rfl
    · exact (ih (i / 2) (by omega) (by omega) (by omega)).trans (ho i htwo hn)

theorem Ordered.mono {m : ℕ} (ho : Ordered key h n) (hm : m ≤ n) : Ordered key h m :=
  fun i hi him => ho i hi (him.trans hm)

/-- The pairs that do not touch the hole are in order. -/
def OrderedExcept (key : α → κ) (h : ℕ → α) (n hole : ℕ) : Prop :=
  ∀ i, 2 ≤ i → i ≤ n → i ≠ hole → i / 2 ≠ hole → key (h (i / 2)) ≤ key (h i)

/-- The parent of the hole is not above its children. -/
def Grand (key : α → κ) (h : ℕ → α) (n hole : ℕ) : Prop :=
  2 ≤ hole → ∀ c, c / 2 = hole → c ≤ n → key (h (hole / 2)) ≤ key (h c)

/-- An element that moves up from the hole. -/
structure UpOrder (key : α → κ) (h : ℕ → α) (n hole : ℕ) (e : α) : Prop where
  except : OrderedExcept key h n hole
  grand : Grand key h n hole
  below : ∀ c, 1 ≤ hole → c / 2 = hole → c ≤ n → key e ≤ key (h c)

/-- An element that moves down from the hole. -/
structure DownOrder (key : α → κ) (h : ℕ → α) (n hole : ℕ) (e : α) : Prop where
  except : OrderedExcept key h n hole
  grand : Grand key h n hole
  above : 2 ≤ hole → key (h (hole / 2)) ≤ key e

/-! ## Moving up -/

theorem Ordered.upOrder (ho : Ordered key h n) (e : α) : UpOrder key h (n + 1) (n + 1) e where
  except i hi hin hne _ := ho i hi (by omega)
  grand htwo c hc hcn := by omega
  below c hone hc hcn := by omega

theorem UpOrder.move (o : UpOrder key h n hole e) (hhole : 2 ≤ hole) (hn : hole ≤ n)
    (hlt : key e < key (h (hole / 2))) :
    UpOrder key (Function.update h hole (h (hole / 2))) n (hole / 2) e where
  except i hi hin hne hparent := by
    by_cases hchild : i / 2 = hole
    · have hihole : i ≠ hole := by omega
      rw [hchild, Function.update_self, Function.update_of_ne hihole]
      exact o.grand hhole i hchild hin
    · have hihole : i ≠ hole := by
        rintro rfl
        exact hparent rfl
      rw [Function.update_of_ne hchild, Function.update_of_ne hihole]
      exact o.except i hi hin hihole hchild
  grand htwo c hc hcn := by
    have hgrand : hole / 2 / 2 ≠ hole := by omega
    have hup : key (h (hole / 2 / 2)) ≤ key (h (hole / 2)) :=
      o.except (hole / 2) htwo (by omega) (by omega) (by omega)
    rw [Function.update_of_ne hgrand]
    by_cases hchole : c = hole
    · rw [hchole, Function.update_self]
      exact hup
    · rw [Function.update_of_ne hchole]
      refine hup.trans ?_
      rw [← hc]
      exact o.except c (by omega) hcn hchole (by omega)
  below c hone hc hcn := by
    by_cases hchole : c = hole
    · rw [hchole, Function.update_self]
      exact hlt.le
    · rw [Function.update_of_ne hchole]
      refine hlt.le.trans ?_
      rw [← hc]
      exact o.except c (by omega) hcn hchole (by omega)

theorem UpOrder.finish (o : UpOrder key h n hole e) (hone : 1 ≤ hole)
    (hstop : 2 ≤ hole → key (h (hole / 2)) ≤ key e) : Ordered key (Function.update h hole e) n := by
  intro i hi hin
  by_cases hihole : i = hole
  · subst hihole
    have hparent : i / 2 ≠ i := by omega
    rw [Function.update_self, Function.update_of_ne hparent]
    exact hstop hi
  · rw [Function.update_of_ne hihole]
    by_cases hchild : i / 2 = hole
    · rw [hchild, Function.update_self]
      exact o.below i hone hchild hin
    · rw [Function.update_of_ne hchild]
      exact o.except i hi hin hihole hchild

/-! ## Moving down -/

theorem DownOrder.move {child : ℕ} (o : DownOrder key h n hole e) (hchild : child / 2 = hole)
    (hhole : 1 ≤ hole) (hn : child ≤ n) (hmin : ∀ c, c / 2 = hole → c ≤ n → key (h child) ≤ key (h c))
    (hlt : key (h child) < key e) :
    DownOrder key (Function.update h hole (h child)) n child e where
  except i hi hin hne hparent := by
    by_cases hihole : i = hole
    · subst hihole
      have hup : i / 2 ≠ i := by omega
      rw [Function.update_self, Function.update_of_ne hup]
      exact o.grand hi child hchild hn
    · rw [Function.update_of_ne hihole]
      by_cases hhole' : i / 2 = hole
      · rw [hhole', Function.update_self]
        exact hmin i hhole' hin
      · rw [Function.update_of_ne hhole']
        exact o.except i hi hin hihole hhole'
  grand htwo c hc hcn := by
    have hchole : c ≠ hole := by omega
    rw [hchild, Function.update_self, Function.update_of_ne hchole]
    rw [← hc]
    exact o.except c (by omega) hcn hchole (by omega)
  above _ := by
    rw [hchild, Function.update_self]
    exact hlt.le

theorem DownOrder.finish (o : DownOrder key h n hole e)
    (hstop : ∀ c, c / 2 = hole → c ≤ n → key e ≤ key (h c)) :
    Ordered key (Function.update h hole e) n := by
  intro i hi hin
  by_cases hihole : i = hole
  · subst hihole
    have hparent : i / 2 ≠ i := by omega
    rw [Function.update_self, Function.update_of_ne hparent]
    exact o.above hi
  · rw [Function.update_of_ne hihole]
    by_cases hchild : i / 2 = hole
    · rw [hchild, Function.update_self]
      exact hstop i hchild hin
    · rw [Function.update_of_ne hchild]
      exact o.except i hi hin hihole hchild

/-! ## Elements -/

/-- The elements at the first `n` positions. -/
def elements (h : ℕ → α) (n : ℕ) : Multiset α := (Multiset.range n).map fun i => h (i + 1)

theorem elements_succ : elements h (n + 1) = h (n + 1) ::ₘ elements h n := by
  rw [elements, Multiset.range_succ, Multiset.map_cons, elements]

@[simp] theorem card_elements : (elements h n).card = n := by
  rw [elements, Multiset.card_map, Multiset.card_range]

theorem mem_elements {a : α} : a ∈ elements h n ↔ ∃ i, 1 ≤ i ∧ i ≤ n ∧ h i = a := by
  rw [elements, Multiset.mem_map]
  constructor
  · rintro ⟨i, hi, rfl⟩
    exact ⟨i + 1, by omega, Multiset.mem_range.mp hi, rfl⟩
  · rintro ⟨i, hone, hi, rfl⟩
    refine ⟨i - 1, Multiset.mem_range.mpr (by omega), ?_⟩
    rw [Nat.sub_add_cancel hone]

theorem elements_congr {h' : ℕ → α} (heq : ∀ i, 1 ≤ i → i ≤ n → h i = h' i) :
    elements h n = elements h' n :=
  Multiset.map_congr rfl fun i hi => heq (i + 1) (by omega) (Multiset.mem_range.mp hi)

/-- **One element for another.** -/
theorem elements_update {i : ℕ} (hone : 1 ≤ i) (hi : i ≤ n) (a : α) :
    h i ::ₘ elements (Function.update h i a) n = a ::ₘ elements h n := by
  induction n with
  | zero => omega
  | succ n ih =>
    rw [elements_succ, elements_succ]
    by_cases hlast : i = n + 1
    · subst hlast
      have hbelow : elements (Function.update h (n + 1) a) n = elements h n :=
        elements_congr fun j _ hj => Function.update_of_ne (by omega) _ _
      rw [hbelow, Function.update_self, Multiset.cons_swap]
    · rw [Function.update_of_ne (Ne.symm hlast), Multiset.cons_swap, ih (by omega), Multiset.cons_swap]

end BinaryHeap
