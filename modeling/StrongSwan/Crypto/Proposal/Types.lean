import StrongSwan.Crypto.Proposal

/-!
# Sets of transform types

* `Ordered`: the types are sorted, and there are no duplicates.
* `mem_addType`, `ordered_addType`, `mem_mergeTypes`, `ordered_mergeTypes`.
* `mem_removeType`, `ordered_removeType`.
-/

namespace StrongSwan

namespace Proposal

/-! ## Order -/

theorem typeForSort_typeForSort (t : TransformType) : typeForSort (typeForSort t) = t := by
  unfold typeForSort
  by_cases hprf : t = .pseudoRandomFunction
  · rw [hprf]
    decide
  · by_cases hinteg : t = .integrityAlgorithm
    · rw [hinteg]
      decide
    · simp only [if_neg hprf, if_neg hinteg]

theorem typeSort_eq_zero {a b : TransformType} : typeSort a b = 0 ↔ a = b := by
  constructor
  · intro h
    have hnumber : (typeForSort a).number = (typeForSort b).number := by
      unfold typeSort at h
      omega
    have hsort : typeForSort a = typeForSort b := by
      cases ha : typeForSort a
      cases hb : typeForSort b
      rw [ha, hb] at hnumber
      exact congrArg _ hnumber
    rw [← typeForSort_typeForSort a, hsort, typeForSort_typeForSort]
  · rintro rfl
    exact sub_self _

/-- Sorted, without duplicates. -/
def Ordered (types : List TransformType) : Prop := types.Pairwise fun a b => typeSort a b < 0

variable {types : List TransformType}

theorem Ordered.nodup (h : Ordered types) : types.Nodup :=
  h.imp fun hlt heq => by
    rw [typeSort_eq_zero.mpr heq] at hlt
    exact lt_irrefl _ hlt

theorem containsType_iff {t : TransformType} :
    containsType types t = true ↔ t ∈ types := by
  rw [containsType, List.any_eq_true]
  constructor
  · rintro ⟨t', hmem, heq⟩
    rwa [typeSort_eq_zero.mp (of_decide_eq_true heq)]
  · exact fun h => ⟨t, h, decide_eq_true (typeSort_eq_zero.mpr rfl)⟩

theorem mem_addType {t t' : TransformType} :
    t' ∈ addType types t ↔ t' ∈ types ∨ t' = t := by
  unfold addType
  by_cases hmem : t ∈ types
  · rw [if_neg (by simp [containsType_iff.mpr hmem])]
    exact ⟨.inl, fun h => h.elim id fun heq => heq ▸ hmem⟩
  · have hcontains : containsType types t = false :=
      Bool.eq_false_iff.mpr fun h => hmem (containsType_iff.mp h)
    rw [if_pos (by simp [hcontains]), List.mem_insertionSort, List.mem_append, List.mem_singleton]

theorem ordered_addType {t : TransformType} (h : Ordered types) :
    Ordered (addType types t) := by
  unfold addType
  by_cases hmem : t ∈ types
  · rw [if_neg (by simp [containsType_iff.mpr hmem])]
    exact h
  · have hcontains : containsType types t = false :=
      Bool.eq_false_iff.mpr fun h => hmem (containsType_iff.mp h)
    rw [if_pos (by simp [hcontains])]
    have htotal : Std.Total fun a b => typeSort a b ≤ 0 :=
      ⟨fun a b => by unfold typeSort; omega⟩
    have htrans : IsTrans TransformType fun a b => typeSort a b ≤ 0 :=
      ⟨fun a b c => by unfold typeSort; omega⟩
    have hsorted := List.pairwise_insertionSort (fun a b => typeSort a b ≤ 0) (types ++ [t])
    have hnodup : ((types ++ [t]).insertionSort fun a b => typeSort a b ≤ 0).Nodup := by
      rw [(List.perm_insertionSort _ _).nodup_iff]
      exact List.nodup_append.mpr ⟨h.nodup, List.nodup_singleton t, fun a ha b hb heq =>
        hmem (List.mem_singleton.mp hb ▸ heq ▸ ha)⟩
    exact (hsorted.and hnodup).imp fun ⟨hle, hne⟩ =>
      lt_of_le_of_ne hle fun heq => hne (typeSort_eq_zero.mp heq)

section Merge

variable {this other : Proposal}

theorem mem_mergeAt {types : List TransformType} {i : ℕ} {t : TransformType} :
    t ∈ mergeAt this other types i ↔
      t ∈ types ∨ this.types[i]? = some t ∨ other.types[i]? = some t := by
  unfold mergeAt
  cases this.types[i]? with
  | none =>
    cases other.types[i]? with
    | none => simp
    | some b => simp [mem_addType, eq_comm]
  | some a =>
    cases other.types[i]? with
    | none => simp [mem_addType, eq_comm]
    | some b => simp [mem_addType, eq_comm, or_assoc]

theorem ordered_mergeAt {types : List TransformType} (h : Ordered types) (i : ℕ) :
    Ordered (mergeAt this other types i) := by
  unfold mergeAt
  dsimp only
  cases this.types[i]? with
  | none =>
    cases other.types[i]? with
    | none => exact h
    | some b => exact ordered_addType h
  | some a =>
    cases other.types[i]? with
    | none => exact ordered_addType h
    | some b => exact ordered_addType (ordered_addType h)

theorem mem_mergeTypes {t : TransformType} :
    t ∈ mergeTypes this other ↔ t ∈ this.types ∨ t ∈ other.types := by
  have hloop : ∀ n, t ∈ (List.range n).foldl (mergeAt this other) [] ↔
      t ∈ this.types.take n ∨ t ∈ other.types.take n := by
    intro n
    induction n with
    | zero => simp
    | succ n ih =>
      rw [List.range_succ, List.foldl_append, List.foldl_cons, List.foldl_nil, mem_mergeAt, ih,
        List.take_add_one, List.take_add_one, List.mem_append, List.mem_append, Option.mem_toList,
        Option.mem_toList]
      exact or_or_or_comm
  rw [mergeTypes, hloop, List.take_of_length_le (le_max_left _ _),
    List.take_of_length_le (le_max_right _ _)]

theorem ordered_mergeTypes (this other : Proposal) : Ordered (mergeTypes this other) := by
  have hloop : ∀ n, Ordered ((List.range n).foldl (mergeAt this other) []) := by
    intro n
    induction n with
    | zero => exact List.Pairwise.nil
    | succ n ih =>
      rw [List.range_succ, List.foldl_append]
      exact ordered_mergeAt ih n
  exact hloop _

end Merge

/-! ## Types of transforms -/

/-- The group NONE, which `strip_dh` keeps while it removes the type. -/
def NoGroup (entry : Entry) : Prop := entry.type = .diffieHellmanGroup ∧ entry.alg = modpNone

variable {p : Proposal}

theorem mem_removeType (h : Ordered p.types) {t t' : TransformType} :
    t' ∈ (p.removeType t).types ↔ t' ∈ p.types ∧ t' ≠ t := by
  have hsort : (fun t' => decide (typeSort t t' = 0)) = fun t' => decide (t' = t) := by
    funext t'
    exact decide_eq_decide.mpr (typeSort_eq_zero.trans eq_comm)
  show t' ∈ p.types.eraseP (fun t' => decide (typeSort t t' = 0)) ↔ _
  have herase : p.types.eraseP (fun t' => decide (t' = t)) = p.types.erase t := by
    rw [List.erase_eq_eraseP]
    congr 1
    funext t'
    rw [beq_eq_decide]
    exact decide_eq_decide.mpr eq_comm
  rw [hsort, herase, h.nodup.mem_erase_iff, and_comm]

theorem ordered_removeType (h : Ordered p.types) (t : TransformType) :
    Ordered (p.removeType t).types := List.Pairwise.sublist List.eraseP_sublist h

end Proposal

end StrongSwan
