import StrongSwan.Settings.Lookup

/-!
# Lookups that end

Lookups in the settings are searches over the calls of `calls`: a component of a key leads to a
subsection, the whole key to the fallbacks.

* `findValueBuffered_eq_search`, `findSectionsBuffered_eq_collect`: lookups as searches.
* `acc_calls`: without a cycle of fallbacks there is no endless chain of calls.
* **`served_iff`**: all lookups end, with the first value, iff no section is its own fallback.
-/

namespace StrongSwan

namespace Settings

open DepthFirst

namespace Heap

variable (heap : Heap)

/-- The calls of a lookup of a key in a section: a subsection, then fallbacks -/
def calls : ℕ × Key → List (ℕ × Key)
  | (p, key) =>
    match heap[p]?, key with
    | some this, some buf :: path =>
      let fallbacks := (heap.fallbacks p).map (·, key)
      if path = [] then fallbacks
      else
        match heap.subsection p this buf with
        | none => fallbacks
        | some q => (q, path) :: fallbacks
    | _, _ => []

/-- The key/value pair of a section for the last component of a key -/
def kvAt : ℕ × Key → Option Kv
  | (p, key) =>
    match heap[p]?, key with
    | some this, [some buf] => this.kv.find? fun kv => kv.key = buf
    | _, _ => none

/-- The sections that are found in a section by the last component of a key -/
def sectionsAt : ℕ × Key → List ℕ
  | (p, key) =>
    match heap[p]?, key with
    | some this, [some buf] =>
      match heap.subsection p this buf with
      | none => []
      | some q => q :: heap.fallbacks q
    | _, _ => []

/-- `q` is a fallback of `p`. -/
def IsFallback (q p : ℕ) : Prop := q ∈ heap.fallbacks p

/-- A lookup ends with the value of the first section that has it, depth-first, and ends with a list
of sections. -/
structure Served (p : ℕ) (key : Option Key) : Prop where
  value : ∃ visited fuel, Visits heap.calls (key.toList.map (p, ·)) visited ∧
    heap.findValue fuel p key = some ((visited.findSome? heap.kvAt).bind Kv.value)
  sections : ∃ fuel sections, heap.findSections fuel p key = some sections

variable {heap}

/-! ## Lookups as searches -/

/-- **A lookup of a value** is a search. -/
theorem findValueBuffered_eq_search (fuel p : ℕ) (key : Key) :
    heap.findValueBuffered fuel p key = search heap.calls heap.kvAt fuel (p, key) := by
  induction fuel generalizing p key with
  | zero => rfl
  | succ fuel ih =>
    unfold findValueBuffered search
    simp only [ih]
    match hp : heap[p]?, key with
    | none, _ => simp [kvAt, calls, hp, firstOf]
    | some this, [] => simp [kvAt, calls, hp, firstOf]
    | some this, none :: path => cases path <;> simp [kvAt, calls, hp, firstOf]
    | some this, [some buf] =>
      cases hkv : this.kv.find? fun kv => kv.key = buf <;>
        simp [kvAt, calls, hp, hkv, firstOf_map]
    | some this, some buf :: comp :: path =>
      cases hsub : heap.subsection p this buf with
      | none => simp [kvAt, calls, hp, hsub, firstOf_map]
      | some q =>
        simp only [kvAt, calls, hp, hsub, firstOf, firstOf_map, reduceCtorEq, if_false]
        cases search heap.calls heap.kvAt fuel (q, comp :: path) with
        | none => rfl
        | some kv => cases kv <;> rfl

/-- **A lookup of sections** is a collection. -/
theorem findSectionsBuffered_eq_collect (fuel p : ℕ) (key : Key) :
    heap.findSectionsBuffered fuel p key = collect heap.calls heap.sectionsAt fuel (p, key) := by
  induction fuel generalizing p key with
  | zero => rfl
  | succ fuel ih =>
    unfold findSectionsBuffered collect
    simp only [ih]
    cases hp : heap[p]? with
    | none => simp [sectionsAt, calls, hp, allOf]
    | some this =>
      rcases key with _ | ⟨_ | buf, _ | ⟨comp, path⟩⟩
      · simp [sectionsAt, calls, hp, allOf]
      · simp [sectionsAt, calls, hp, allOf]
      · simp [sectionsAt, calls, hp, allOf]
      · cases hsub : heap.subsection p this buf <;> simp [sectionsAt, calls, hp, hsub, allOf_map]
      · cases hsub : heap.subsection p this buf with
        | none => simp [sectionsAt, calls, hp, hsub, allOf_map]
        | some q => simp [sectionsAt, calls, hp, hsub, allOf, allOf_map]

/-! ## Endless chains -/

theorem lt_of_isFallback {p q : ℕ} (h : heap.IsFallback q p) : p < heap.length := by
  by_contra hge
  have hnone : heap[p]? = none := List.getElem?_eq_none (not_lt.1 hge)
  simp [IsFallback, fallbacks, hnone] at h

theorem mem_calls {p : ℕ} {key : Key} {node : ℕ × Key} (h : node ∈ heap.calls (p, key)) :
    node.2.length < key.length ∨ node.2 = key ∧ heap.IsFallback node.1 p := by
  have hfallbacks : node ∈ (heap.fallbacks p).map (·, key) →
      node.2 = key ∧ heap.IsFallback node.1 p := by
    intro hmem
    obtain ⟨q, hq, rfl⟩ := List.mem_map.1 hmem
    exact ⟨rfl, hq⟩
  simp only [calls] at h
  match hp : heap[p]?, key with
  | none, _ => simp [hp] at h
  | some this, [] => simp [hp] at h
  | some this, none :: path => simp [hp] at h
  | some this, [some buf] =>
    simp only [hp, if_true] at h
    exact .inr (hfallbacks h)
  | some this, some buf :: comp :: path =>
    simp only [hp, reduceCtorEq, if_false] at h
    cases hsub : heap.subsection p this buf with
    | none =>
      rw [hsub] at h
      exact .inr (hfallbacks h)
    | some q =>
      rw [hsub] at h
      rcases List.mem_cons.1 h with rfl | h
      · exact .inl (Nat.lt_succ_self _)
      · exact .inr (hfallbacks h)

theorem acc_calls (h : ∀ p, ¬Relation.TransGen heap.IsFallback p p) (p : ℕ) (key : Key) :
    Acc (Called heap.calls) (p, key) := by
  have hfinite : {p | p < heap.length}.Finite := Set.finite_lt_nat heap.length
  have hacc : ∀ p, Acc heap.IsFallback p :=
    acc_of_acyclic hfinite (fun _ _ => lt_of_isFallback) h
  -- a call has a shorter key, or the same key in a fallback
  induction hn : key.length using Nat.strong_induction_on generalizing p key with
  | _ n ih =>
    induction hacc p with
    | intro p _ ihp =>
      refine ⟨_, fun node hnode => ?_⟩
      rcases mem_calls hnode with hlt | ⟨hkey, hfallback⟩
      · exact ih _ (hn ▸ hlt) node.1 node.2 rfl
      · have hcall := ihp node.1 hfallback
        rwa [← hkey] at hcall

theorem calls_empty {p q : ℕ} (h : heap.IsFallback q p) :
    Called heap.calls (q, [some []]) (p, [some []]) := by
  have hlt := lt_of_isFallback h
  simp only [Called, calls, List.getElem?_eq_getElem hlt, if_true]
  exact List.mem_map.2 ⟨q, h, rfl⟩

theorem findSectionsBuffered_cycle {p : ℕ} (h : Relation.TransGen heap.IsFallback p p) (fuel : ℕ) :
    heap.findSectionsBuffered fuel p [some []] = none := by
  rw [findSectionsBuffered_eq_collect]
  cases hresult : collect heap.calls heap.sectionsAt fuel (p, [some []]) with
  | none => rfl
  | some sections =>
    have hcycle : Relation.TransGen (Called heap.calls) (p, [some []]) (p, [some []]) :=
      h.lift (fun q => (q, [some []])) fun _ _ => calls_empty
    exact absurd hcycle (not_transGen_of_acc (acc_of_collect hresult))

/-! ## All lookups -/

theorem served_of_acyclic (h : ∀ p, ¬Relation.TransGen heap.IsFallback p p) (p : ℕ)
    (key : Option Key) : heap.Served p key := by
  cases key with
  | none => exact ⟨⟨[], 0, .nil, rfl⟩, ⟨0, [], rfl⟩⟩
  | some key =>
    obtain ⟨visited, hvisits⟩ : ∃ visited, Visits heap.calls [(p, key)] visited :=
      exists_visits fun node hnode => List.mem_singleton.1 hnode ▸ acc_calls h p key
    obtain ⟨fuel, hsearch⟩ : ∃ fuel, search heap.calls heap.kvAt fuel (p, key) = _ :=
      search_visits hvisits
    obtain ⟨fuel', hcollect⟩ : ∃ fuel, collect heap.calls heap.sectionsAt fuel (p, key) = _ :=
      collect_visits hvisits
    rw [← findValueBuffered_eq_search] at hsearch
    rw [← findSectionsBuffered_eq_collect] at hcollect
    refine ⟨⟨visited, fuel, hvisits, ?_⟩, ⟨fuel', _, hcollect⟩⟩
    rw [findValue, hsearch]
    rfl

/-- **Lookups in the settings.** All lookups end, values with the first in depth-first order, iff no
section is reached from itself through fallbacks. -/
theorem served_iff (heap : Heap) :
    (∀ printKey key p, heap.Served p (keyOf printKey key)) ↔
      ∀ p, ¬Relation.TransGen heap.IsFallback p p := by
  refine ⟨fun hserved p hcycle => ?_, fun h printKey key p => served_of_acyclic h p _⟩
  obtain ⟨fuel, sections, hsections⟩ := (hserved (fun _ buf => some buf) [] p).sections
  have hkey : keyOf (fun _ buf => some buf) [] = some [some []] := by decide
  rw [hkey, findSections, findSectionsBuffered_cycle hcycle] at hsections
  cases hsections

/-- Sections `a` and `b`, each a fallback of the other -/
def mutualFallbacks : Heap :=
  [⟨[], none, [2, 1], []⟩, ⟨[0x62], some [2], [], []⟩, ⟨[0x61], some [1], [], []⟩]

theorem findValueBuffered_mutualFallbacks (fuel : ℕ) :
    mutualFallbacks.findValueBuffered fuel 1 [some [0x78]] = none ∧
      mutualFallbacks.findValueBuffered fuel 2 [some [0x78]] = none := by
  induction fuel with
  | zero => exact ⟨rfl, rfl⟩
  | succ fuel ih =>
    obtain ⟨hb, ha⟩ := ih
    have hstep : ∀ p q : ℕ, p = 1 ∧ q = 2 ∨ p = 2 ∧ q = 1 →
        mutualFallbacks.findValueBuffered (fuel + 1) p [some [0x78]] =
          firstOf (mutualFallbacks.findValueBuffered fuel · [some [0x78]]) [q] := by
      rintro p q (⟨rfl, rfl⟩ | ⟨rfl, rfl⟩) <;> rfl
    constructor
    · rw [hstep 1 2 (by simp), firstOf, ha]
    · rw [hstep 2 1 (by simp), firstOf, hb]

/-- Both fallbacks are accepted, and `a.x` is looked up forever. -/
theorem not_served_mutualFallbacks :
    (Heap.addFallback [{ name := [] }] (some [some [0x61]]) (some [some [0x62]])).bind
        (Heap.addFallback · (some [some [0x62]]) (some [some [0x61]])) = some mutualFallbacks ∧
      ¬∃ fuel value, mutualFallbacks.findValue fuel 0
        (keyOf (fun _ buf => some buf) [0x61, 0x2e, 0x78]) = some value := by
  refine ⟨by decide +kernel, ?_⟩
  rintro ⟨fuel, value, hvalue⟩
  have hkey : keyOf (fun _ buf => some buf) [0x61, 0x2e, 0x78] =
      some [some [0x61], some [0x78]] := by decide
  rw [hkey, findValue] at hvalue
  cases fuel with
  | zero => cases hvalue
  | succ fuel =>
    have hstep : mutualFallbacks.findValueBuffered (fuel + 1) 0 [some [0x61], some [0x78]] = none := by
      have hroot : mutualFallbacks[0]? = some ⟨[], none, [2, 1], []⟩ := rfl
      have hsub : mutualFallbacks.subsection 0 ⟨[], none, [2, 1], []⟩ [0x61] = some 2 := by decide
      simp only [findValueBuffered, hroot, hsub, (findValueBuffered_mutualFallbacks fuel).2, reduceCtorEq,
        if_false]
    rw [hstep] at hvalue
    cases hvalue

end Heap

end Settings

end StrongSwan
