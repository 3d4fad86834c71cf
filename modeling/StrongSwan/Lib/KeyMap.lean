import Mathlib

/-!
# Finite maps from classes of keys

A map from the classes of an equivalence to entries, each with the key of the class it was stored under
last.

* `put`, `get`, `remove`, `size`: the operations; `removeSome` removes some entries of a list.
* `Lists`: a list has exactly the entries of a map, each once; `Lists.put`, `Lists.remove`, `Lists.get`.
* **`Lists.size`**: the list is as long as the map has keys.
-/

/-- A map from the classes of `s` -/
def KeyMap {K : Type} (s : Setoid K) (V : Type) : Type := Quotient s → Option (K × V)

namespace KeyMap

open Classical in
/-- The map with another entry in a class -/
noncomputable def set {K V : Type} {s : Setoid K} (m : KeyMap s V) (q : Quotient s)
    (e : Option (K × V)) : KeyMap s V := Function.update m q e

variable {K V : Type} {s : Setoid K}

/-- The map without entries -/
def empty : KeyMap s V := fun _ => none

/-- The value under a key -/
def get (m : KeyMap s V) (key : K) : Option V := (m (Quotient.mk s key)).map Prod.snd

/-- The map with a value stored under a key -/
noncomputable def put (m : KeyMap s V) (key : K) (value : V) : KeyMap s V :=
  m.set (Quotient.mk s key) (some (key, value))

/-- The map without a key -/
noncomputable def remove (m : KeyMap s V) (key : K) : KeyMap s V := m.set (Quotient.mk s key) none

/-- The classes that have an entry -/
def keys (m : KeyMap s V) : Set (Quotient s) := {q | m q ≠ none}

/-- The number of keys -/
noncomputable def size (m : KeyMap s V) : ℕ := m.keys.ncard

/-- The map without the entries of a list that are marked -/
noncomputable def removeSome (m : KeyMap s V) : List Bool → List (K × V) → KeyMap s V
  | mark :: marks, e :: es => (if mark then m.remove e.1 else m).removeSome marks es
  | _, _ => m

open Classical in
theorem set_self (m : KeyMap s V) (q : Quotient s) (e : Option (K × V)) : m.set q e q = e :=
  Function.update_self ..

open Classical in
theorem set_of_ne (m : KeyMap s V) {q q' : Quotient s} (h : q' ≠ q) (e : Option (K × V)) :
    m.set q e q' = m q' := Function.update_of_ne h ..

open Classical in
theorem set_set (m : KeyMap s V) (q : Quotient s) (e e' : Option (K × V)) :
    (m.set q e).set q e' = m.set q e' := Function.update_idem ..

theorem remove_of_none {m : KeyMap s V} {key : K} (h : m (Quotient.mk s key) = none) :
    m.remove key = m := by
  classical
  rw [remove, set, ← h]
  exact Function.update_eq_self ..

/-- The list has the entries of the map, each once. -/
structure Lists (l : List (K × V)) (m : KeyMap s V) : Prop where
  distinct : (l.map fun e => Quotient.mk s e.1).Nodup
  mem_iff : ∀ q e, m q = some e ↔ e ∈ l ∧ Quotient.mk s e.1 = q

theorem lists_empty : Lists [] (empty : KeyMap s V) :=
  ⟨List.nodup_nil, fun q e => by simp [empty]⟩

section Lists

variable {l l' : List (K × V)} {m : KeyMap s V} {key : K} {e : K × V}

theorem Lists.perm (h : Lists l m) (hperm : l'.Perm l) : Lists l' m :=
  ⟨(hperm.map _).nodup_iff.mpr h.distinct, fun q e => by rw [h.mem_iff, hperm.mem_iff]⟩

theorem Lists.of_mem (h : Lists l m) (he : e ∈ l) : m (Quotient.mk s e.1) = some e :=
  (h.mem_iff _ _).mpr ⟨he, rfl⟩

theorem Lists.get_eq (h : Lists l m) (he : e ∈ l) (hkey : s e.1 key) : m.get key = some e.2 := by
  rw [get, ← Quotient.sound hkey, h.of_mem he]
  rfl

theorem Lists.get_eq_none (h : Lists l m) (hkey : ∀ e ∈ l, ¬ s e.1 key) :
    m (Quotient.mk s key) = none := by
  rw [Option.eq_none_iff_forall_ne_some]
  intro e he
  obtain ⟨hmem, hq⟩ := (h.mem_iff _ _).mp he
  exact hkey e hmem (Quotient.exact hq)

/-- **The keys are as many as the entries of the list.** -/
theorem Lists.size (h : Lists l m) : m.size = l.length := by
  classical
  have hkeys : m.keys = ((l.map fun e => Quotient.mk s e.1).toFinset : Set (Quotient s)) := by
    ext q
    rw [keys, Set.mem_ofPred_eq, Option.ne_none_iff_exists', List.coe_toFinset, Set.mem_ofPred_eq,
      List.mem_map]
    simp only [h.mem_iff]
  rw [KeyMap.size, hkeys, Set.ncard_coe_finset, List.toFinset_card_of_nodup h.distinct,
    List.length_map]

/-- **A key that has no entry is stored.** -/
theorem Lists.put_new (h : Lists l m) (hnone : m (Quotient.mk s e.1) = none) :
    Lists (e :: l) (m.put e.1 e.2) := by
  refine ⟨?_, fun q e' => ?_⟩
  · rw [List.map_cons, List.nodup_cons]
    refine ⟨fun hmem => ?_, h.distinct⟩
    obtain ⟨e', he', hq⟩ := List.mem_map.mp hmem
    rw [← hq, h.of_mem he'] at hnone
    cases hnone
  · by_cases hq : q = Quotient.mk s e.1
    · subst hq
      rw [KeyMap.put, set_self, Option.some.injEq, List.mem_cons]
      constructor
      · rintro rfl
        exact ⟨.inl rfl, rfl⟩
      · rintro ⟨rfl | hmem, hclass⟩
        · rfl
        · rw [← hclass, h.of_mem hmem] at hnone
          cases hnone
    · rw [KeyMap.put, set_of_ne _ hq, h.mem_iff, List.mem_cons]
      constructor
      · rintro ⟨hmem, hclass⟩
        exact ⟨.inr hmem, hclass⟩
      · rintro ⟨rfl | hmem, hclass⟩
        · exact absurd hclass.symm hq
        · exact ⟨hmem, hclass⟩

/-- **An entry is removed.** -/
theorem Lists.remove (h : Lists (e :: l) m) (hkey : s e.1 key) : Lists l (m.remove key) := by
  obtain ⟨hnew, hdistinct⟩ := List.nodup_cons.mp h.distinct
  refine ⟨hdistinct, fun q e' => ?_⟩
  by_cases hq : q = Quotient.mk s key
  · subst hq
    rw [KeyMap.remove, set_self]
    refine ⟨fun hnone => (by cases hnone), fun ⟨hmem, hclass⟩ => ?_⟩
    have heq : Quotient.mk s e'.1 = Quotient.mk s e.1 := hclass.trans (Quotient.sound hkey).symm
    exact absurd (List.mem_map.mpr ⟨e', hmem, heq⟩) hnew
  · rw [KeyMap.remove, set_of_ne _ hq, h.mem_iff, List.mem_cons]
    constructor
    · rintro ⟨rfl | hmem, hclass⟩
      · exact absurd (hclass.symm.trans (Quotient.sound hkey)) hq
      · exact ⟨hmem, hclass⟩
    · rintro ⟨hmem, hclass⟩
      exact ⟨.inr hmem, hclass⟩

/-- **An entry is replaced.** -/
theorem Lists.replace (h : Lists (e :: l) m) {e' : K × V} (hkey : s e.1 e'.1) :
    Lists (e' :: l) (m.put e'.1 e'.2) := by
  have hnone : m.remove e'.1 (Quotient.mk s e'.1) = none := set_self ..
  have hput := (h.remove hkey).put_new hnone
  have heq : (m.remove e'.1).put e'.1 e'.2 = m.put e'.1 e'.2 := set_set ..
  rwa [heq] at hput

end Lists

end KeyMap
