import Mathlib

/-!
# Lists of the most recently used entries

Entries have a key. An entry that is used goes to the front of the list, and the last one is dropped
if there are more than `max`.

* `find`, `touch`, `store`: an entry is found, used and changed.
* `Behind`: the keys before an entry are among those used since.
* **`Behind.touch`**: an entry stays while fewer than `max` other keys are used.
-/

namespace Recent

variable {α κ : Type*} [DecidableEq κ] (key : α → κ) (max : ℕ)

/-- The entry of a key -/
def find (k : κ) (xs : List α) : Option α := xs.find? fun x => key x = k

/-- An entry is moved to the front, or put there, and the last one is dropped if there are too many. -/
def touch (x : α) (xs : List α) : List α :=
  let xs := x :: xs.eraseP fun y => key y = key x
  if xs.length > max then xs.dropLast else xs

/-- The entry of a key is changed. -/
def store (x : α) (xs : List α) : List α := xs.map fun y => if key y = key x then x else y

variable {key max} {x y : α} {xs : List α}

def Distinct (key : α → κ) (xs : List α) : Prop := (xs.map key).Nodup

/-- The entry is in the list, and all keys before it are among the others. -/
def Behind (key : α → κ) (x : α) (others : Finset κ) (xs : List α) : Prop :=
  ∃ before behind, xs = before ++ x :: behind ∧ ∀ y ∈ before, key y ∈ others

theorem find_eq_some_iff (h : Distinct key xs) :
    find key (key x) xs = some x ↔ x ∈ xs := by
  constructor
  · exact fun hfind => List.mem_of_find?_eq_some hfind
  · intro hmem
    cases hfind : find key (key x) xs with
    | none =>
      have hnone := List.find?_eq_none.1 hfind x hmem
      simp at hnone
    | some y =>
      have hkey : key y = key x := by simpa using List.find?_some hfind
      have hy : y ∈ xs := List.mem_of_find?_eq_some hfind
      rw [List.inj_on_of_nodup_map h hy hmem hkey]

variable {others : Finset κ}

omit [DecidableEq κ] in
theorem Behind.mem (h : Behind key x others xs) : x ∈ xs := by
  obtain ⟨before, behind, rfl, -⟩ := h
  simp

omit [DecidableEq κ] in
theorem Behind.mono {others others' : Finset κ} (h : Behind key x others xs)
    (hsub : others ⊆ others') : Behind key x others' xs := by
  obtain ⟨before, behind, heq, hbefore⟩ := h
  exact ⟨before, behind, heq, fun y hy => hsub (hbefore y hy)⟩

/-! ## Entries that are used -/

theorem Distinct.cons_eraseP (h : Distinct key xs) (x : α) :
    Distinct key (x :: xs.eraseP fun y => key y = key x) := by
  refine List.nodup_cons.2 ⟨?_, h.sublist (List.eraseP_sublist.map key)⟩
  rintro hmem
  obtain ⟨y, hy, hkey⟩ := List.mem_map.1 hmem
  have hyx : y ∈ xs := List.mem_of_mem_eraseP hy
  obtain ⟨z, before, behind, hbefore, hz, hxs, herase⟩ :=
    List.exists_of_eraseP (p := fun y => decide (key y = key x)) hyx (by simp [hkey])
  rw [herase] at hy
  have hzkey : key z = key y := by
    rw [hkey]
    simpa using hz
  have hdistinct : Distinct key (before ++ z :: behind) := hxs ▸ h
  rw [Distinct, List.map_append, List.map_cons, List.nodup_middle] at hdistinct
  refine (List.nodup_cons.1 hdistinct).1 ?_
  rw [← List.map_append, hzkey]
  exact List.mem_map_of_mem hy

theorem Distinct.touch (h : Distinct key xs) (x : α) : Distinct key (Recent.touch key max x xs) := by
  have hcons := h.cons_eraseP x
  unfold Recent.touch
  dsimp only
  split_ifs
  · exact hcons.sublist ((List.dropLast_sublist _).map key)
  · exact hcons

/-- **The entry that is used** is the first one. -/
theorem touch_eq_cons (hmax : 0 < max) (x : α) (xs : List α) :
    ∃ behind, touch key max x xs = x :: behind := by
  unfold touch
  dsimp only
  split_ifs with hmore
  · cases herase : xs.eraseP fun y => key y = key x with
    | nil =>
      rw [herase, List.length_singleton] at hmore
      omega
    | cons y ys => exact ⟨_, rfl⟩
  · exact ⟨_, rfl⟩

theorem behind_touch (hmax : 0 < max) (x : α) (xs : List α) :
    Behind key x ∅ (touch key max x xs) := by
  obtain ⟨behind, heq⟩ : ∃ behind, touch key max x xs = x :: behind := touch_eq_cons hmax x xs
  exact ⟨[], behind, heq, by simp⟩

/-- **Another entry is used.** An entry stays if there are fewer than `max` other keys. -/
theorem Behind.touch (h : Behind key x others xs) (hdistinct : Distinct key xs)
    (hne : key y ≠ key x) (hcard : (insert (key y) others).card < max) :
    Behind key x (insert (key y) others) (Recent.touch key max y xs) := by
  have hcons := hdistinct.cons_eraseP y
  obtain ⟨before, behind, rfl, hbefore⟩ := h
  -- the entry is in the list without the one that is used
  obtain ⟨before', behind', herase, hbefore'⟩ : ∃ before' behind',
      ((before ++ x :: behind).eraseP fun z => key z = key y) = before' ++ x :: behind' ∧
        ∀ z ∈ before', z ∈ before := by
    by_cases hin : ∃ z ∈ before, key z = key y
    · obtain ⟨z, hz, hkey⟩ := hin
      refine ⟨before.eraseP fun z => key z = key y, behind, ?_, fun _ => List.mem_of_mem_eraseP⟩
      exact List.eraseP_append_left (p := fun z => decide (key z = key y)) (by simp [hkey]) _ hz
    · have hout : ∀ z ∈ before, ¬(decide (key z = key y)) = true := by
        intro z hz hdecide
        exact hin ⟨z, hz, of_decide_eq_true hdecide⟩
      refine ⟨before, behind.eraseP fun z => key z = key y, ?_, fun _ hz => hz⟩
      rw [List.eraseP_append_right _ hout, List.eraseP_cons_of_neg (by simpa using hne.symm)]
  rw [herase] at hcons
  have hkeys : ∀ z ∈ y :: before', key z ∈ insert (key y) others := by
    intro z hz
    rcases List.mem_cons.1 hz with rfl | hz
    · exact Finset.mem_insert_self _ _
    · exact Finset.mem_insert_of_mem (hbefore z (hbefore' z hz))
  unfold Recent.touch
  rw [herase]
  dsimp only
  split_ifs with hmore
  · cases behind' with
    | nil =>
      -- all but the last one are among the others
      have hnodup : ((y :: before').map key).Nodup := by
        have hall : Distinct key ((y :: before') ++ [x]) := hcons
        exact hall.sublist ((List.sublist_append_left _ _).map key)
      have hsub : ((y :: before').map key).toFinset ⊆ insert (key y) others := by
        intro k hk
        obtain ⟨z, hz, rfl⟩ := List.mem_map.1 (List.mem_toFinset.1 hk)
        exact hkeys z hz
      have hle := Finset.card_le_card hsub
      rw [List.toFinset_card_of_nodup hnodup, List.length_map, List.length_cons] at hle
      rw [List.length_cons, List.length_append, List.length_singleton] at hmore
      omega
    | cons z zs =>
      refine ⟨y :: before', (z :: zs).dropLast, ?_, hkeys⟩
      rw [← List.cons_append, List.dropLast_append_of_ne_nil (List.cons_ne_nil _ _)]
      rfl
  · exact ⟨y :: before', behind', rfl, hkeys⟩

/-! ## Entries that are changed -/

theorem map_key_store (x : α) (xs : List α) : (store key x xs).map key = xs.map key := by
  rw [store, List.map_map]
  refine List.map_congr_left fun y _ => ?_
  rw [Function.comp_apply]
  split_ifs with hkey
  · exact hkey.symm
  · rfl

theorem Distinct.store (h : Distinct key xs) (x : α) : Distinct key (Recent.store key x xs) := by
  rw [Distinct, map_key_store]
  exact h

theorem Behind.store (h : Behind key x others xs) (hdistinct : Distinct key xs)
    (hkey : key y = key x) : Behind key y others (Recent.store key y xs) := by
  obtain ⟨before, behind, rfl, hbefore⟩ := h
  refine ⟨Recent.store key y before, Recent.store key y behind, ?_, fun z hz => ?_⟩
  · simp [Recent.store, hkey]
  · have hmem : key z ∈ (Recent.store key y before).map key := List.mem_map_of_mem hz
    rw [map_key_store] at hmem
    obtain ⟨w, hw, hwkey⟩ := List.mem_map.1 hmem
    exact hwkey ▸ hbefore w hw

theorem Behind.store_other (h : Behind key x others xs) (hkey : key y ≠ key x) :
    Behind key x others (Recent.store key y xs) := by
  obtain ⟨before, behind, rfl, hbefore⟩ := h
  refine ⟨Recent.store key y before, Recent.store key y behind, ?_, fun z hz => ?_⟩
  · simp [Recent.store, hkey.symm]
  · have hmem : key z ∈ (Recent.store key y before).map key := List.mem_map_of_mem hz
    rw [map_key_store] at hmem
    obtain ⟨w, hw, hwkey⟩ := List.mem_map.1 hmem
    exact hwkey ▸ hbefore w hw

end Recent
