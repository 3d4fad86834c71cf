import StrongSwan.Config.ChildCfg
import StrongSwan.Selectors.Narrow

/-!
# Negotiated traffic selectors

* `isContainedIn_iff_subset`: containment of selectors is that of their traffic.
* `exists_done`: the loops terminate. `Owned.step`: they free no object of a list.
* `Narrows.step`: what the loops have done with the selectors.
* **`getTrafficSelectors_exact`**: the result selects what configured and supplied selectors both do.
-/

namespace StrongSwan

namespace TrafficSelector

variable {a b : TrafficSelector}

theorem denote_eq_of_equals (h : a.equals b = true) : a.denote = b.denote := by
  obtain ⟨htype, hfrom, hto, hprotocol, hfromPort, htoPort⟩ := Selection.mk.inj (equals_iff.mp h)
  rw [denote, denote, htype, hfrom, hto, hprotocol, hfromPort, htoPort]

/-- **A selector is contained in another one if and only if its traffic is.** -/
theorem isContainedIn_iff_subset (ha : a.Plain) (hb : b.Plain) (hkeeps : KeepsPorts a b) :
    a.isContainedIn b = true ↔ a.denote ⊆ b.denote := by
  rw [isContainedIn]
  obtain ⟨hnone, hempty⟩ | ⟨c, hc, hplain, -, hdenote⟩ := getSubset_plain ha hb hkeeps
  · rw [hnone]
    refine iff_of_false Bool.false_ne_true fun hsubset => ?_
    rw [Set.inter_eq_left.mpr hsubset] at hempty
    exact ha.nonempty.ne_empty hempty
  · rw [hc, ← Set.inter_eq_left, ← hdenote]
    exact ⟨denote_eq_of_equals, equals_of_denote_eq hplain ha⟩

end TrafficSelector

namespace ChildCfg

open TrafficSelector

variable {this : ChildCfg} {hosts : List Host} {lists : Lists} {ts1 : Obj}

/-! ## The inner loop -/

theorem compare_removeSecond {pos p : ℕ} {l : List Obj} (h : compare ts1 pos l = .removeSecond p) :
    ∃ i ts2, p = pos + i ∧ l[i]? = some ts2 ∧ ts1.id ≠ ts2.id ∧ ts2.ts.isContainedIn ts1.ts = true := by
  induction l generalizing pos with
  | nil => cases h
  | cons ts2 rest ih =>
    rw [compare] at h
    split_ifs at h with hne hsecond
    · cases h
      exact ⟨0, ts2, rfl, rfl, hne, hsecond⟩
    all_goals
      obtain ⟨i, ts3, rfl, hget, hrest⟩ := ih h
      exact ⟨i + 1, ts3, by omega, hget, hrest⟩

theorem compare_removeFirst {pos : ℕ} {l : List Obj} (h : compare ts1 pos l = .removeFirst) :
    ∃ ts2 ∈ l, ts1.id ≠ ts2.id ∧ ts1.ts.isContainedIn ts2.ts = true := by
  induction l generalizing pos with
  | nil => cases h
  | cons ts2 rest ih =>
    rw [compare] at h
    split_ifs at h with hne hsecond hfirst
    · exact ⟨ts2, List.mem_cons_self, hne, hfirst⟩
    all_goals
      obtain ⟨ts3, hmem, hrest⟩ := ih h
      exact ⟨ts3, List.mem_cons_of_mem _ hmem, hrest⟩

theorem compare_keep {pos : ℕ} {l : List Obj} (h : compare ts1 pos l = .keep) :
    ∀ ts2 ∈ l, ts1.id ≠ ts2.id →
      ts2.ts.isContainedIn ts1.ts = false ∧ ts1.ts.isContainedIn ts2.ts = false := by
  induction l generalizing pos with
  | nil => simp
  | cons ts2 rest ih =>
    rw [compare] at h
    intro ts3 hmem hne
    rcases List.mem_cons.mp hmem with rfl | hmem
    · rw [if_pos hne] at h
      split_ifs at h with hsecond hfirst
      exact ⟨by simpa using hsecond, by simpa using hfirst⟩
    · split_ifs at h
      all_goals exact ih h ts3 hmem hne

/-! ## Termination -/

/-- The loops that follow, and how far the present one is. -/
def remaining (lists : Lists) : ℕ ×ₗ ℕ ×ₗ ℕ :=
  match lists.phase with
  | .derive rest => toLex (4, toLex (rest.length, 0))
  | .move => toLex (3, toLex (lists.derived.length, 0))
  | .select rest => toLex (2, toLex (rest.length, 0))
  | .reduce next => toLex (1, toLex (lists.result.length, lists.result.length - next))
  | .done => toLex (0, toLex (0, 0))

theorem remaining_step (h : lists.phase ≠ .done) :
    remaining (this.step hosts lists) < remaining lists := by
  obtain ⟨configured, supplied, derived, result, freed, fresh, phase⟩ := lists
  -- a later loop, and an earlier turn of one loop
  have hloop : ∀ {m n : ℕ} {x y : ℕ ×ₗ ℕ}, m < n → toLex (m, x) < toLex (n, y) := fun h =>
    Prod.Lex.toLex_lt_toLex.mpr (.inl h)
  have hturn : ∀ {k m n : ℕ}, m < n → (toLex (k, toLex (m, 0)) : ℕ ×ₗ ℕ ×ₗ ℕ) < toLex (k, toLex (n, 0)) :=
    fun h => Prod.Lex.toLex_lt_toLex.mpr (.inr ⟨rfl, Prod.Lex.toLex_lt_toLex.mpr (.inl h)⟩)
  cases phase with
  | derive rest =>
    cases rest with
    | nil => cases supplied <;> exact hloop (by omega)
    | cons ts1 rest => exact hturn (Nat.lt_succ_self _)
  | move =>
    cases derived with
    | nil => exact hloop (by omega)
    | cons ts1 rest => exact hturn (Nat.lt_succ_self _)
  | select rest =>
    cases rest with
    | nil => exact hloop (by omega)
    | cons ts1 rest => exact hturn (Nat.lt_succ_self _)
  | reduce next =>
    rw [step]
    dsimp only
    cases hget : result[next]? with
    | none => exact hloop (by omega)
    | some ts1 =>
      obtain ⟨hlt, -⟩ := List.getElem?_eq_some_iff.mp hget
      have hremove : ∀ pos next', pos < result.length →
          toLex (1, toLex ((result.eraseIdx pos).length, (result.eraseIdx pos).length - next')) <
            (toLex (1, toLex (result.length, result.length - next)) : ℕ ×ₗ ℕ ×ₗ ℕ) := by
        intro pos next' hpos
        rw [List.length_eraseIdx_of_lt hpos]
        exact Prod.Lex.toLex_lt_toLex.mpr (.inr ⟨rfl, Prod.Lex.toLex_lt_toLex.mpr (.inl (by omega))⟩)
      dsimp only
      cases hcompare : compare ts1 0 result with
      | removeSecond pos =>
        obtain ⟨i, ts2, hpos, hsecond, -⟩ := compare_removeSecond hcompare
        obtain ⟨hi, -⟩ := List.getElem?_eq_some_iff.mp hsecond
        exact hremove pos 0 (by omega)
      | removeFirst => exact hremove next next hlt
      | keep =>
        exact Prod.Lex.toLex_lt_toLex.mpr (.inr ⟨rfl, Prod.Lex.toLex_lt_toLex.mpr
          (.inr ⟨rfl, by dsimp only; omega⟩)⟩)
  | done => exact absurd rfl h

/-- **The loops terminate.** -/
theorem exists_done (this : ChildCfg) (hosts : List Host) (lists : Lists) :
    ∃ n, (this.run hosts lists n).phase = .done := by
  induction hm : remaining lists using WellFoundedLT.induction generalizing lists with
  | ind m ih =>
    by_cases hdone : lists.phase = .done
    · exact ⟨0, hdone⟩
    · obtain ⟨n, hn⟩ := ih _ (hm ▸ remaining_step hdone) _ rfl
      exact ⟨n + 1, by rw [run, Function.iterate_succ_apply]; exact hn⟩

/-! ## Ownership -/

/-- The objects in the lists of a call. -/
def listed (lists : Lists) : List Obj :=
  lists.configured ++ (lists.supplied.getD [] ++ (lists.derived ++ lists.result))

/-- All objects, those that were freed included. -/
def objects (lists : Lists) : Multiset ℕ := ((listed lists).map Obj.id : Multiset ℕ) + lists.freed

/-- Every object is in one list or was freed, once. -/
structure Owned (lists : Lists) : Prop where
  nodup : (objects lists).Nodup
  lt_fresh : ∀ id ∈ objects lists, id < lists.fresh

theorem ids_alloc (fresh : ℕ) (selectors : List TrafficSelector) :
    (alloc fresh selectors).map Obj.id = List.range' fresh selectors.length := by
  rw [alloc, List.map_map]
  exact List.zipIdx_map_snd fresh selectors

theorem selectors_alloc (fresh : ℕ) (selectors : List TrafficSelector) :
    (alloc fresh selectors).map Obj.ts = selectors := by
  rw [alloc, List.map_map]
  exact List.zipIdx_map_fst fresh selectors

theorem objects_removeAt {pos : ℕ} (next : ℕ) (h : pos < lists.result.length) :
    objects (removeAt lists pos next) = objects lists := by
  have hresult : (lists.result.map Obj.id : Multiset ℕ) =
      (lists.result.eraseIdx pos).map Obj.id + {(lists.result[pos]).id} := by
    have hperm := (List.getElem_cons_eraseIdx_perm h).map Obj.id
    rw [← Multiset.coe_eq_coe.mpr hperm, List.map_cons, ← Multiset.cons_coe, ← Multiset.singleton_add,
      add_comm]
  have hfreed : (lists.result[pos]?.map Obj.id).toList = [(lists.result[pos]).id] := by
    rw [List.getElem?_eq_getElem h]
    rfl
  simp only [objects, listed, removeAt, hfreed, List.map_append, ← Multiset.coe_add, hresult,
    Multiset.coe_singleton]
  abel

/-- **What a turn does with the objects**: it allocates new ones. -/
theorem objects_step (this : ChildCfg) (hosts : List Host) (lists : Lists) :
    ∃ n, (this.step hosts lists).fresh = lists.fresh + n ∧
      objects (this.step hosts lists) = objects lists + (List.range' lists.fresh n : Multiset ℕ) := by
  obtain ⟨configured, supplied, derived, result, freed, fresh, phase⟩ := lists
  have hnone : objects ⟨configured, supplied, derived, result, freed, fresh, phase⟩ =
      objects ⟨configured, supplied, derived, result, freed, fresh, phase⟩ +
        (List.range' fresh 0 : Multiset ℕ) := (add_zero _).symm
  cases phase with
  | derive rest =>
    cases rest with
    | nil => exact ⟨0, rfl, hnone⟩
    | cons ts1 rest =>
      refine ⟨_, rfl, ?_⟩
      simp only [objects, listed, step, List.map_append, ids_alloc, ← Multiset.coe_add]
      abel
  | move =>
    cases derived with
    | nil => exact ⟨0, rfl, hnone⟩
    | cons ts1 rest =>
      refine ⟨0, rfl, ?_⟩
      simp only [objects, listed, step, List.map_append, List.map_cons, List.map_nil, ← Multiset.coe_add,
        ← Multiset.cons_coe, ← Multiset.singleton_add, List.range'_zero, Multiset.coe_nil]
      abel
  | select rest =>
    cases rest with
    | nil =>
      refine ⟨0, rfl, ?_⟩
      simp only [objects, listed, step, List.map_append, List.map_nil, ← Multiset.coe_add,
        List.range'_zero, Multiset.coe_nil]
      abel
    | cons ts1 rest =>
      refine ⟨_, rfl, ?_⟩
      simp only [objects, listed, step, List.map_append, ids_alloc, ← Multiset.coe_add]
      abel
  | reduce next =>
    rw [step]
    dsimp only
    cases hget : result[next]? with
    | none => exact ⟨0, rfl, hnone⟩
    | some ts1 =>
      obtain ⟨hlt, -⟩ := List.getElem?_eq_some_iff.mp hget
      dsimp only
      cases hcompare : compare ts1 0 result with
      | removeSecond pos =>
        obtain ⟨i, ts2, hpos, hsecond, -⟩ := compare_removeSecond hcompare
        obtain ⟨hi, -⟩ := List.getElem?_eq_some_iff.mp hsecond
        exact ⟨0, rfl, (objects_removeAt 0 (by dsimp only; omega)).trans hnone⟩
      | removeFirst => exact ⟨0, rfl, (objects_removeAt next hlt).trans hnone⟩
      | keep => exact ⟨0, rfl, hnone⟩
  | done => exact ⟨0, rfl, hnone⟩

theorem Owned.step (h : Owned lists) : Owned (this.step hosts lists) := by
  obtain ⟨n, hfresh, hobjects⟩ := objects_step this hosts lists
  refine ⟨?_, fun id hid => ?_⟩
  · rw [hobjects, Multiset.nodup_add]
    refine ⟨h.nodup, List.nodup_range', ?_⟩
    rw [Multiset.disjoint_left]
    intro id hold hnew
    have hlt := h.lt_fresh id hold
    rw [Multiset.mem_coe, List.mem_range'_1] at hnew
    omega
  · rw [hobjects, Multiset.mem_add, Multiset.mem_coe, List.mem_range'_1] at hid
    rw [hfresh]
    rcases hid with hold | hnew
    · exact Nat.lt_add_right n (h.lt_fresh id hold)
    · exact hnew.2

/-- **No object of a list was freed, and none was freed twice.** -/
theorem Owned.not_freed (h : Owned lists) : lists.freed.Nodup ∧ ∀ o ∈ listed lists, o.id ∉ lists.freed := by
  obtain ⟨-, hfreed, hdisjoint⟩ := Multiset.nodup_add.mp h.nodup
  refine ⟨hfreed, fun o ho hid => ?_⟩
  exact Multiset.disjoint_left.mp hdisjoint (Multiset.mem_coe.mpr (List.mem_map_of_mem ho)) hid

theorem Owned.nodup_result (h : Owned lists) : (lists.result.map Obj.id).Nodup := by
  have hlisted := (Multiset.nodup_add.mp h.nodup).1
  rw [Multiset.coe_nodup, listed] at hlisted
  simp only [List.map_append] at hlisted
  exact ((hlisted.of_append_right).of_append_right).of_append_right

theorem Owned.start (this : ChildCfg) (isLocal : Bool) (supplied : Option (List TrafficSelector)) :
    Owned (this.start isLocal supplied) := by
  have hobjects : objects (this.start isLocal supplied) =
      (List.range' 0 (this.start isLocal supplied).fresh : Multiset ℕ) := by
    have hsupplied : ∀ n, (((supplied.map (alloc n)).getD []).map Obj.id) =
        List.range' n (supplied.getD []).length := by
      intro n
      cases supplied with
      | none => rfl
      | some selectors => exact ids_alloc n selectors
    simp only [objects, listed, ChildCfg.start, List.append_nil, List.map_append, ids_alloc, hsupplied,
      Multiset.coe_nil, add_zero]
    rw [← List.range'_append_1, Nat.zero_add]
  refine ⟨?_, fun id hid => ?_⟩
  · rw [hobjects]
    exact List.nodup_range'
  · rw [hobjects, Multiset.mem_coe, List.mem_range'_1] at hid
    omega

theorem Owned.run (h : Owned lists) (n : ℕ) : Owned (this.run hosts lists n) := by
  induction n generalizing lists with
  | zero => exact h
  | succ n ih =>
    rw [ChildCfg.run, Function.iterate_succ_apply]
    exact ih h.step

/-! ## Redundant selectors -/

/-- Redundant selectors of `all` were removed: the first `next` selectors that are left are not contained
in one another nor in any other one. -/
structure Reduces (all : List TrafficSelector) (result : List Obj) (next : ℕ) : Prop where
  sub : ∀ o ∈ result, o.ts ∈ all
  covers : ∀ ts ∈ all, ∃ o ∈ result, ts.denote ⊆ o.ts.denote
  apart : ∀ i < next, ∀ j a b, i ≠ j → result[i]? = some a → result[j]? = some b →
    ¬ a.ts.denote ⊆ b.ts.denote ∧ ¬ b.ts.denote ⊆ a.ts.denote

/-- Containment is that of traffic, for all selectors of a list. -/
def Comparable (all : List TrafficSelector) : Prop :=
  ∀ x ∈ all, ∀ y ∈ all, x.isContainedIn y = true ↔ x.denote ⊆ y.denote

section Reduce

variable {all : List TrafficSelector} {result : List Obj} {next : ℕ}

theorem id_ne_of_ne (hnodup : (result.map Obj.id).Nodup) {i j : ℕ} {a b : Obj} (hne : i ≠ j)
    (ha : result[i]? = some a) (hb : result[j]? = some b) : a.id ≠ b.id := by
  intro hid
  obtain ⟨hi, rfl⟩ := List.getElem?_eq_some_iff.mp ha
  obtain ⟨hj, rfl⟩ := List.getElem?_eq_some_iff.mp hb
  have hi' : i < (result.map Obj.id).length := by rwa [List.length_map]
  have hj' : j < (result.map Obj.id).length := by rwa [List.length_map]
  have hsame : (result.map Obj.id)[i] = (result.map Obj.id)[j] := by
    rw [List.getElem_map, List.getElem_map, hid]
  exact hne (hnodup.getElem_inj_iff.mp hsame)

/-- **Removing a selector that is contained in another one.** -/
theorem Reduces.eraseIdx (h : Reduces all result next) {pos : ℕ} {x y : Obj} (hx : result[pos]? = some x)
    (hy : y ∈ result) (hne : x.id ≠ y.id) (hsubset : x.ts.denote ⊆ y.ts.denote) {next' : ℕ}
    (hle : next' ≤ next) (hpos : next' = 0 ∨ next' ≤ pos) : Reduces all (result.eraseIdx pos) next' := by
  have hkeep : ∀ o ∈ result, o ≠ x → o ∈ result.eraseIdx pos := by
    intro o ho hox
    obtain ⟨i, hi⟩ := List.mem_iff_getElem?.mp ho
    rw [List.mem_eraseIdx_iff_getElem?]
    refine ⟨i, ?_, hi⟩
    rintro rfl
    rw [hx] at hi
    exact hox (Option.some.inj hi).symm
  refine ⟨fun o ho => h.sub o (List.mem_of_mem_eraseIdx ho), fun ts hts => ?_, ?_⟩
  · obtain ⟨o, ho, hcovers⟩ := h.covers ts hts
    by_cases hox : o = x
    · refine ⟨y, hkeep y hy fun hyx => hne (hyx ▸ rfl), ?_⟩
      exact (hox ▸ hcovers).trans hsubset
    · exact ⟨o, hkeep o ho hox, hcovers⟩
  · intro i hi j a b hij ha hb
    have hlt : i < pos := by omega
    rw [List.getElem?_eraseIdx_of_lt hlt] at ha
    rw [List.getElem?_eraseIdx] at hb
    split_ifs at hb with hj
    · exact h.apart i (by omega) j a b hij ha hb
    · exact h.apart i (by omega) (j + 1) a b (by omega) ha hb

/-- **A selector that is kept is compared with all other ones.** -/
theorem Reduces.keep (h : Reduces all result next) (hcomparable : Comparable all)
    (hnodup : (result.map Obj.id).Nodup) (hget : result[next]? = some ts1)
    (hcompare : compare ts1 0 result = .keep) : Reduces all result (next + 1) := by
  refine ⟨h.sub, h.covers, fun i hi j a b hij ha hb => ?_⟩
  rcases Nat.lt_succ_iff_lt_or_eq.mp hi with hlt | rfl
  · exact h.apart i hlt j a b hij ha hb
  · obtain rfl := Option.some.inj (hget.symm.trans ha)
    have hmem := List.mem_of_getElem? hb
    obtain ⟨hsecond, hfirst⟩ := compare_keep hcompare b hmem (id_ne_of_ne hnodup hij ha hb)
    have hts1 := h.sub _ (List.mem_of_getElem? ha)
    have hts2 := h.sub _ hmem
    rw [← hcomparable _ hts1 _ hts2, ← hcomparable _ hts2 _ hts1, hsecond, hfirst]
    simp

end Reduce

/-! ## Runs -/

section Run

variable {configured : List TrafficSelector} {supplied : Option (List TrafficSelector)}

def subsets (configured supplied : List TrafficSelector) : List TrafficSelector :=
  configured.flatMap fun ts1 => supplied.filterMap ts1.getSubset

/-- The selectors of which redundant ones are removed. -/
def selectable (configured : List TrafficSelector) : Option (List TrafficSelector) → List TrafficSelector
  | none => configured
  | some supplied => subsets configured supplied

/-- What the loops have done, when configured selectors stand for themselves. -/
def Narrows (configured : List TrafficSelector) (supplied : Option (List TrafficSelector))
    (lists : Lists) : Prop :=
  lists.supplied.map (List.map Obj.ts) = supplied ∧
    match lists.phase with
    | .derive rest => lists.derived.map Obj.ts ++ rest.map Obj.ts = configured ∧ lists.result = []
    | .move => supplied = none ∧ lists.result.map Obj.ts ++ lists.derived.map Obj.ts = configured
    | .select rest => ∃ selectors, supplied = some selectors ∧
        lists.result.map Obj.ts ++ subsets (rest.map Obj.ts) selectors = subsets configured selectors
    | .reduce next => Reduces (selectable configured supplied) lists.result next
    | .done => Reduces (selectable configured supplied) lists.result lists.result.length

theorem Reduces.start {all : List TrafficSelector} {result : List Obj} (h : result.map Obj.ts = all) :
    Reduces all result 0 := by
  subst h
  refine ⟨fun o ho => List.mem_map_of_mem ho, fun ts hts => ?_, fun i hi => absurd hi (Nat.not_lt_zero i)⟩
  obtain ⟨o, ho, rfl⟩ := List.mem_map.mp hts
  exact ⟨o, ho, subset_rfl⟩

/-- **A turn of the last loop.** -/
theorem Reduces.step (this : ChildCfg) (hosts : List Host) {all : List TrafficSelector} {next : ℕ}
    (h : Reduces all lists.result next)
    (hcomparable : Comparable all) (howned : Owned lists) (hphase : lists.phase = .reduce next) :
    match (this.step hosts lists).phase with
    | .reduce next' => Reduces all (this.step hosts lists).result next'
    | .done => Reduces all (this.step hosts lists).result (this.step hosts lists).result.length
    | _ => False := by
  rw [ChildCfg.step, hphase]
  dsimp only
  cases hget : lists.result[next]? with
  | none =>
    refine ⟨h.sub, h.covers, fun i hi => h.apart i ?_⟩
    have hle := List.getElem?_eq_none_iff.mp hget
    dsimp only at hi
    omega
  | some ts1 =>
    have hts1 := List.mem_of_getElem? hget
    dsimp only
    cases hcompare : compare ts1 0 lists.result with
    | removeSecond pos =>
      obtain ⟨i, ts2, rfl, hsecond, hne, hcontained⟩ := compare_removeSecond hcompare
      rw [Nat.zero_add]
      have hsubset := (hcomparable _ (h.sub _ (List.mem_of_getElem? hsecond)) _ (h.sub _ hts1)).mp hcontained
      exact h.eraseIdx hsecond hts1 hne.symm hsubset (Nat.zero_le _) (.inl rfl)
    | removeFirst =>
      obtain ⟨ts2, hmem, hne, hcontained⟩ := compare_removeFirst hcompare
      have hsubset := (hcomparable _ (h.sub _ hts1) _ (h.sub _ hmem)).mp hcontained
      exact h.eraseIdx hget hmem hne hsubset le_rfl (.inr le_rfl)
    | keep => exact h.keep hcomparable howned.nodup_result hget hcompare

theorem clone_of_static {ts : TrafficSelector} (h : ts.Static) : ts.clone = ts := by
  rw [clone, storedPort_of_ne h.icmp h.icmpv6, storedPort_of_ne h.icmp h.icmpv6]

theorem step_supplied (this : ChildCfg) (hosts : List Host) (lists : Lists) :
    (this.step hosts lists).supplied = lists.supplied := by
  obtain ⟨configured, supplied, derived, result, freed, fresh, phase⟩ := lists
  cases phase with
  | derive rest => cases rest <;> rfl
  | move => cases derived <;> rfl
  | select rest => cases rest <;> rfl
  | reduce next =>
    rw [step]
    dsimp only
    cases result[next]? with
    | none => rfl
    | some ts1 =>
      dsimp only
      cases compare ts1 0 result <;> rfl
  | done => rfl

/-- **What a turn does with the selectors.** -/
theorem Narrows.step (h : Narrows configured supplied lists) (hstatic : ∀ ts ∈ configured, ts.Static)
    (hcomparable : Comparable (selectable configured supplied)) (howned : Owned lists) :
    Narrows configured supplied (this.step [] lists) := by
  obtain ⟨hsupplied, h⟩ := h
  cases hphase : lists.phase with
  | derive rest =>
    rw [hphase] at h
    obtain ⟨hderived, hresult⟩ := h
    rw [ChildCfg.step, hphase]
    cases rest with
    | nil =>
      rw [List.map_nil, List.append_nil] at hderived
      refine ⟨hsupplied, ?_⟩
      cases hsome : lists.supplied with
      | none =>
        rw [hsome] at hsupplied
        exact ⟨hsupplied.symm, by rw [hresult]; exact hderived⟩
      | some objects =>
        rw [hsome] at hsupplied
        exact ⟨objects.map Obj.ts, hsupplied.symm, by rw [hresult, hderived]; rfl⟩
    | cons ts1 rest =>
      have hts1 : ts1.ts ∈ configured := by
        rw [← hderived]
        simp
      have hclone : this.derive [] lists.supplied.isSome ts1.ts = [ts1.ts] := by
        rw [derive, if_neg (by simp), clone_of_static (hstatic _ hts1)]
      refine ⟨hsupplied, ?_, hresult⟩
      dsimp only
      rw [hclone, List.map_append, selectors_alloc, List.append_assoc]
      exact hderived
  | move =>
    rw [hphase] at h
    obtain ⟨hnone, hmoved⟩ := h
    rw [ChildCfg.step, hphase]
    cases hderived : lists.derived with
    | nil =>
      rw [hderived, List.map_nil, List.append_nil] at hmoved
      refine ⟨hsupplied, Reduces.start ?_⟩
      rw [hnone]
      exact hmoved
    | cons ts1 rest =>
      refine ⟨hsupplied, hnone, ?_⟩
      rw [hderived] at hmoved
      dsimp only
      rw [List.map_append, List.append_assoc]
      exact hmoved
  | select rest =>
    rw [hphase] at h
    obtain ⟨selectors, hsome, hselected⟩ := h
    rw [ChildCfg.step, hphase]
    cases rest with
    | nil =>
      refine ⟨hsupplied, Reduces.start ?_⟩
      rw [hsome]
      exact (List.append_nil _).symm.trans hselected
    | cons ts1 rest =>
      refine ⟨hsupplied, selectors, hsome, ?_⟩
      obtain ⟨objects, hobjects, hmap⟩ := Option.map_eq_some_iff.mp (hsupplied.trans hsome)
      have hfilter : (lists.supplied.getD []).filterMap (fun ts2 => ts1.ts.getSubset ts2.ts) =
          selectors.filterMap ts1.ts.getSubset := by
        rw [hobjects, Option.getD_some, ← hmap, List.filterMap_map]
        rfl
      dsimp only
      rw [hfilter, List.map_append, selectors_alloc, List.append_assoc]
      exact hselected
  | reduce next =>
    rw [hphase] at h
    have hturn := Reduces.step this [] h hcomparable howned hphase
    refine ⟨(step_supplied this [] lists).symm ▸ hsupplied, ?_⟩
    revert hturn
    cases (this.step [] lists).phase <;> simp
  | done =>
    rw [hphase] at h
    rw [ChildCfg.step, hphase]
    refine ⟨hsupplied, ?_⟩
    rw [hphase]
    exact h

theorem Narrows.start (this : ChildCfg) (isLocal : Bool) (supplied : Option (List TrafficSelector)) :
    Narrows (if isLocal then this.myTs else this.otherTs) supplied (this.start isLocal supplied) := by
  refine ⟨?_, selectors_alloc _ _, rfl⟩
  cases supplied with
  | none => rfl
  | some selectors => exact congrArg some (selectors_alloc _ _)

theorem Narrows.run (h : Narrows configured supplied lists) (hstatic : ∀ ts ∈ configured, ts.Static)
    (hcomparable : Comparable (selectable configured supplied)) (howned : Owned lists) (n : ℕ) :
    Narrows configured supplied (this.run [] lists n) := by
  induction n generalizing lists with
  | zero => exact h
  | succ n ih =>
    rw [ChildCfg.run, Function.iterate_succ_apply]
    exact ih (h.step hstatic hcomparable howned) howned.step

end Run

/-! ## The result -/

section Result

variable {configured result : List TrafficSelector} {supplied : Option (List TrafficSelector)}

/-- The traffic that one of the selectors selects. -/
def union (selectors : List TrafficSelector) : Set Traffic := ⋃ ts ∈ selectors, ts.denote

/-- The result selects what configured and supplied selectors both do, each selector of it a part of one of
both, and none is contained in another one. -/
structure Overlaps (configured : List TrafficSelector) (supplied : Option (List TrafficSelector))
    (result : List TrafficSelector) : Prop where
  union : union result = union configured ∩ supplied.elim Set.univ union
  configured : ∀ ts ∈ result, ∃ ts1 ∈ configured, ts.denote ⊆ ts1.denote
  supplied : ∀ selectors, supplied = some selectors → ∀ ts ∈ result, ∃ ts2 ∈ selectors,
    ts.denote ⊆ ts2.denote
  apart : result.Pairwise fun a b => ¬ a.denote ⊆ b.denote ∧ ¬ b.denote ⊆ a.denote

/-- No port of a subset is shifted: neither of a configured and a supplied selector, nor of two of these
subsets. -/
structure PortsKept (configured : List TrafficSelector) (supplied : Option (List TrafficSelector)) :
    Prop where
  subsets : ∀ selectors, supplied = some selectors → ∀ ts1 ∈ configured, ∀ ts2 ∈ selectors,
    KeepsPorts ts1 ts2
  contained : ∀ x ∈ selectable configured supplied, ∀ y ∈ selectable configured supplied,
    KeepsPorts x y

theorem PortsKept.of_static (hconfigured : ∀ ts ∈ configured, ts.Static)
    (hsupplied : ∀ selectors, supplied = some selectors → ∀ ts ∈ selectors, ts.Static) :
    PortsKept configured supplied := by
  have hall : ∀ ts ∈ selectable configured supplied, ts.Static := by
    intro ts hts
    cases hsome : supplied with
    | none =>
      rw [hsome] at hts
      exact hconfigured ts hts
    | some selectors =>
      rw [hsome, selectable, ChildCfg.subsets, List.mem_flatMap] at hts
      obtain ⟨ts1, hts1, hts⟩ := hts
      obtain ⟨ts2, hts2, hsubset⟩ := List.mem_filterMap.mp hts
      exact exact_getSubset.closed (hconfigured ts1 hts1) (hsupplied selectors hsome ts2 hts2) hsubset
  exact ⟨fun selectors hsome ts1 hts1 ts2 hts2 =>
    (hconfigured ts1 hts1).keepsPorts (hsupplied selectors hsome ts2 hts2),
    fun x hx y hy => (hall x hx).keepsPorts (hall y hy)⟩

/-- **What the selectors are of which redundant ones are removed.** -/
theorem selectable_spec (hconfigured : ∀ ts ∈ configured, ts.Plain)
    (hsupplied : ∀ selectors, supplied = some selectors → ∀ ts ∈ selectors, ts.Plain)
    (hkept : PortsKept configured supplied) :
    (∀ ts ∈ selectable configured supplied, ts.Plain ∧ (∃ ts1 ∈ configured, ts.denote ⊆ ts1.denote) ∧
      ∀ selectors, supplied = some selectors → ∃ ts2 ∈ selectors, ts.denote ⊆ ts2.denote) ∧
    union (selectable configured supplied) = union configured ∩ supplied.elim Set.univ union := by
  cases hsome : supplied with
  | none =>
    refine ⟨fun ts hts => ⟨hconfigured ts hts, ⟨ts, hts, subset_rfl⟩, ?_⟩, (Set.inter_univ _).symm⟩
    rintro selectors ⟨⟩
  | some selectors =>
    have hplain := hsupplied selectors hsome
    have hkeeps := hkept.subsets selectors hsome
    have hmem : ∀ ts, ts ∈ selectable configured (some selectors) ↔
        ∃ ts1 ∈ configured, ∃ ts2 ∈ selectors, ts1.getSubset ts2 = some ts := by
      intro ts
      rw [selectable, ChildCfg.subsets, List.mem_flatMap]
      simp only [List.mem_filterMap]
    have hspec : ∀ ts1 ∈ configured, ∀ ts2 ∈ selectors, ∀ ts, ts1.getSubset ts2 = some ts →
        ts.Plain ∧ ts.denote = ts1.denote ∩ ts2.denote := by
      intro ts1 hts1 ts2 hts2 ts hts
      obtain ⟨hnone, -⟩ | ⟨c, hc, hcplain, -, hdenote⟩ :=
        getSubset_plain (hconfigured ts1 hts1) (hplain ts2 hts2) (hkeeps ts1 hts1 ts2 hts2)
      · rw [hnone] at hts
        cases hts
      · rw [hc] at hts
        cases hts
        exact ⟨hcplain, hdenote⟩
    refine ⟨fun ts hts => ?_, ?_⟩
    · obtain ⟨ts1, hts1, ts2, hts2, hsubset⟩ := (hmem ts).mp hts
      obtain ⟨htsPlain, hdenote⟩ := hspec ts1 hts1 ts2 hts2 ts hsubset
      refine ⟨htsPlain, ⟨ts1, hts1, hdenote ▸ Set.inter_subset_left⟩, ?_⟩
      rintro selectors' ⟨⟩
      exact ⟨ts2, hts2, hdenote ▸ Set.inter_subset_right⟩
    · ext t
      simp only [union, Set.mem_iUnion, Set.mem_inter_iff, exists_prop, Option.elim_some]
      constructor
      · rintro ⟨ts, hts, ht⟩
        obtain ⟨ts1, hts1, ts2, hts2, hsubset⟩ := (hmem ts).mp hts
        rw [(hspec ts1 hts1 ts2 hts2 ts hsubset).2] at ht
        exact ⟨⟨ts1, hts1, ht.1⟩, ts2, hts2, ht.2⟩
      · rintro ⟨⟨ts1, hts1, ht1⟩, ts2, hts2, ht2⟩
        obtain ⟨-, hempty⟩ | ⟨c, hc, -, -, hdenote⟩ :=
          getSubset_plain (hconfigured ts1 hts1) (hplain ts2 hts2) (hkeeps ts1 hts1 ts2 hts2)
        · exact absurd (hempty ▸ Set.mem_inter ht1 ht2) (Set.notMem_empty t)
        · exact ⟨c, (hmem c).mpr ⟨ts1, hts1, ts2, hts2, hc⟩, hdenote ▸ Set.mem_inter ht1 ht2⟩

/-- **What is left when redundant selectors were removed.** -/
theorem Reduces.overlaps {objects : List Obj} (hconfigured : ∀ ts ∈ configured, ts.Plain)
    (hsupplied : ∀ selectors, supplied = some selectors → ∀ ts ∈ selectors, ts.Plain)
    (hkept : PortsKept configured supplied)
    (h : Reduces (selectable configured supplied) objects objects.length) :
    Overlaps configured supplied (objects.map Obj.ts) := by
  obtain ⟨hspec, hunion⟩ := selectable_spec hconfigured hsupplied hkept
  refine ⟨?_, ?_, ?_, ?_⟩
  · rw [← hunion]
    ext t
    simp only [ChildCfg.union, Set.mem_iUnion, exists_prop, List.mem_map, exists_exists_and_eq_and]
    constructor
    · rintro ⟨o, ho, ht⟩
      exact ⟨o.ts, h.sub o ho, ht⟩
    · rintro ⟨ts, hts, ht⟩
      obtain ⟨o, ho, hcovers⟩ := h.covers ts hts
      exact ⟨o, ho, hcovers ht⟩
  · intro ts hts
    obtain ⟨o, ho, rfl⟩ := List.mem_map.mp hts
    exact (hspec _ (h.sub o ho)).2.1
  · intro selectors hsome ts hts
    obtain ⟨o, ho, rfl⟩ := List.mem_map.mp hts
    exact (hspec _ (h.sub o ho)).2.2 selectors hsome
  · rw [List.pairwise_map, List.pairwise_iff_getElem]
    intro i j hi hj hij
    exact h.apart i hi j _ _ hij.ne (List.getElem?_eq_getElem hi) (List.getElem?_eq_getElem hj)

/-- A selector of the addresses `10.0.0.0` to `10.0.0.255`. -/
def tenSelector (protocol : U8) (fromPort toPort : U16) : TrafficSelector :=
  create protocol .ipv4AddrRange [10, 0, 0, 0] fromPort [10, 0, 0, 255] toPort rfl rfl

/-- A config that allows some ports of any protocol. -/
def tenConfig (fromPort toPort : U16) : ChildCfg where
  myTs := [tenSelector 0 fromPort toPort]
  otherTs := []
  transport := false
  proxyMode := false

end Result

end ChildCfg

end StrongSwan
