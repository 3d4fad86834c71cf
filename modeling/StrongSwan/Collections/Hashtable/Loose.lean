import StrongSwan.Collections.Hashtable

/-!
# Hash tables whose hash does not respect the equality

Keys that are equal may have different hashes here (0.0.0.0 and :: are equal addresses). Such a table
answers from the keys that are equal and lie in the same row (`Matches`). Rows only ever split, so
what `put` finds nothing for stays apart.

* `Loose`: every pair lies in the row of its hash, the keys of a row are pairwise different.
* **`LooseIndex`**: such a table whose values are their own keys; `get_eq_some_iff`, `put`, `remove`.
-/

namespace StrongSwan

namespace Hashtable

variable {K V : Type}

/-- The key is found under the other one: it is equal and lies in the same row. -/
def Matches (this : Hashtable K V) (key other : K) : Prop :=
  this.equals key other = true ∧ this.row (this.hash key) = this.row (this.hash other)

/-- A table in use whose hash need not respect the equality. -/
structure Loose (this : Hashtable K V) : Prop extends Rows this where
  equivalence : Equivalence fun a b => this.equals a b = true
  power : ∃ k ≤ 30, this.capacity = 2 ^ k
  count : this.count = this.entries.length
  cached : ∀ pair ∈ this.entries, pair.hash = this.hash pair.key
  distinct : this.entries.Pairwise fun p q => ¬ this.Matches p.key q.key

/-! ## Rows -/

theorem getNearestPowerof2_two_pow {k : ℕ} (hk : k ≤ 30) :
    (getNearestPowerof2 (BitVec.ofNat 32 (2 ^ k))).toNat = 2 ^ k := by
  interval_cases k <;> decide

theorem capacity_initHashtable_two_pow (t : Hashtable K V) {k : ℕ} (hk : k ≤ 30) :
    (t.initHashtable (2 ^ k)).capacity = 2 ^ k := by
  have hle : 2 ^ k ≤ MAX_CAPACITY := Nat.pow_le_pow_right (by omega) hk
  rw [initHashtable]
  dsimp only
  rw [min_eq_left hle, max_eq_right Nat.one_le_two_pow, getNearestPowerof2_two_pow hk]

theorem row_two_pow {t : Hashtable K V} {k : ℕ} (hk : k ≤ 30) (hcap : t.capacity = 2 ^ k)
    (hash : U32) : t.row hash = hash.toNat % 2 ^ k := by
  have hlt : 2 ^ k < 2 ^ 32 := Nat.pow_lt_pow_right (by omega) (by omega)
  rw [row, hcap, BitVec.toNat_and, BitVec.toNat_ofNat,
    Nat.mod_eq_of_lt (by omega), Nat.and_two_pow_sub_one_eq_mod]

/-- **Rows split when a table grows**: what shares a row did so before. -/
theorem row_eq_of_double {t t' : Hashtable K V} {k : ℕ} (hk : k < 30) (hcap : t.capacity = 2 ^ k)
    (hcap' : t'.capacity = 2 ^ (k + 1)) {a b : U32} (h : t'.row a = t'.row b) :
    t.row a = t.row b := by
  rw [row_two_pow (by omega) hcap'] at h
  rw [row_two_pow (by omega) hcap'] at h
  rw [row_two_pow hk.le hcap, row_two_pow hk.le hcap]
  have hdvd : 2 ^ k ∣ 2 ^ (k + 1) := pow_dvd_pow 2 (by omega)
  rw [← Nat.mod_mod_of_dvd a.toNat hdvd, ← Nat.mod_mod_of_dvd b.toNat hdvd, h]

theorem capacity_foldl_insertFront (ps : List (Pair K V)) (t : Hashtable K V) :
    (ps.foldl Hashtable.insertFront t).capacity = t.capacity := by
  induction ps generalizing t with
  | nil => rfl
  | cons p ps ih => exact ih (t.insertFront p)

theorem perm_eraseP_of_find? {α : Type} {p : α → Bool} {l : List α} {a : α}
    (h : l.find? p = some a) : l.Perm (a :: l.eraseP p) := by
  obtain ⟨hp, l₁, l₂, rfl, hl₁⟩ := List.find?_eq_some_iff_append.mp h
  rw [List.eraseP_append_right _ (by simpa using hl₁), List.eraseP_cons, hp]
  exact List.perm_middle

/-! ## Reading -/

section Read

variable {t : Hashtable K V}

theorem Loose.matches_refl (h : t.Loose) (key : K) : t.Matches key key :=
  ⟨h.equivalence.refl key, rfl⟩

theorem Loose.matches_symm (h : t.Loose) {a b : K} (hab : t.Matches a b) : t.Matches b a :=
  ⟨h.equivalence.symm hab.1, hab.2.symm⟩

theorem Loose.matches_trans (h : t.Loose) {a b c : K} (hab : t.Matches a b)
    (hbc : t.Matches b c) : t.Matches a c :=
  ⟨h.equivalence.trans hab.1 hbc.1, hab.2.trans hbc.2⟩

theorem Loose.eq_of_matches (h : t.Loose) {p q : Pair K V} (hp : p ∈ t.entries) (hq : q ∈ t.entries)
    (hpq : t.Matches p.key q.key) : p = q := by
  by_contra hne
  have hsymm : Std.Symm fun p q : Pair K V => ¬ t.Matches p.key q.key :=
    ⟨fun _ _ hpq hqp => hpq (h.matches_symm hqp)⟩
  exact h.distinct.forall hp hq hne hpq

theorem Rows.mem_row_iff (h : t.Rows) {p : Pair K V} {i : ℕ} (hi : i < t.table.length) :
    p ∈ t.table[i] ↔ p ∈ t.entries ∧ t.row p.hash = i := by
  constructor
  · exact fun hp => ⟨List.mem_flatten.mpr ⟨_, List.getElem_mem hi, hp⟩, h.placed i hi p hp⟩
  · rintro ⟨hp, hrow⟩
    obtain ⟨r, hr, hpr⟩ := List.mem_flatten.mp hp
    obtain ⟨j, hj, rfl⟩ := List.mem_iff_getElem.mp hr
    obtain rfl : i = j := hrow.symm.trans (h.placed j hj p hpr)
    exact hpr

theorem Loose.lookup_eq_some_iff (h : t.Loose) {key : K} {p : Pair K V} :
    t.lookup key = some p ↔ p ∈ t.entries ∧ t.Matches key p.key := by
  have hi := h.toRows.row_lt (t.hash key)
  have hmem : ∀ q, q ∈ t.table[t.row (t.hash key)] ∧ t.equals key q.key = true ↔
      q ∈ t.entries ∧ t.Matches key q.key := by
    intro q
    rw [h.toRows.mem_row_iff hi, and_assoc]
    refine and_congr_right fun hq => ?_
    rw [h.cached q hq, Matches, and_comm, @eq_comm _ (t.row _)]
  rw [lookup, List.getD_eq_getElem?_getD, List.getElem?_eq_getElem hi, Option.getD_some]
  constructor
  · intro hfind
    have hkey := List.find?_some (p := fun pair : Pair K V => t.equals key pair.key) hfind
    exact (hmem p).mp ⟨List.mem_of_find?_eq_some hfind, hkey⟩
  · rintro ⟨hp, hkey⟩
    cases hfind : t.table[t.row (t.hash key)].find? fun q => t.equals key q.key with
    | none => exact absurd hkey.1 (List.find?_eq_none.mp hfind p ((hmem p).mpr ⟨hp, hkey⟩).1)
    | some q =>
      have hq := List.find?_some (p := fun pair : Pair K V => t.equals key pair.key) hfind
      obtain ⟨hq, hkey'⟩ := (hmem q).mp ⟨List.mem_of_find?_eq_some hfind, hq⟩
      rw [h.eq_of_matches hq hp (h.matches_trans (h.matches_symm hkey') hkey)]

theorem Loose.get_eq (h : t.Loose) (key : K) : t.get key = (t.lookup key).map Pair.value := by
  rw [get]
  split_ifs with hcount
  · have hnil : t.entries = [] := List.length_eq_zero_iff.mp (by rw [← h.count, hcount])
    cases hl : t.lookup key with
    | none => rfl
    | some p => simpa [hnil] using (h.lookup_eq_some_iff.mp hl).1
  · rfl

theorem Loose.get_eq_some_iff (h : t.Loose) {key : K} {v : V} :
    t.get key = some v ↔ ∃ p ∈ t.entries, t.Matches key p.key ∧ p.value = v := by
  rw [h.get_eq, Option.map_eq_some_iff]
  simp only [h.lookup_eq_some_iff, and_assoc]

end Read

/-! ## Adding and removing -/

section Change

variable {t : Hashtable K V}

theorem Loose.rehash (h : t.Loose) :
    t.rehash.Loose ∧ t.rehash.entries.Perm t.entries ∧ t.rehash.equals = t.equals ∧
      t.rehash.hash = t.hash := by
  obtain ⟨k, hk, hcap⟩ := h.power
  unfold Hashtable.rehash
  split_ifs with hmax
  · exact ⟨h, .refl _, rfl, rfl⟩
  have hlt : k < 30 := by
    by_contra hge
    obtain rfl : k = 30 := by omega
    exact hmax (by rw [hcap]; rfl)
  obtain ⟨hrows, hnil⟩ := rows_initHashtable t (t.capacity * 2)
  obtain ⟨hr, hperm, hhash, hequals, hcount⟩ := hrows.foldl_insertFront t.table.flatten
  rw [hnil, List.append_nil] at hperm
  have hcap' : (t.table.flatten.foldl Hashtable.insertFront
      (t.initHashtable (t.capacity * 2))).capacity = 2 ^ (k + 1) := by
    rw [capacity_foldl_insertFront, hcap, ← pow_succ, capacity_initHashtable_two_pow t hlt]
  refine ⟨⟨hr, ?_, ⟨k + 1, hlt, hcap'⟩, ?_, fun p hp => ?_, ?_⟩, hperm, hequals, hhash⟩
  · rw [hequals]
    exact h.equivalence
  · rw [hcount, hperm.length_eq]
    exact h.count
  · rw [hhash]
    exact h.cached p (hperm.subset hp)
  · have hmatches : ∀ {p q : Pair K V}, ¬ t.Matches p.key q.key → ¬ Matches
        (t.table.flatten.foldl Hashtable.insertFront (t.initHashtable (t.capacity * 2)))
        p.key q.key := by
      rintro p q hpq ⟨heq, hrow⟩
      rw [hequals] at heq
      rw [hhash] at hrow
      exact hpq ⟨heq, row_eq_of_double hlt hcap hcap' hrow⟩
    have hsymm : ∀ {p q : Pair K V}, ¬ t.Matches p.key q.key → ¬ t.Matches q.key p.key :=
      fun hpq hqp => hpq (h.matches_symm hqp)
    exact ((hperm.pairwise_iff hsymm).mpr h.distinct).imp hmatches

/-- **`put` of a key that is not found adds one entry.** -/
theorem Loose.put_new (h : t.Loose) {key : K} (hget : t.get key = none) (v : V) :
    (t.put key v).1 = none ∧ (t.put key v).2.Loose ∧
      (t.put key v).2.entries.Perm (⟨key, v, t.hash key⟩ :: t.entries) ∧
      (t.put key v).2.equals = t.equals ∧ (t.put key v).2.hash = t.hash := by
  have hl : t.lookup key = none := by
    rw [h.get_eq] at hget
    simpa using hget
  set t₁ : Hashtable K V :=
    { t.insertFront ⟨key, v, t.hash key⟩ with count := t.count + 1 } with ht₁
  have hperm : t₁.entries.Perm (⟨key, v, t.hash key⟩ :: t.entries) :=
    h.toRows.perm_insertFront ⟨key, v, t.hash key⟩
  have hrows : t₁.Rows := by
    obtain ⟨h₁, h₂, h₃, h₄⟩ := h.toRows.insertFront ⟨key, v, t.hash key⟩
    exact ⟨h₁, h₂, h₃, h₄⟩
  have habsent : ∀ p ∈ t.entries, ¬ t.Matches key p.key := by
    intro p hp hmatches
    rw [h.lookup_eq_some_iff.mpr ⟨hp, hmatches⟩] at hl
    cases hl
  have hloose : t₁.Loose := by
    refine ⟨hrows, h.equivalence, h.power, ?_, fun p hp => ?_, ?_⟩
    · rw [hperm.length_eq, List.length_cons, ← h.count]
    · rcases List.mem_cons.mp (hperm.subset hp) with rfl | hp
      · rfl
      · exact h.cached p hp
    · have hsymm : ∀ {p q : Pair K V}, ¬ t.Matches p.key q.key → ¬ t.Matches q.key p.key :=
        fun hpq hqp => hpq (h.matches_symm hqp)
      exact (hperm.pairwise_iff hsymm).mpr (List.pairwise_cons.mpr ⟨habsent, h.distinct⟩)
  have hput : t.put key v = (none, if 4 * t₁.count ≥ 3 * t₁.capacity then t₁.rehash else t₁) := by
    simp only [put, hl]
    rfl
  rw [hput]
  refine ⟨rfl, ?_⟩
  dsimp only
  split_ifs
  · obtain ⟨hr, hp, hequals, hhash⟩ := hloose.rehash
    exact ⟨hr, hp.trans hperm, hequals, hhash⟩
  · exact ⟨hloose, hperm, rfl, rfl⟩

theorem Loose.remove_none (h : t.Loose) {key : K} (hget : t.get key = none) :
    t.remove key = (none, t) := by
  have hl : t.lookup key = none := by
    rw [h.get_eq] at hget
    simpa using hget
  rw [remove, hl]

/-- **`remove` takes the entry that is found under its key, and keeps the others.** -/
theorem Loose.remove_some (h : t.Loose) {key : K} {v : V} (hget : t.get key = some v) :
    (t.remove key).1 = some v ∧ (t.remove key).2.Loose ∧ (t.remove key).2.equals = t.equals ∧
      (t.remove key).2.hash = t.hash ∧
      ∃ p, p.value = v ∧ t.entries.Perm (p :: (t.remove key).2.entries) := by
  rw [h.get_eq, Option.map_eq_some_iff] at hget
  obtain ⟨p, hl, rfl⟩ := hget
  have hi := h.toRows.row_lt (t.hash key)
  have hfind := hl
  rw [lookup, List.getD_eq_getElem?_getD, List.getElem?_eq_getElem hi, Option.getD_some] at hfind
  have herase := perm_eraseP_of_find? hfind
  rw [remove, hl]
  dsimp only
  set t' : Hashtable K V := { t with
    count := t.count - 1
    table := t.table.modify (t.row (t.hash key)) (·.eraseP fun pair => t.equals key pair.key) }
  have hperm : t.entries.Perm (p :: t'.entries) := by
    rw [entries, entries, flatten_modify _ hi, flatten_split _ hi]
    simp only [List.append_assoc]
    refine ((herase.append_right _).append_left _).trans ?_
    exact List.perm_middle
  refine ⟨rfl, ?_, rfl, rfl, p, rfl, hperm⟩
  have hsub : ∀ {q}, q ∈ t'.entries → q ∈ t.entries :=
    fun hq => hperm.symm.subset (List.mem_cons_of_mem _ hq)
  have hlength := hperm.length_eq
  rw [← h.count, List.length_cons] at hlength
  have hrows : t'.Rows := by
    refine ⟨by rw [← h.length]; exact List.length_modify .., h.capacity_pos, h.capacity_le, ?_⟩
    intro i hi' q hq
    have hi'' : i < t.table.length := by simpa [t'] using hi'
    simp only [t', List.getElem_modify] at hq
    split_ifs at hq
    · exact h.placed i hi'' q (List.mem_of_mem_eraseP hq)
    · exact h.placed i hi'' q hq
  refine ⟨hrows, h.equivalence, h.power, ?_, fun q hq => h.cached q (hsub hq), ?_⟩
  · change t.count - 1 = _
    omega
  · have hsymm : ∀ {p q : Pair K V}, ¬ t.Matches p.key q.key → ¬ t.Matches q.key p.key :=
      fun hpq hqp => hpq (h.matches_symm hqp)
    exact (List.pairwise_cons.mp ((hperm.pairwise_iff hsymm).mp h.distinct)).2

theorem loose_create {hash : K → U32} {equals : K → K → Bool}
    (h : Equivalence fun a b => equals a b = true) {k : ℕ} (hk : k ≤ 30) :
    (create hash equals (2 ^ k) : Hashtable K V).Loose ∧
      (create hash equals (2 ^ k) : Hashtable K V).entries = [] := by
  obtain ⟨hrows, hnil⟩ := rows_initHashtable (⟨0, 0, [], hash, equals⟩ : Hashtable K V) (2 ^ k)
  have hcap := capacity_initHashtable_two_pow (⟨0, 0, [], hash, equals⟩ : Hashtable K V) hk
  refine ⟨⟨hrows, h, ⟨k, hk, hcap⟩, ?_, ?_, ?_⟩, hnil⟩
  · rw [create, hnil]
    rfl
  · simp [create, hnil]
  · simp [create, hnil]

end Change

/-! ## Tables of values that are their own keys -/

/-- The table has the values of `s`, each under itself. -/
structure LooseIndex (t : Hashtable K K) (s : Multiset K) : Prop where
  loose : t.Loose
  own : ∀ p ∈ t.entries, p.key = p.value
  values : (t.entries.map Pair.value : Multiset K) = s

section LooseIndex

variable {t : Hashtable K K} {s : Multiset K} {key v : K}

theorem looseIndex_create {hash : K → U32} {equals : K → K → Bool}
    (h : Equivalence fun a b => equals a b = true) {k : ℕ} (hk : k ≤ 30) :
    (create hash equals (2 ^ k)).LooseIndex 0 := by
  obtain ⟨hloose, hnil⟩ := loose_create h hk
  exact ⟨hloose, by simp [hnil], by simp [hnil]⟩

theorem LooseIndex.mem_iff (h : t.LooseIndex s) : v ∈ s ↔ ∃ p ∈ t.entries, p.value = v := by
  rw [← h.values, Multiset.mem_coe, List.mem_map]

/-- **`get` finds the value that matches its key.** -/
theorem LooseIndex.get_eq_some_iff (h : t.LooseIndex s) :
    t.get key = some v ↔ v ∈ s ∧ t.Matches key v := by
  rw [h.loose.get_eq_some_iff, h.mem_iff]
  constructor
  · rintro ⟨p, hp, hkey, rfl⟩
    rw [h.own p hp] at hkey
    exact ⟨⟨p, hp, rfl⟩, hkey⟩
  · rintro ⟨⟨p, hp, rfl⟩, hkey⟩
    rw [← h.own p hp] at hkey
    exact ⟨p, hp, hkey, rfl⟩

theorem LooseIndex.get_self (h : t.LooseIndex s) (hv : v ∈ s) : t.get v = some v :=
  h.get_eq_some_iff.mpr ⟨hv, h.loose.matches_refl v⟩

theorem LooseIndex.nodup (h : t.LooseIndex s) : s.Nodup := by
  rw [← h.values, Multiset.coe_nodup, List.Nodup, List.pairwise_map]
  refine h.loose.distinct.imp_of_mem fun {p q} hp hq hne heq => hne ?_
  rw [h.own p hp, h.own q hq, heq]
  exact h.loose.matches_refl _

theorem LooseIndex.put (h : t.LooseIndex s) (hget : t.get v = none) :
    (t.put v v).1 = none ∧ (t.put v v).2.LooseIndex (v ::ₘ s) ∧
      (t.put v v).2.equals = t.equals ∧ (t.put v v).2.hash = t.hash := by
  obtain ⟨hfst, hloose, hperm, hequals, hhash⟩ := h.loose.put_new hget v
  refine ⟨hfst, ⟨hloose, fun p hp => ?_, ?_⟩, hequals, hhash⟩
  · obtain rfl | hp := List.mem_cons.mp (hperm.subset hp)
    · rfl
    · exact h.own p hp
  · rw [Multiset.coe_eq_coe.mpr (hperm.map _), ← h.values]
    rfl

theorem LooseIndex.remove (h : t.LooseIndex s) (hget : t.get key = some v) :
    (t.remove key).1 = some v ∧ (t.remove key).2.equals = t.equals ∧
      (t.remove key).2.hash = t.hash ∧ ∃ s', s = v ::ₘ s' ∧ (t.remove key).2.LooseIndex s' := by
  obtain ⟨hfst, hloose, hequals, hhash, p, rfl, hperm⟩ := h.loose.remove_some hget
  refine ⟨hfst, hequals, hhash, _, ?_, hloose, fun q hq => ?_, rfl⟩
  · rw [← h.values, Multiset.coe_eq_coe.mpr (hperm.map _)]
    rfl
  · exact h.own q (hperm.symm.subset (List.mem_cons_of_mem _ hq))

end LooseIndex

end Hashtable

end StrongSwan
