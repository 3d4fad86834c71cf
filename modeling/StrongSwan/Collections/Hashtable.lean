import StrongSwan.Basic
import Mathlib.Tactic

/-!
# Hash tables

`Hashtable` is a table of overflow lists, indexed by the low bits of the hash of a key, and doubled
when it gets too full. `entries` lists its pairs in the order of enumeration.

* `put`, `get`, `remove`, `rehash`: the operations; `update` changes a value in place through the
  pointer `get` returns, and `enumerate` runs a loop body that may call `remove_at`.
* `Wf`: every pair lies in the row of its hash, and keys are pairwise different.
* **`get_eq_some_iff`**: `get` answers from the set of entries.
* `Index`: a table whose values are their own keys, as the multiset of these.
* `entries_update`, `entries_enumerate`: what an operation does to the entries.
-/

namespace StrongSwan

/-- The maximum capacity of the hash table (a power of 2). -/
def MAX_CAPACITY : ℕ := 2 ^ 30

/-- `pair_t`; the pairs of an overflow list are linked by the list they are in. -/
structure Pair (K V : Type) where
  key : K
  value : V
  /-- cached hash, used in case of a resize -/
  hash : U32

/-- `private_hashtable_t`. The mask is `capacity - 1` and the load factor is `3 / 4`. -/
structure Hashtable (K V : Type) where
  count : ℕ
  capacity : ℕ
  table : List (List (Pair K V))
  hash : K → U32
  equals : K → K → Bool

namespace Hashtable

variable {K V σ : Type}

/-- The next-highest power of two, `0` for `0`. -/
def getNearestPowerof2 (n : U32) : U32 :=
  let n := n - 1
  let n := n ||| n >>> 1
  let n := n ||| n >>> 2
  let n := n ||| n >>> 4
  let n := n ||| n >>> 8
  let n := n ||| n >>> 16
  n + 1

/-- Set the capacity and start with an empty table. -/
def initHashtable (this : Hashtable K V) (capacity : ℕ) : Hashtable K V :=
  let capacity := max 1 (min capacity MAX_CAPACITY)
  let capacity := (getNearestPowerof2 (BitVec.ofNat 32 capacity)).toNat
  { this with capacity := capacity, table := List.replicate capacity [] }

def create (hash : K → U32) (equals : K → K → Bool) (capacity : ℕ) : Hashtable K V :=
  initHashtable ⟨0, 0, [], hash, equals⟩ capacity

def row (this : Hashtable K V) (hash : U32) : ℕ :=
  (hash &&& BitVec.ofNat 32 (this.capacity - 1)).toNat

def insertFront (this : Hashtable K V) (pair : Pair K V) : Hashtable K V :=
  { this with table := this.table.modify (this.row pair.hash) (pair :: ·) }

/-- Double the size of the hash table and rehash all the elements. -/
def rehash (this : Hashtable K V) : Hashtable K V :=
  if this.capacity ≥ MAX_CAPACITY then this
  else
    let oldTable := this.table
    oldTable.flatten.foldl insertFront (this.initHashtable (this.capacity * 2))

/-- Change the first pair that satisfies `p`. -/
def updateFirst (p : Pair K V → Bool) (f : Pair K V → Pair K V) : List (Pair K V) → List (Pair K V)
  | [] => []
  | pair :: next => if p pair then f pair :: next else pair :: updateFirst p f next

/-- The pair under `key` in its row. -/
def lookup (this : Hashtable K V) (key : K) : Option (Pair K V) :=
  (this.table.getD (this.row (this.hash key)) []).find? fun pair => this.equals key pair.key

/-- Change the pair under `key` in place. -/
def updatePair (this : Hashtable K V) (key : K) (f : Pair K V → Pair K V) : Hashtable K V :=
  { this with
    table := this.table.modify (this.row (this.hash key))
      (updateFirst (fun pair => this.equals key pair.key) f) }

/-- Change the value under `key` through the pointer `get` returned. -/
def update (this : Hashtable K V) (key : K) (f : V → V) : Hashtable K V :=
  this.updatePair key fun pair => { pair with value := f pair.value }

/-- Store a value, returning the replaced one. -/
def put (this : Hashtable K V) (key : K) (value : V) : Option V × Hashtable K V :=
  let found := this.lookup key
  let this := match found with
    | some _ => this.updatePair key fun pair => { pair with key := key, value := value }
    | none => { this.insertFront ⟨key, value, this.hash key⟩ with count := this.count + 1 }
  let this := if 4 * this.count ≥ 3 * this.capacity then this.rehash else this
  (found.map Pair.value, this)

def get (this : Hashtable K V) (key : K) : Option V :=
  if this.count = 0 then none else (this.lookup key).map Pair.value

/-- Remove the pair under `key`, returning its value. -/
def remove (this : Hashtable K V) (key : K) : Option V × Hashtable K V :=
  match this.lookup key with
  | some pair =>
    (some pair.value, { this with
      count := this.count - 1
      table := this.table.modify (this.row (this.hash key))
        (·.eraseP fun pair => this.equals key pair.key) })
  | none => (none, this)

/-- The pairs, in the order of enumeration. -/
def entries (this : Hashtable K V) : List (Pair K V) := this.table.flatten

/-- The state of an enumeration: that of the loop around it, the number of pairs in the table and
whether the loop was left. -/
structure Enum (σ : Type) where
  state : σ
  count : ℕ
  done : Bool

/-- One turn of a loop over the pairs: the body `f` returns its new state, the current value as it
left it or `none` if it called `remove_at`, and whether it left the loop. -/
def visitRow (f : σ → V → σ × Option V × Bool) :
    List (Pair K V) → Enum σ → List (Pair K V) × Enum σ
  | [], s => ([], s)
  | pair :: next, s =>
    if s.done then (pair :: next, s)
    else
      let r := f s.state pair.value
      match r.2.1 with
      | some v =>
        let rest := visitRow f next ⟨r.1, s.count, r.2.2⟩
        ({ pair with value := v } :: rest.1, rest.2)
      | none => visitRow f next ⟨r.1, s.count - 1, r.2.2⟩

/-- The loop over all rows. -/
def visitRows (f : σ → V → σ × Option V × Bool) :
    List (List (Pair K V)) → Enum σ → List (List (Pair K V)) × Enum σ
  | [], s => ([], s)
  | r :: rows, s =>
    let r' := visitRow f r s
    let rest := visitRows f rows r'.2
    (r'.1 :: rest.1, rest.2)

/-- Enumerate the table with the loop body `f`. -/
def enumerate (this : Hashtable K V) (f : σ → V → σ × Option V × Bool) (s : σ) :
    σ × Hashtable K V :=
  let r := visitRows f this.table ⟨s, this.count, false⟩
  (r.2.state, { this with table := r.1, count := r.2.count })

/-! ## Well-formed tables -/

/-- Equality is an equivalence that the hash respects. -/
structure Consistent (hash : K → U32) (equals : K → K → Bool) : Prop where
  refl : ∀ a, equals a a = true
  symm : ∀ {a b}, equals a b = true → equals b a = true
  trans : ∀ {a b c}, equals a b = true → equals b c = true → equals a c = true
  hash : ∀ {a b}, equals a b = true → hash a = hash b

theorem Consistent.ne_symm {hash : K → U32} {equals : K → K → Bool} (h : Consistent hash equals)
    {a b : K} (hab : equals a b = false) : equals b a = false := by
  by_contra hba
  rw [Bool.not_eq_false] at hba
  rw [h.symm hba] at hab
  cases hab

/-- The shape of a table: every pair lies in the row of its hash. -/
structure Rows (this : Hashtable K V) : Prop where
  length : this.table.length = this.capacity
  capacity_pos : 0 < this.capacity
  capacity_le : this.capacity ≤ 2 ^ 32
  placed : ∀ i (hi : i < this.table.length), ∀ pair ∈ this.table[i], this.row pair.hash = i

/-- A table in use: also, the keys are pairwise different and the hashes those of the keys. -/
structure Wf (this : Hashtable K V) : Prop extends Rows this where
  consistent : Consistent this.hash this.equals
  count : this.count = this.entries.length
  cached : ∀ pair ∈ this.entries, pair.hash = this.hash pair.key
  distinct : this.entries.Pairwise fun p q => this.equals p.key q.key = false

/-! ## Capacity and rows -/

theorem toNat_smear_lt {x : U32} (k : ℕ) (hx : x.toNat < 2 ^ 30) : (x ||| x >>> k).toNat < 2 ^ 30 := by
  rw [BitVec.toNat_or, BitVec.toNat_ushiftRight]
  exact Nat.or_lt_two_pow hx ((Nat.shiftRight_le _ _).trans_lt hx)

theorem getNearestPowerof2_bounds {n : U32} (h₁ : 1 ≤ n.toNat) (h₂ : n.toNat ≤ 2 ^ 30) :
    1 ≤ (getNearestPowerof2 n).toNat ∧ (getNearestPowerof2 n).toNat ≤ 2 ^ 30 := by
  have h : (n - 1).toNat < 2 ^ 30 := by bv_omega
  have h := toNat_smear_lt 16 (toNat_smear_lt 8 (toNat_smear_lt 4 (toNat_smear_lt 2
    (toNat_smear_lt 1 h))))
  rw [getNearestPowerof2]
  revert h
  generalize _ ||| _ >>> 16 = x
  intro h
  constructor <;> bv_omega

theorem capacity_initHashtable (t : Hashtable K V) (c : ℕ) :
    1 ≤ (t.initHashtable c).capacity ∧ (t.initHashtable c).capacity ≤ 2 ^ 30 := by
  have hmax : MAX_CAPACITY = 2 ^ 30 := rfl
  apply getNearestPowerof2_bounds <;> rw [BitVec.toNat_ofNat] <;> omega

variable {t : Hashtable K V}

theorem row_lt (h₁ : 0 < t.capacity) (h₂ : t.capacity ≤ 2 ^ 32) (hash : U32) :
    t.row hash < t.capacity := by
  have hle : t.row hash ≤ (BitVec.ofNat 32 (t.capacity - 1)).toNat := by
    rw [row, BitVec.toNat_and]
    exact Nat.and_le_right
  rw [BitVec.toNat_ofNat] at hle
  omega

theorem Rows.row_lt (h : t.Rows) (hash : U32) :
    t.row hash < t.table.length := by
  rw [h.length]
  exact Hashtable.row_lt h.capacity_pos h.capacity_le hash

theorem flatten_modify {α : Type} (l : List (List α)) {i : ℕ} (hi : i < l.length)
    (f : List α → List α) :
    (l.modify i f).flatten = (l.take i).flatten ++ f l[i] ++ (l.drop (i + 1)).flatten := by
  rw [List.modify_eq_take_cons_drop hi]
  simp

theorem flatten_split {α : Type} (l : List (List α)) {i : ℕ} (hi : i < l.length) :
    l.flatten = (l.take i).flatten ++ l[i] ++ (l.drop (i + 1)).flatten := by
  have h := flatten_modify l hi id
  rwa [List.modify_id] at h

theorem perm_flatten_insert {α : Type} (l : List (List α)) {i : ℕ} (hi : i < l.length) (a : α) :
    (l.modify i (a :: ·)).flatten.Perm (a :: l.flatten) := by
  rw [flatten_modify l hi, flatten_split l hi, List.append_assoc, List.append_assoc]
  exact List.perm_middle

/-! ## Reading -/

section Read

variable {t : Hashtable K V} (h : t.Wf)

include h

theorem Wf.eq_of_equals {p q : Pair K V} (hp : p ∈ t.entries) (hq : q ∈ t.entries)
    (heq : t.equals p.key q.key = true) : p = q := by
  by_contra hne
  have hsymm : Std.Symm fun p q : Pair K V => t.equals p.key q.key = false :=
    ⟨fun _ _ => h.consistent.ne_symm⟩
  have := h.distinct.forall hp hq hne
  rw [heq] at this
  cases this

theorem Wf.lookup_eq_some_iff {key : K} {p : Pair K V} :
    t.lookup key = some p ↔ p ∈ t.entries ∧ t.equals key p.key = true := by
  have hrow := h.toRows.row_lt (t.hash key)
  rw [lookup, List.getD_eq_getElem?_getD, List.getElem?_eq_getElem hrow, Option.getD_some]
  constructor
  · intro hfind
    have hkey := List.find?_some (p := fun pair : Pair K V => t.equals key pair.key) hfind
    exact ⟨List.mem_flatten.mpr ⟨_, List.getElem_mem hrow, List.mem_of_find?_eq_some hfind⟩, hkey⟩
  · rintro ⟨hp, heq⟩
    -- `p` lies in the row that is searched
    obtain ⟨r, hr, hpr⟩ := List.mem_flatten.mp hp
    obtain ⟨i, hi, rfl⟩ := List.mem_iff_getElem.mp hr
    have hpi := h.placed i hi p hpr
    rw [h.cached p hp, ← h.consistent.hash heq] at hpi
    subst hpi
    cases hfind : t.table[t.row (t.hash key)].find? fun q => t.equals key q.key with
    | none => exact absurd heq (by simpa using List.find?_eq_none.mp hfind p hpr)
    | some q =>
      have hq : q ∈ t.entries := List.mem_flatten.mpr ⟨_, hr, List.mem_of_find?_eq_some hfind⟩
      have hkq := List.find?_some (p := fun pair : Pair K V => t.equals key pair.key) hfind
      rw [h.eq_of_equals hq hp (h.consistent.trans (h.consistent.symm hkq) heq)]

theorem Wf.get_eq (key : K) : t.get key = (t.lookup key).map Pair.value := by
  unfold get
  split_ifs with hcount
  · have hnil : t.entries = [] := List.length_eq_zero_iff.mp (by rw [← h.count, hcount])
    cases hl : t.lookup key with
    | none => rfl
    | some p => simpa [hnil] using ((h.lookup_eq_some_iff).mp hl).1
  · rfl

/-- **`get` answers from the set of entries.** -/
theorem Wf.get_eq_some_iff {key : K} {v : V} :
    t.get key = some v ↔ ∃ p ∈ t.entries, t.equals key p.key = true ∧ p.value = v := by
  rw [h.get_eq, Option.map_eq_some_iff]
  simp only [h.lookup_eq_some_iff, and_assoc]

theorem Wf.get_eq_none_iff {key : K} :
    t.get key = none ↔ ∀ p ∈ t.entries, t.equals key p.key = false := by
  constructor
  · intro hget p hp
    by_contra hne
    rw [Bool.not_eq_false] at hne
    have := h.get_eq_some_iff.mpr ⟨p, hp, hne, rfl⟩
    rw [hget] at this
    cases this
  · intro hall
    by_contra hne
    obtain ⟨v, hv⟩ := Option.ne_none_iff_exists'.mp hne
    obtain ⟨p, hp, heq, -⟩ := h.get_eq_some_iff.mp hv
    rw [hall p hp] at heq
    cases heq

end Read

/-! ## Changing entries in place and removing them -/

/-- What stays with a pair until it is freed. -/
def sig (p : Pair K V) : K × U32 := (p.key, p.hash)

/-- **A table whose rows lose pairs or change values stays well-formed.** -/
theorem Wf.of_rows {t t' : Hashtable K V} (h : t.Wf) (hhash : t'.hash = t.hash)
    (hequals : t'.equals = t.equals) (hcap : t'.capacity = t.capacity)
    (hcount : t'.count = t'.entries.length)
    (hrows : List.Forall₂ (fun r' r => (r'.map sig).Sublist (r.map sig)) t'.table t.table) :
    t'.Wf := by
  have hflat : (t'.entries.map sig).Sublist (t.entries.map sig) := by
    unfold entries
    revert hrows
    generalize t'.table = rows'
    generalize t.table = rows
    intro hrows
    induction hrows with
    | nil => simp
    | cons hr _ ih =>
      rw [List.flatten_cons, List.flatten_cons, List.map_append, List.map_append]
      exact hr.append ih
  have hrow : ∀ hash, t'.row hash = t.row hash := fun hash => by rw [row, row, hcap]
  have hsig : ∀ {p'}, p' ∈ t'.entries → ∃ p ∈ t.entries, sig p = sig p' := fun hp' => by
    have := hflat.subset (List.mem_map_of_mem hp')
    simpa using this
  have hshape : t'.Rows := by
    refine ⟨?_, by rw [hcap]; exact h.capacity_pos, by rw [hcap]; exact h.capacity_le, ?_⟩
    · rw [hcap, ← h.length]
      exact hrows.length_eq
    intro i hi p' hp'
    have hi' : i < t.table.length := by rw [← hrows.length_eq]; exact hi
    have hsub := List.forall₂_iff_get.mp hrows |>.2 i hi hi'
    obtain ⟨p, hp, hs⟩ := List.mem_map.mp (hsub.subset (List.mem_map_of_mem hp'))
    rw [hrow, ← (Prod.mk.inj hs).2]
    exact h.placed i hi' p hp
  refine ⟨hshape, by rw [hhash, hequals]; exact h.consistent, hcount, ?_, ?_⟩
  · intro p' hp'
    obtain ⟨p, hp, hs⟩ := hsig hp'
    obtain ⟨hk, hh⟩ := Prod.mk.inj hs
    rw [hhash, ← hh, ← hk]
    exact h.cached p hp
  · have hkeys : (t.entries.map sig).Pairwise fun a b => t.equals a.1 b.1 = false :=
      List.pairwise_map.mpr h.distinct
    rw [hequals]
    exact List.pairwise_map.mp (hkeys.sublist hflat)

theorem map_updateFirst {α : Type} (g : Pair K V → α) (p : Pair K V → Bool)
    {f : Pair K V → Pair K V} (hf : ∀ pair, g (f pair) = g pair) (l : List (Pair K V)) :
    (updateFirst p f l).map g = l.map g := by
  induction l with
  | nil => rfl
  | cons a l ih =>
    rw [updateFirst]
    split_ifs <;> simp [hf, ih]

theorem updateFirst_split {p : Pair K V → Bool} (f : Pair K V → Pair K V) {l : List (Pair K V)}
    {a : Pair K V} (h : l.find? p = some a) :
    ∃ l₁ l₂, l = l₁ ++ a :: l₂ ∧ updateFirst p f l = l₁ ++ f a :: l₂ := by
  induction l with
  | nil => simp at h
  | cons b l ih =>
    rw [List.find?_cons] at h
    cases hb : p b with
    | true =>
      simp only [hb, Option.some.injEq] at h
      subst h
      exact ⟨[], l, rfl, by simp [updateFirst, hb]⟩
    | false =>
      simp only [hb] at h
      obtain ⟨l₁, l₂, hl, hu⟩ := ih h
      exact ⟨b :: l₁, l₂, by rw [hl]; rfl, by simp [updateFirst, hb, hu]⟩

variable {key : K}

theorem entries_updatePair {p : Pair K V}
    (hl : t.lookup key = some p) (f : Pair K V → Pair K V) :
    ∃ l₁ l₂, t.entries = l₁ ++ p :: l₂ ∧ (t.updatePair key f).entries = l₁ ++ f p :: l₂ := by
  have hrow : t.row (t.hash key) < t.table.length := by
    by_contra hle
    rw [lookup, List.getD_eq_getElem?_getD, List.getElem?_eq_none (by omega)] at hl
    cases hl
  rw [lookup, List.getD_eq_getElem?_getD, List.getElem?_eq_getElem hrow, Option.getD_some] at hl
  obtain ⟨l₁, l₂, hr, hu⟩ := updateFirst_split f hl
  refine ⟨(t.table.take (t.row (t.hash key))).flatten ++ l₁,
    l₂ ++ (t.table.drop (t.row (t.hash key) + 1)).flatten, ?_, ?_⟩
  · rw [entries, flatten_split _ hrow, hr]
    simp
  · rw [entries, updatePair, flatten_modify _ hrow, hu]
    simp

theorem equals_of_lookup {p : Pair K V}
    (hl : t.lookup key = some p) : t.equals key p.key = true := by
  rw [lookup] at hl
  exact List.find?_some (p := fun pair : Pair K V => t.equals key pair.key) hl

/-- **`update` changes one entry and keeps the others**, also if the hash does not fit the equality. -/
theorem entries_update {v : V} (hget : t.get key = some v)
    (f : V → V) :
    ∃ l₁ p l₂, t.entries = l₁ ++ p :: l₂ ∧ t.equals key p.key = true ∧ p.value = v ∧
      (t.update key f).entries = l₁ ++ { p with value := f v } :: l₂ := by
  unfold get at hget
  split_ifs at hget
  obtain ⟨p, hl, rfl⟩ := Option.map_eq_some_iff.mp hget
  obtain ⟨l₁, l₂, hbefore, hafter⟩ := entries_updatePair hl fun pair =>
    { pair with value := f pair.value }
  exact ⟨l₁, p, l₂, hbefore, equals_of_lookup hl, rfl, hafter⟩

section Update

variable {t : Hashtable K V} (h : t.Wf) {key : K}

include h

omit h in
theorem length_updateFirst (p : Pair K V → Bool) (f : Pair K V → Pair K V) (l : List (Pair K V)) :
    (updateFirst p f l).length = l.length := by
  induction l with
  | nil => rfl
  | cons a l ih =>
    rw [updateFirst]
    split_ifs <;> simp [ih]

omit h in
theorem forall₂_modify {α : Type} {R : α → α → Prop} (hrefl : ∀ a, R a a) {g : α → α}
    (hg : ∀ a, R (g a) a) (l : List α) (i : ℕ) : List.Forall₂ R (l.modify i g) l := by
  induction l generalizing i with
  | nil => simp
  | cons a l ih =>
    cases i with
    | zero => exact .cons (hg a) (List.forall₂_same.mpr fun _ _ => hrefl _)
    | succ i => exact .cons (hrefl a) (ih i)

theorem Wf.update (f : V → V) : (t.update key f).Wf := by
  have hsig : ∀ pair : Pair K V, sig { pair with value := f pair.value } = sig pair := fun _ => rfl
  refine h.of_rows rfl rfl rfl ?_ (forall₂_modify (fun _ => .refl _) (fun r => ?_) _ _)
  · change t.count = _
    have hrow := h.toRows.row_lt (t.hash key)
    rw [h.count, entries, entries, Hashtable.update, updatePair, flatten_modify _ hrow,
      flatten_split _ hrow]
    simp [length_updateFirst]
  · rw [map_updateFirst sig _ hsig]

/-- **A pair may get an equal key and another value.** -/
theorem Wf.updatePair_key {p : Pair K V} (hl : t.lookup key = some p) (v : V) :
    (t.updatePair key fun pair => { pair with key := key, value := v }).Wf ∧
      ∃ l₁ l₂, t.entries = l₁ ++ p :: l₂ ∧
        (t.updatePair key fun pair => { pair with key := key, value := v }).entries =
          l₁ ++ { p with key := key, value := v } :: l₂ := by
  have hkey := equals_of_lookup hl
  obtain ⟨l₁, l₂, hbefore, hafter⟩ := entries_updatePair hl fun pair =>
    { pair with key := key, value := v }
  refine ⟨⟨⟨?_, h.capacity_pos, h.capacity_le, ?_⟩, h.consistent, ?_, ?_, ?_⟩, l₁, l₂, hbefore,
    hafter⟩
  · exact (List.length_modify ..).trans h.length
  · -- a pair keeps its hash, so its row
    intro i hi p' hp'
    have hi' : i < t.table.length := by simpa [updatePair] using hi
    simp only [updatePair, List.getElem_modify] at hp'
    split_ifs at hp' with hrow
    · have hmem := List.mem_map_of_mem (f := Pair.hash) hp'
      rw [map_updateFirst Pair.hash _ (f := fun pair => { pair with key := key, value := v })
        fun _ => rfl] at hmem
      obtain ⟨q, hq, hhash⟩ := List.mem_map.mp hmem
      rw [← hhash]
      exact h.placed i hi' q hq
    · exact h.placed i hi' p' hp'
  · change t.count = _
    rw [h.count, hbefore, hafter]
    simp
  · intro p' hp'
    rw [hafter, List.mem_append, List.mem_cons] at hp'
    have hcached := h.cached
    rw [hbefore] at hcached
    obtain hp' | rfl | hp' := hp'
    · exact hcached p' (List.mem_append_left _ hp')
    · exact (hcached p (by simp)).trans (h.consistent.hash hkey).symm
    · exact hcached p' (List.mem_append_right _ (List.mem_cons_of_mem _ hp'))
  · have hdistinct := h.distinct
    rw [hbefore, List.perm_middle.pairwise_iff h.consistent.ne_symm, List.pairwise_cons] at hdistinct
    change List.Pairwise (fun p q : Pair K V => t.equals p.key q.key = false) _
    rw [hafter, List.perm_middle.pairwise_iff h.consistent.ne_symm, List.pairwise_cons]
    refine ⟨fun q hq => ?_, hdistinct.2⟩
    by_contra hne
    rw [Bool.not_eq_false] at hne
    have heq := h.consistent.trans (h.consistent.symm hkey) hne
    rw [hdistinct.1 q hq] at heq
    cases heq

end Update

section Remove

variable {t : Hashtable K V} (h : t.Wf) {key : K}

include h

theorem Wf.remove_none (hget : t.get key = none) : t.remove key = (none, t) := by
  have hl : t.lookup key = none := by
    rw [h.get_eq] at hget
    simpa using hget
  rw [remove, hl]

/-- **`remove` takes the entry under its key, and keeps the others.** -/
theorem Wf.remove_some {v : V} (hget : t.get key = some v) :
    (t.remove key).1 = some v ∧ (t.remove key).2.Wf ∧ (t.remove key).2.equals = t.equals ∧
      ∃ p, t.equals key p.key = true ∧ p.value = v ∧
        t.entries.Perm (p :: (t.remove key).2.entries) := by
  rw [h.get_eq, Option.map_eq_some_iff] at hget
  obtain ⟨p, hl, rfl⟩ := hget
  have hkey := (h.lookup_eq_some_iff.mp hl).2
  have hrow := h.toRows.row_lt (t.hash key)
  have hfind := hl
  rw [lookup, List.getD_eq_getElem?_getD, List.getElem?_eq_getElem hrow, Option.getD_some,
    List.find?_eq_some_iff_append] at hfind
  obtain ⟨-, l₁, l₂, hr, hl₁⟩ := hfind
  have herase : (t.table[t.row (t.hash key)].eraseP fun pair => t.equals key pair.key) =
      l₁ ++ l₂ := by
    rw [hr, List.eraseP_append_right _ (by simpa using hl₁), List.eraseP_cons, hkey]
    rfl
  rw [remove, hl]
  dsimp only
  set t' : Hashtable K V := { t with
    count := t.count - 1
    table := t.table.modify (t.row (t.hash key)) (·.eraseP fun pair => t.equals key pair.key) }
  have hperm : t.entries.Perm (p :: t'.entries) := by
    rw [entries, entries, flatten_modify _ hrow, flatten_split _ hrow, herase, hr]
    simp only [List.append_assoc, List.cons_append]
    refine List.Perm.trans ?_ List.perm_middle
    exact List.Perm.append_left _ List.perm_middle
  refine ⟨rfl, ?_, rfl, p, hkey, rfl, hperm⟩
  refine h.of_rows rfl rfl rfl ?_ (forall₂_modify (fun _ => .refl _) (fun r => ?_) _ _)
  · have hlength := hperm.length_eq
    rw [← h.count, List.length_cons] at hlength
    change t.count - 1 = _
    omega
  · exact List.eraseP_sublist.map _

end Remove

/-! ## Adding entries -/

theorem Rows.perm_insertFront (h : t.Rows) (pair : Pair K V) :
    (t.insertFront pair).entries.Perm (pair :: t.entries) :=
  perm_flatten_insert _ (h.row_lt _) _

theorem Rows.insertFront (h : t.Rows) (pair : Pair K V) :
    (t.insertFront pair).Rows := by
  refine ⟨by simpa [Hashtable.insertFront] using h.length, h.capacity_pos, h.capacity_le, ?_⟩
  intro i hi p hp
  have hi' : i < t.table.length := by simpa [Hashtable.insertFront] using hi
  simp only [Hashtable.insertFront, List.getElem_modify] at hp
  split_ifs at hp with hrow
  · rcases List.mem_cons.mp hp with rfl | hp
    · exact hrow
    · exact h.placed i hi' p hp
  · exact h.placed i hi' p hp

theorem Rows.foldl_insertFront (ps : List (Pair K V)) (h : t.Rows) :
    (ps.foldl Hashtable.insertFront t).Rows ∧
      (ps.foldl Hashtable.insertFront t).entries.Perm (ps ++ t.entries) ∧
      (ps.foldl Hashtable.insertFront t).hash = t.hash ∧
      (ps.foldl Hashtable.insertFront t).equals = t.equals ∧
      (ps.foldl Hashtable.insertFront t).count = t.count := by
  induction ps generalizing t with
  | nil => exact ⟨h, .refl _, rfl, rfl, rfl⟩
  | cons p ps ih =>
    obtain ⟨hr, hperm, hh, he, hc⟩ := ih (h.insertFront p)
    refine ⟨hr, hperm.trans ?_, hh, he, hc⟩
    exact ((h.perm_insertFront p).append_left ps).trans List.perm_middle

theorem rows_initHashtable (t : Hashtable K V) (c : ℕ) :
    (t.initHashtable c).Rows ∧ (t.initHashtable c).entries = [] := by
  have hcap := capacity_initHashtable t c
  refine ⟨⟨by simp [initHashtable], by omega, by omega, ?_⟩, by simp [entries, initHashtable]⟩
  intro i hi p hp
  simp [initHashtable] at hp

theorem Wf.of_perm {t t' : Hashtable K V} (h : t.Wf) (hrows : t'.Rows)
    (hperm : t'.entries.Perm t.entries) (hhash : t'.hash = t.hash)
    (hequals : t'.equals = t.equals) (hcount : t'.count = t.count) : t'.Wf := by
  refine ⟨hrows, by rw [hhash, hequals]; exact h.consistent, ?_, fun p hp => ?_, ?_⟩
  · rw [hcount, h.count, hperm.length_eq]
  · rw [hhash]
    exact h.cached p (hperm.subset hp)
  · rw [hequals]
    exact (hperm.pairwise_iff h.consistent.ne_symm).mpr h.distinct

theorem Wf.rehash (h : t.Wf) :
    t.rehash.Wf ∧ t.rehash.entries.Perm t.entries ∧ t.rehash.equals = t.equals := by
  unfold Hashtable.rehash
  split_ifs
  · exact ⟨h, .refl _, rfl⟩
  · obtain ⟨hrows, hnil⟩ := rows_initHashtable t (t.capacity * 2)
    obtain ⟨hr, hperm, hh, he, hc⟩ := hrows.foldl_insertFront t.table.flatten
    rw [hnil, List.append_nil] at hperm
    exact ⟨h.of_perm hr hperm hh he hc, hperm, he⟩

theorem wf_create {hash : K → U32} {equals : K → K → Bool} (h : Consistent hash equals)
    (c : ℕ) : (create hash equals c : Hashtable K V).Wf ∧
      (create hash equals c : Hashtable K V).entries = [] := by
  obtain ⟨hrows, hnil⟩ := rows_initHashtable (⟨0, 0, [], hash, equals⟩ : Hashtable K V) c
  exact ⟨⟨hrows, h, by rw [create, hnil]; rfl, by simp [create, hnil], by simp [create, hnil]⟩, hnil⟩

/-- **A pair whose key is not found is put at the front of its row.** -/
theorem Wf.insert_new (h : t.Wf) (hl : t.lookup key = none) (v : V) :
    Wf { t.insertFront ⟨key, v, t.hash key⟩ with count := t.count + 1 } ∧
      (t.insertFront ⟨key, v, t.hash key⟩).entries.Perm (⟨key, v, t.hash key⟩ :: t.entries) := by
  have habsent := h.get_eq_none_iff.mp (by rw [h.get_eq, hl]; rfl)
  have hperm := h.toRows.perm_insertFront ⟨key, v, t.hash key⟩
  obtain ⟨h₁, h₂, h₃, h₄⟩ := h.toRows.insertFront ⟨key, v, t.hash key⟩
  refine ⟨⟨⟨h₁, h₂, h₃, h₄⟩, h.consistent, ?_, fun p hp => ?_, ?_⟩, hperm⟩
  · exact (congrArg (· + 1) h.count).trans hperm.length_eq.symm
  · rcases List.mem_cons.mp (hperm.subset hp) with rfl | hp
    · rfl
    · exact h.cached p hp
  · exact (hperm.pairwise_iff h.consistent.ne_symm).mpr
      (List.pairwise_cons.mpr ⟨fun p hp => habsent p hp, h.distinct⟩)

/-- **`put` of a new key adds one entry.** -/
theorem Wf.put_new (h : t.Wf) (hget : t.get key = none) (v : V) :
    (t.put key v).2.Wf ∧ (t.put key v).2.entries.Perm (⟨key, v, t.hash key⟩ :: t.entries) ∧
      (t.put key v).2.equals = t.equals := by
  have hl : t.lookup key = none := by
    rw [h.get_eq] at hget
    simpa using hget
  set t₁ : Hashtable K V :=
    { t.insertFront ⟨key, v, t.hash key⟩ with count := t.count + 1 } with ht₁
  obtain ⟨hwf, hperm⟩ : t₁.Wf ∧ t₁.entries.Perm (⟨key, v, t.hash key⟩ :: t.entries) :=
    h.insert_new hl v
  have hput : (t.put key v).2 = if 4 * t₁.count ≥ 3 * t₁.capacity then t₁.rehash else t₁ := by
    simp only [put, hl]
    rfl
  rw [hput]
  split_ifs
  · obtain ⟨hr, hp, he⟩ := hwf.rehash
    exact ⟨hr, hp.trans hperm, he⟩
  · exact ⟨hwf, hperm, rfl⟩

theorem Wf.get_put_self (h : t.Wf) (hget : t.get key = none) (v : V) :
    (t.put key v).2.get key = some v := by
  obtain ⟨hwf, hperm, heq⟩ := h.put_new hget v
  refine hwf.get_eq_some_iff.mpr ⟨_, hperm.symm.subset List.mem_cons_self, ?_, rfl⟩
  rw [heq]
  exact h.consistent.refl key

/-! ## Enumeration -/

section Enumerate

variable (f : σ → V → σ × Option V × Bool)

theorem visitRow_done (l : List (Pair K V)) (s : Enum σ) (h : s.done = true) :
    visitRow f l s = (l, s) := by
  cases l <;> simp [visitRow, h]

theorem visitRow_append (l₁ l₂ : List (Pair K V)) (s : Enum σ) :
    visitRow f (l₁ ++ l₂) s = ((visitRow f l₁ s).1 ++ (visitRow f l₂ (visitRow f l₁ s).2).1,
      (visitRow f l₂ (visitRow f l₁ s).2).2) := by
  induction l₁ generalizing s with
  | nil => simp [visitRow]
  | cons p l₁ ih =>
    simp only [List.cons_append, visitRow]
    cases hd : s.done with
    | true => simp [visitRow_done f l₂ s hd]
    | false =>
      simp only [Bool.false_eq_true, if_false]
      cases (f s.state p.value).2.1 <;> simp [ih]

theorem flatten_visitRows (rows : List (List (Pair K V))) (s : Enum σ) :
    ((visitRows f rows s).1.flatten, (visitRows f rows s).2) = visitRow f rows.flatten s := by
  induction rows generalizing s with
  | nil => simp [visitRows, visitRow]
  | cons r rows ih =>
    rw [visitRows, List.flatten_cons, List.flatten_cons, visitRow_append, ← ih]

theorem length_visitRow (l : List (Pair K V)) (s : Enum σ) :
    (visitRow f l s).1.length ≤ l.length ∧
      (visitRow f l s).2.count = s.count - (l.length - (visitRow f l s).1.length) := by
  induction l generalizing s with
  | nil => simp [visitRow]
  | cons p l ih =>
    rw [visitRow]
    cases s.done with
    | true => simp
    | false =>
      simp only [Bool.false_eq_true, if_false]
      cases (f s.state p.value).2.1 with
      | some v =>
        have := ih ⟨(f s.state p.value).1, s.count, (f s.state p.value).2.2⟩
        simp only [List.length_cons] at this ⊢
        omega
      | none =>
        have := ih ⟨(f s.state p.value).1, s.count - 1, (f s.state p.value).2.2⟩
        simp only [List.length_cons] at this ⊢
        omega

theorem sublist_visitRow (l : List (Pair K V)) (s : Enum σ) :
    ((visitRow f l s).1.map sig).Sublist (l.map sig) := by
  induction l generalizing s with
  | nil => simp [visitRow]
  | cons p l ih =>
    rw [visitRow]
    cases s.done with
    | true => simp
    | false =>
      simp only [Bool.false_eq_true, if_false]
      cases (f s.state p.value).2.1 with
      | some v => exact (ih _).cons_cons _
      | none => exact (ih _).cons _

theorem forall₂_visitRows (rows : List (List (Pair K V))) (s : Enum σ) :
    List.Forall₂ (fun r' r => (r'.map sig).Sublist (r.map sig)) (visitRows f rows s).1 rows := by
  induction rows generalizing s with
  | nil => exact .nil
  | cons r rows ih => exact .cons (sublist_visitRow f r s) (ih _)

/-- **A loop over the table is a loop over its entries.** -/
theorem entries_enumerate (t : Hashtable K V) (s : σ) :
    (t.enumerate f s).2.entries = (visitRow f t.entries ⟨s, t.count, false⟩).1 ∧
      (t.enumerate f s).1 = (visitRow f t.entries ⟨s, t.count, false⟩).2.state := by
  have h := flatten_visitRows f t.table ⟨s, t.count, false⟩
  exact ⟨congrArg Prod.fst h, congrArg (fun r => r.2.state) h⟩

theorem Wf.enumerate {t : Hashtable K V} (h : t.Wf) (s : σ) : (t.enumerate f s).2.Wf := by
  refine h.of_rows rfl rfl rfl ?_ (forall₂_visitRows f t.table _)
  have hcount : (t.enumerate f s).2.count =
      (visitRow f t.entries ⟨s, t.count, false⟩).2.count :=
    congrArg (fun r => r.2.count) (flatten_visitRows f t.table ⟨s, t.count, false⟩)
  obtain ⟨hle, hlen⟩ := length_visitRow f t.entries ⟨s, t.count, false⟩
  rw [hcount, (entries_enumerate f t s).1, hlen]
  have := h.count
  change t.count - _ = _
  omega

end Enumerate

/-! ## Tables of values that are their own keys -/

/-- The table has the values of `s`, each under itself. -/
structure Index (t : Hashtable K K) (s : Multiset K) : Prop where
  wf : t.Wf
  own : ∀ p ∈ t.entries, p.key = p.value
  values : (t.entries.map Pair.value : Multiset K) = s

section Index

variable {t : Hashtable K K} {s : Multiset K} {key v : K}

theorem index_create {hash : K → U32} {equals : K → K → Bool} (h : Consistent hash equals) (c : ℕ) :
    (create hash equals c).Index 0 := by
  obtain ⟨hwf, hnil⟩ := wf_create h c
  exact ⟨hwf, by simp [hnil], by simp [hnil]⟩

theorem Index.mem_iff (h : t.Index s) : v ∈ s ↔ ∃ p ∈ t.entries, p.value = v := by
  rw [← h.values, Multiset.mem_coe, List.mem_map]

/-- **`get` finds the value equal to its key.** -/
theorem Index.get_eq_some_iff (h : t.Index s) :
    t.get key = some v ↔ v ∈ s ∧ t.equals key v = true := by
  rw [h.wf.get_eq_some_iff, h.mem_iff]
  constructor
  · rintro ⟨p, hp, hkey, rfl⟩
    rw [h.own p hp] at hkey
    exact ⟨⟨p, hp, rfl⟩, hkey⟩
  · rintro ⟨⟨p, hp, rfl⟩, hkey⟩
    rw [← h.own p hp] at hkey
    exact ⟨p, hp, hkey, rfl⟩

theorem Index.get_eq_none_iff (h : t.Index s) :
    t.get key = none ↔ ∀ v ∈ s, t.equals key v = false := by
  rw [Option.eq_none_iff_forall_ne_some]
  refine forall_congr' fun v => ?_
  rw [Ne, h.get_eq_some_iff, not_and, Bool.not_eq_true]

theorem Index.eq_of_equals (h : t.Index s) {v' : K} (hv : v ∈ s) (hv' : v' ∈ s)
    (heq : t.equals v v' = true) : v = v' := by
  obtain ⟨p, hp, rfl⟩ := h.mem_iff.mp hv
  obtain ⟨p', hp', rfl⟩ := h.mem_iff.mp hv'
  rw [← h.own p hp, ← h.own p' hp'] at heq
  rw [h.wf.eq_of_equals hp hp' heq]

theorem Index.nodup (h : t.Index s) : s.Nodup := by
  rw [← h.values, Multiset.coe_nodup, List.Nodup, List.pairwise_map]
  refine h.wf.distinct.imp_of_mem fun {p q} hp hq hne heq => ?_
  rw [h.own p hp, h.own q hq, heq, h.wf.consistent.refl] at hne
  cases hne

theorem Index.put (h : t.Index s) (hget : t.get v = none) :
    (t.put v v).2.Index (v ::ₘ s) ∧ (t.put v v).2.equals = t.equals := by
  obtain ⟨hwf, hperm, hequals⟩ := h.wf.put_new hget v
  refine ⟨⟨hwf, fun p hp => ?_, ?_⟩, hequals⟩
  · obtain rfl | hp := List.mem_cons.mp (hperm.subset hp)
    · rfl
    · exact h.own p hp
  · rw [Multiset.coe_eq_coe.mpr (hperm.map _), ← h.values]
    rfl

/-- Values that are put in again under themselves change nothing, but the table may grow. -/
theorem Index.put_again (h : t.Index s) (hequals : ∀ a b, t.equals a b = true ↔ a = b)
    (hget : t.get v = some v) : (t.put v v).2.Index s ∧ (t.put v v).2.equals = t.equals := by
  obtain ⟨p, hp, hvalue⟩ : ∃ p, t.lookup v = some p ∧ p.value = v := by
    rw [h.wf.get_eq] at hget
    exact Option.map_eq_some_iff.mp hget
  have hsame : (t.updatePair v fun pair => { pair with key := v, value := v }) = t := by
    have hrow : ∀ l : List (Pair K K), (∀ q ∈ l, q ∈ t.entries) →
        updateFirst (fun pair => t.equals v pair.key)
          (fun pair => { pair with key := v, value := v }) l = l := by
      intro l hl
      induction l with
      | nil => rfl
      | cons q l ih =>
        rw [updateFirst]
        split_ifs with hq
        · have hkey : v = q.key := (hequals _ _).mp hq
          have hown := h.own q (hl q List.mem_cons_self)
          rw [List.cons.injEq]
          refine ⟨?_, rfl⟩
          cases q
          dsimp only at hkey hown ⊢
          rw [← hown, ← hkey]
        · rw [ih fun q hq => hl q (List.mem_cons_of_mem _ hq)]
    rw [updatePair]
    have htable : t.table.modify (t.row (t.hash v)) (updateFirst (fun pair => t.equals v pair.key)
        fun pair => { pair with key := v, value := v }) = t.table := by
      apply List.ext_getElem
      · rw [List.length_modify]
      · intro i hi hi'
        rw [List.getElem_modify]
        split_ifs
        · exact hrow _ fun q hq => List.mem_flatten.mpr ⟨_, List.getElem_mem hi', hq⟩
        · rfl
    rw [htable]
  have hput : (t.put v v).2 = if 4 * t.count ≥ 3 * t.capacity then t.rehash else t := by
    simp only [Hashtable.put, hp]
    rw [hsame]
  rw [hput]
  split_ifs
  · obtain ⟨hwf, hperm, heq⟩ := h.wf.rehash
    refine ⟨⟨hwf, fun q hq => h.own q (hperm.subset hq), ?_⟩, heq⟩
    rw [← h.values]
    exact Multiset.coe_eq_coe.mpr (hperm.map _)
  · exact ⟨h, rfl⟩

theorem Index.remove (h : t.Index s) (hget : t.get key = some v) :
    (t.remove key).1 = some v ∧ (t.remove key).2.equals = t.equals ∧
      ∃ s', s = v ::ₘ s' ∧ (t.remove key).2.Index s' := by
  obtain ⟨hfst, hwf, hequals, p, -, rfl, hperm⟩ := h.wf.remove_some hget
  refine ⟨hfst, hequals, _, ?_, hwf, fun q hq => ?_, rfl⟩
  · rw [← h.values, Multiset.coe_eq_coe.mpr (hperm.map _)]
    rfl
  · exact h.own q (hperm.symm.subset (List.mem_cons_of_mem _ hq))

theorem Index.get_removed {t' : Hashtable K K} (h : t.Index (v ::ₘ s)) (h' : t'.Index s)
    (hequals : t'.equals = t.equals) : t'.get v = none := by
  refine h'.get_eq_none_iff.mpr fun v' hv' => ?_
  rw [hequals]
  by_contra heq
  rw [Bool.not_eq_false] at heq
  have hsame := h.eq_of_equals (Multiset.mem_cons_self v s) (Multiset.mem_cons_of_mem hv') heq
  subst hsame
  exact (Multiset.nodup_cons.mp h.nodup).1 hv'

end Index

end Hashtable

end StrongSwan
