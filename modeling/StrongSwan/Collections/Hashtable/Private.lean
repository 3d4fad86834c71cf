import StrongSwan.Collections.Hashtable
import Mathlib.Data.Nat.Size

/-!
# Hash tables with counters of 32 bits, and their enumerators

`PrivateHashtable` is the table as it is in memory: the count, the capacity and the mask are `u_int`s, and
the number of pairs is compared with the load as a `float`. An enumerator keeps a row, the position of its
current pair in this row and that of the pair before it.

* `put`, `get`, `remove`; `enumerate`, `removeAt`; `loop`: a loop over the pairs that removes some of them.
* `exact`: the table with an unbounded count; `Sound`: what holds of a table in use.
* **`getNearestPowerof2_eq`**: capacities are powers of two.
* **`Sound.insertFront`**, **`Sound.replace`**, **`Sound.eraseP`**, **`Sound.rehash`**: they stay sound.
-/

namespace StrongSwan

/-- `private_hashtable_t`; the load factor is `3 / 4`. -/
structure PrivateHashtable (K V : Type) where
  count : U32
  capacity : U32
  mask : U32
  table : List (List (Pair K V))
  hash : K → U32
  equals : K → K → Bool

/-- An integer as a `float`: the nearest one with 24 significant bits, the even one of two. -/
def toFloat (n : ℕ) : ℕ :=
  let ulp := 2 ^ (Nat.size n - 24)
  let low := n / ulp
  if 2 * (n % ulp) > ulp ∨ 2 * (n % ulp) = ulp ∧ low % 2 = 1 then (low + 1) * ulp else low * ulp

namespace PrivateHashtable

variable {K V : Type}

/-- The pairs, in the order of enumeration. -/
def entries (this : PrivateHashtable K V) : List (Pair K V) := this.table.flatten

/-- Init hash table parameters -/
def initHashtable (this : PrivateHashtable K V) (capacity : U32) : PrivateHashtable K V :=
  let capacity := if capacity < BitVec.ofNat 32 MAX_CAPACITY then capacity
    else BitVec.ofNat 32 MAX_CAPACITY
  let capacity := if 1 > capacity then 1 else capacity
  let capacity := Hashtable.getNearestPowerof2 capacity
  { this with
    capacity := capacity
    mask := capacity - 1
    table := List.replicate capacity.toNat [] }

def create (hash : K → U32) (equals : K → K → Bool) (capacity : U32) : PrivateHashtable K V :=
  initHashtable ⟨0, 0, 0, [], hash, equals⟩ capacity

def row (this : PrivateHashtable K V) (hash : U32) : ℕ := (hash &&& this.mask).toNat

def insertFront (this : PrivateHashtable K V) (pair : Pair K V) : PrivateHashtable K V :=
  { this with table := this.table.modify (this.row pair.hash) (pair :: ·) }

/-- Double the size of the hash table and rehash all the elements. -/
def rehash (this : PrivateHashtable K V) : PrivateHashtable K V :=
  if this.capacity ≥ BitVec.ofNat 32 MAX_CAPACITY then this
  else
    let oldTable := this.table
    oldTable.flatten.foldl insertFront (this.initHashtable (this.capacity <<< 1))

/-- The pair under `key` in its row -/
def lookup (this : PrivateHashtable K V) (key : K) : Option (Pair K V) :=
  (this.table.getD (this.row (this.hash key)) []).find? fun pair => this.equals key pair.key

/-- Whether the table is too full -/
def overloaded (this : PrivateHashtable K V) : Bool :=
  decide (4 * toFloat this.count.toNat ≥ 3 * this.capacity.toNat)

/-- Replace key and value of the pair under `key` in its row. -/
def replace (this : PrivateHashtable K V) (key : K) (value : V) : PrivateHashtable K V :=
  { this with
    table := this.table.modify (this.row (this.hash key))
      (Hashtable.updateFirst (fun pair => this.equals key pair.key)
        fun pair => { pair with key := key, value := value }) }

/-- Store a value, returning the replaced one. -/
def put (this : PrivateHashtable K V) (key : K) (value : V) : Option V × PrivateHashtable K V :=
  let found := this.lookup key
  let this := match found with
    | some _ => this.replace key value
    | none => { this.insertFront ⟨key, value, this.hash key⟩ with count := this.count + 1 }
  (found.map Pair.value, if this.overloaded then this.rehash else this)

def get (this : PrivateHashtable K V) (key : K) : Option V :=
  if this.count = 0 then none else (this.lookup key).map Pair.value

/-- Take the pair under `key` out of its row. -/
def eraseKey (this : PrivateHashtable K V) (key : K) : PrivateHashtable K V :=
  { this with
    count := this.count - 1
    table := this.table.modify (this.row (this.hash key))
      (·.eraseP fun pair => this.equals key pair.key) }

/-- Remove the pair under `key`, returning its value. -/
def remove (this : PrivateHashtable K V) (key : K) : Option V × PrivateHashtable K V :=
  match this.lookup key with
  | some pair => (some pair.value, this.eraseKey key)
  | none => (none, this)

/-! ## Enumerators -/

/-- `private_enumerator_t`; pairs are given by their positions in the row. -/
structure Enumerator where
  row : ℕ
  count : U32
  current : Option ℕ
  prev : Option ℕ

def createEnumerator (this : PrivateHashtable K V) : Enumerator := ⟨0, this.count, none, none⟩

/-- The position behind the current pair, or the first one of the row -/
def Enumerator.following (e : Enumerator) : ℕ :=
  match e.current with
  | some i => i + 1
  | none => 0

/-- `enumerate`: the next pair, and the enumerator after it. -/
def enumerate (this : PrivateHashtable K V) (e : Enumerator) : Option (Pair K V × Enumerator) :=
  if e.count ≠ 0 ∧ e.row < this.capacity.toNat then
    match (this.table.getD e.row [])[e.following]? with
    | some pair => some (pair, ⟨e.row, e.count - 1, some e.following, e.current⟩)
    | none => enumerate this ⟨e.row + 1, e.count, none, e.current⟩
  else none
termination_by this.capacity.toNat - e.row

/-- Remove the current pair. -/
def removeAt (this : PrivateHashtable K V) (e : Enumerator) : PrivateHashtable K V × Enumerator :=
  match e.current with
  | none => (this, e)
  | some current =>
    let front := match e.prev with
      | some prev => fun r : List (Pair K V) => r.take (prev + 1)
      | none => fun _ => []
    ({ this with
        count := this.count - 1
        table := this.table.modify e.row fun r => front r ++ r.drop (current + 1) },
      { e with current := e.prev })

/-- A loop over the pairs, with whether to remove each: the keys and values it saw, whether there were no
more, and the table after it. -/
def loop (this : PrivateHashtable K V) (e : Enumerator) :
    List Bool → List (K × V) × Bool × PrivateHashtable K V
  | [] => ([], false, this)
  | remove :: removes =>
    match this.enumerate e with
    | none => ([], true, this)
    | some (pair, e) =>
      let (this, e) := if remove then this.removeAt e else (this, e)
      let (visited, exhausted, this) := loop this e removes
      ((pair.key, pair.value) :: visited, exhausted, this)

/-! ## Capacities -/

/-- The bits of `y` are those of `x` and of the places up to `n` to the right of them. -/
def Smeared (x y : U32) (n : ℕ) : Prop := ∀ i, y.getLsbD i = true ↔ ∃ d < n, x.getLsbD (i + d) = true

theorem Smeared.double {x y : U32} {n : ℕ} (h : Smeared x y n) : Smeared x (y ||| y >>> n) (2 * n) := by
  intro i
  rw [BitVec.getLsbD_or, BitVec.getLsbD_ushiftRight, Bool.or_eq_true, h i, h (n + i)]
  constructor
  · rintro (⟨d, hd, hbit⟩ | ⟨d, hd, hbit⟩)
    · exact ⟨d, by omega, hbit⟩
    · exact ⟨n + d, by omega, by rwa [← Nat.add_assoc, Nat.add_comm i n]⟩
  · rintro ⟨d, hd, hbit⟩
    by_cases hdn : d < n
    · exact .inl ⟨d, hdn, hbit⟩
    · exact .inr ⟨d - n, by omega, by rwa [show n + i + (d - n) = i + d by omega]⟩

theorem Smeared.toNat_eq {x y : U32} (h : Smeared x y 32) : y.toNat = 2 ^ Nat.size x.toNat - 1 := by
  apply Nat.eq_of_testBit_eq
  intro i
  rw [Nat.testBit_two_pow_sub_one, BitVec.testBit_toNat, Bool.eq_iff_iff, h i, decide_eq_true_eq,
    Nat.lt_size]
  constructor
  · rintro ⟨d, -, hbit⟩
    have hge := Nat.ge_two_pow_of_testBit hbit
    exact (Nat.pow_le_pow_right (by norm_num) (Nat.le_add_right i d)).trans hge
  · intro hle
    obtain ⟨j, hj, hbit⟩ := Nat.exists_ge_and_testBit_of_ge_two_pow hle
    have hlt : j < 32 := by
      by_contra hge
      have hpow := Nat.ge_two_pow_of_testBit hbit
      have hmono : 2 ^ 32 ≤ 2 ^ j := Nat.pow_le_pow_right (by norm_num) (not_lt.mp hge)
      exact absurd x.isLt (by omega)
    exact ⟨j - i, by omega, by rw [BitVec.getLsbD, Nat.add_sub_cancel' hj]; exact hbit⟩

/-- **The next power of two** -/
theorem getNearestPowerof2_eq {n : U32} (h₁ : 1 ≤ n.toNat) (h₂ : n.toNat ≤ 2 ^ 30) :
    ∃ k ≤ 30, (Hashtable.getNearestPowerof2 n).toNat = 2 ^ k := by
  have hone : Smeared (n - 1) (n - 1) 1 := fun i => by simp
  have hsmeared := hone.double.double.double.double.double
  have hvalue := hsmeared.toNat_eq
  have hsize : Nat.size (n - 1).toNat ≤ 30 := Nat.size_le.mpr (by bv_omega)
  refine ⟨_, hsize, ?_⟩
  have hpow : 1 ≤ 2 ^ Nat.size (n - 1).toNat := Nat.one_le_two_pow
  have hle : 2 ^ Nat.size (n - 1).toNat ≤ 2 ^ 30 := Nat.pow_le_pow_right (by norm_num) hsize
  rw [Hashtable.getNearestPowerof2, BitVec.toNat_add, hvalue, show (1 : U32).toNat = 1 from rfl, Nat.sub_add_cancel hpow]
  exact Nat.mod_eq_of_lt (by omega)

/-! ## Tables in use -/

/-- The table with its pairs counted -/
def exact (this : PrivateHashtable K V) (n : ℕ) : Hashtable K V :=
  { count := n
    capacity := this.capacity.toNat
    table := this.table
    hash := this.hash
    equals := this.equals }

/-- A power of two and its mask -/
structure Shape (this : PrivateHashtable K V) : Prop where
  power : ∃ k ≤ 30, this.capacity.toNat = 2 ^ k
  mask : this.mask = this.capacity - 1

/-- A table in use -/
structure Sound (this : PrivateHashtable K V) : Prop extends Shape this where
  wf : (this.exact this.entries.length).Wf
  count : this.count = BitVec.ofNat 32 this.entries.length

theorem toNat_bounded (capacity : U32) :
    (if 1 > (if capacity < BitVec.ofNat 32 MAX_CAPACITY then capacity else BitVec.ofNat 32 MAX_CAPACITY)
      then 1
      else if capacity < BitVec.ofNat 32 MAX_CAPACITY then capacity
      else BitVec.ofNat 32 MAX_CAPACITY).toNat = max 1 (min capacity.toNat MAX_CAPACITY) := by
  have hmax : (BitVec.ofNat 32 MAX_CAPACITY).toNat = MAX_CAPACITY := rfl
  have hvalue : MAX_CAPACITY = 2 ^ 30 := rfl
  have hone : (1 : U32).toNat = 1 := rfl
  by_cases hlt : capacity < BitVec.ofNat 32 MAX_CAPACITY
  · rw [if_pos hlt]
    rw [BitVec.lt_def] at hlt
    split_ifs with hzero <;> rw [gt_iff_lt, BitVec.lt_def] at hzero <;> omega
  · rw [if_neg hlt, if_neg (by decide), hmax]
    rw [BitVec.lt_def] at hlt
    omega

theorem shape_initHashtable (this : PrivateHashtable K V) (capacity : U32) :
    (this.initHashtable capacity).Shape := by
  have hbounded := toNat_bounded capacity
  have hvalue : MAX_CAPACITY = 2 ^ 30 := rfl
  exact ⟨getNearestPowerof2_eq (by omega) (by omega), rfl⟩

theorem initHashtable_exact (this : PrivateHashtable K V) (capacity : U32) (n : ℕ) :
    (this.initHashtable capacity).exact n = (this.exact n).initHashtable capacity.toNat := by
  rw [Hashtable.initHashtable, ← toNat_bounded, BitVec.ofNat_toNat, BitVec.setWidth_eq]
  rfl

section Shape

variable {this : PrivateHashtable K V} (h : this.Shape) (n : ℕ)

include h

theorem Shape.row_exact (hash : U32) : (this.exact n).row hash = this.row hash := by
  obtain ⟨k, hk, hcap⟩ := h.power
  have hpos : 1 ≤ this.capacity.toNat := hcap ▸ Nat.one_le_two_pow
  have hmask : BitVec.ofNat 32 (this.capacity.toNat - 1) = this.mask := by
    rw [h.mask]
    bv_omega
  rw [row, Hashtable.row, ← hmask]
  rfl

theorem Shape.lookup_exact (key : K) : (this.exact n).lookup key = this.lookup key := by
  rw [lookup, Hashtable.lookup, h.row_exact]
  rfl

theorem Shape.insertFront_exact (pair : Pair K V) :
    (this.insertFront pair).exact n = (this.exact n).insertFront pair := by
  rw [insertFront, Hashtable.insertFront, h.row_exact]
  rfl

theorem Shape.insertFront (pair : Pair K V) : (this.insertFront pair).Shape := ⟨h.power, h.mask⟩

theorem Shape.foldl_insertFront (ps : List (Pair K V)) :
    (ps.foldl PrivateHashtable.insertFront this).exact n =
        ps.foldl Hashtable.insertFront (this.exact n) ∧
      (ps.foldl PrivateHashtable.insertFront this).Shape := by
  induction ps generalizing this with
  | nil => exact ⟨rfl, h⟩
  | cons p ps ih =>
    rw [List.foldl_cons, List.foldl_cons, ← h.insertFront_exact]
    exact ih (h.insertFront p)

theorem Shape.rehash : this.rehash.exact n = (this.exact n).rehash ∧ this.rehash.Shape := by
  have hmax : (BitVec.ofNat 32 MAX_CAPACITY).toNat = MAX_CAPACITY := rfl
  have hvalue : MAX_CAPACITY = 2 ^ 30 := rfl
  rw [PrivateHashtable.rehash, Hashtable.rehash]
  by_cases hfull : this.capacity ≥ BitVec.ofNat 32 MAX_CAPACITY
  · rw [if_pos hfull, if_pos (by rw [ge_iff_le, BitVec.le_def, hmax] at hfull; exact hfull)]
    exact ⟨rfl, h⟩
  · have hlt : this.capacity.toNat < MAX_CAPACITY := by
      rw [ge_iff_le, BitVec.le_def, hmax] at hfull
      omega
    have hdouble : (this.capacity <<< 1).toNat = this.capacity.toNat * 2 := by
      rw [BitVec.toNat_shiftLeft, Nat.shiftLeft_eq]
      omega
    have hmoved := (shape_initHashtable this (this.capacity <<< 1)).foldl_insertFront n
      this.table.flatten
    rw [initHashtable_exact, hdouble] at hmoved
    rw [if_neg hfull, if_neg (by exact not_le.mpr hlt)]
    exact hmoved

end Shape

/-! ## Changes -/

theorem fields_foldl_insertFront (ps : List (Pair K V)) (this : PrivateHashtable K V) :
    (ps.foldl insertFront this).count = this.count ∧ (ps.foldl insertFront this).hash = this.hash ∧
      (ps.foldl insertFront this).equals = this.equals := by
  induction ps generalizing this with
  | nil => exact ⟨rfl, rfl, rfl⟩
  | cons p ps ih => exact ih (this.insertFront p)

theorem fields_rehash (this : PrivateHashtable K V) :
    this.rehash.count = this.count ∧ this.rehash.hash = this.hash ∧
      this.rehash.equals = this.equals := by
  rw [rehash]
  split_ifs
  · exact ⟨rfl, rfl, rfl⟩
  · exact fields_foldl_insertFront _ _

section Sound

variable {this : PrivateHashtable K V} (h : this.Sound) {key : K}

include h

theorem Sound.count_eq (hlt : this.entries.length < 2 ^ 32) :
    this.count.toNat = this.entries.length := by
  rw [h.count, BitVec.toNat_ofNat, Nat.mod_eq_of_lt hlt]

theorem Sound.lookup_eq_some_iff {p : Pair K V} :
    this.lookup key = some p ↔ p ∈ this.entries ∧ this.equals key p.key = true := by
  rw [← h.toShape.lookup_exact this.entries.length, h.wf.lookup_eq_some_iff]
  rfl

/-- **Rehashing keeps the pairs.** -/
theorem Sound.rehash : this.rehash.Sound ∧ this.rehash.entries.Perm this.entries ∧
    this.rehash.hash = this.hash ∧ this.rehash.equals = this.equals := by
  obtain ⟨hexact, hshape⟩ := h.toShape.rehash this.entries.length
  obtain ⟨hcount, hhash, hequals⟩ := fields_rehash this
  obtain ⟨hwf, hperm, -⟩ := h.wf.rehash
  rw [← hexact] at hwf hperm
  have hperm : this.rehash.entries.Perm this.entries := hperm
  refine ⟨⟨hshape, ?_, ?_⟩, hperm, hhash, hequals⟩
  · rw [hperm.length_eq]
    exact hwf
  · rw [hcount, hperm.length_eq]
    exact h.count

/-- **A new pair is put at the front of its row.** -/
theorem Sound.insert (hl : this.lookup key = none) (value : V) :
    Sound { this.insertFront ⟨key, value, this.hash key⟩ with count := this.count + 1 } ∧
      (this.insertFront ⟨key, value, this.hash key⟩).entries.Perm
        (⟨key, value, this.hash key⟩ :: this.entries) := by
  rw [← h.toShape.lookup_exact this.entries.length] at hl
  obtain ⟨hwf, hperm⟩ := h.wf.insert_new hl value
  rw [show (this.exact this.entries.length).hash = this.hash from rfl,
    ← h.toShape.insertFront_exact] at hwf hperm
  have hperm : (this.insertFront ⟨key, value, this.hash key⟩).entries.Perm
    (⟨key, value, this.hash key⟩ :: this.entries) := hperm
  have hlength := hperm.length_eq
  rw [List.length_cons] at hlength
  refine ⟨⟨⟨h.power, h.mask⟩, ?_, ?_⟩, hperm⟩
  · change Hashtable.Wf (exact _ (this.insertFront ⟨key, value, this.hash key⟩).entries.length)
    rw [hlength]
    exact hwf
  · change this.count + 1 =
      BitVec.ofNat 32 (this.insertFront ⟨key, value, this.hash key⟩).entries.length
    rw [hlength, h.count, BitVec.ofNat_add]
    rfl

/-- **A pair whose key is equal gets another key and value.** -/
theorem Sound.replace {p : Pair K V} (hl : this.lookup key = some p) (value : V) :
    (this.replace key value).Sound ∧ ∃ l₁ l₂, this.entries = l₁ ++ p :: l₂ ∧
      (this.replace key value).entries = l₁ ++ { p with key := key, value := value } :: l₂ := by
  rw [← h.toShape.lookup_exact this.entries.length] at hl
  obtain ⟨hwf, l₁, l₂, hbefore, hafter⟩ := h.wf.updatePair_key hl value
  have hexact : (this.exact this.entries.length).updatePair key
      (fun pair => { pair with key := key, value := value }) =
        (this.replace key value).exact this.entries.length := by
    rw [Hashtable.updatePair, h.toShape.row_exact]
    rfl
  rw [hexact] at hwf hafter
  have hbefore : this.entries = l₁ ++ p :: l₂ := hbefore
  have hafter : (this.replace key value).entries =
    l₁ ++ { p with key := key, value := value } :: l₂ := hafter
  have hlength : (this.replace key value).entries.length = this.entries.length := by
    rw [hbefore, hafter]
    simp
  refine ⟨⟨⟨h.power, h.mask⟩, ?_, ?_⟩, l₁, l₂, hbefore, hafter⟩
  · rw [hlength]
    exact hwf
  · rw [hlength]
    exact h.count

/-- **A pair is taken out of its row.** -/
theorem Sound.eraseKey {p : Pair K V} (hl : this.lookup key = some p) :
    (this.eraseKey key).Sound ∧ this.entries.Perm (p :: (this.eraseKey key).entries) := by
  rw [← h.toShape.lookup_exact this.entries.length] at hl
  have hget : (this.exact this.entries.length).get key = some p.value := by
    rw [h.wf.get_eq, hl]
    rfl
  obtain ⟨-, hwf, -, p', hkey', -, hperm⟩ := h.wf.remove_some hget
  have hp := h.wf.lookup_eq_some_iff.mp hl
  have hp' : p' = p := h.wf.eq_of_equals (hperm.symm.subset List.mem_cons_self) hp.1
    (h.wf.consistent.trans (h.wf.consistent.symm hkey') hp.2)
  have hexact : ((this.exact this.entries.length).remove key).2 =
      (this.eraseKey key).exact (this.entries.length - 1) := by
    rw [Hashtable.remove, hl]
    dsimp only
    rw [h.toShape.row_exact]
    rfl
  rw [hexact] at hwf hperm
  rw [hp'] at hperm
  have hperm : this.entries.Perm (p :: (this.eraseKey key).entries) := hperm
  have hlength := hperm.length_eq
  rw [List.length_cons] at hlength
  rw [hlength, Nat.add_sub_cancel] at hwf
  refine ⟨⟨⟨h.power, h.mask⟩, hwf, ?_⟩, hperm⟩
  change this.count - 1 = _
  rw [h.count, hlength, BitVec.ofNat_add]
  exact BitVec.add_sub_cancel ..

end Sound

end PrivateHashtable

end StrongSwan
