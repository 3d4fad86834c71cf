import StrongSwan.Collections.Hashtable.Enumerator
import StrongSwan.Lib.KeyMap

/-!
# Hash tables as finite maps

* `Refines`: a table has the entries of a map whose keys are the classes of equal keys.
* **`Refines.put`**, **`Refines.get`**, **`Refines.remove`**, **`Refines.loop`**: the operations are those
  of the map.
* `Correct`: a run answers as the map does, with the count and capacity it should have.
* **`correct_iff_fits`**: a run is correct exactly if there are never more keys than can be counted.
-/

namespace StrongSwan

def Pair.entry {K V : Type} (p : Pair K V) : K × V := (p.key, p.value)

/-- Keys that are equal -/
def Hashtable.Consistent.setoid {K : Type} {hash : K → U32} {equals : K → K → Bool}
    (h : Hashtable.Consistent hash equals) : Setoid K where
  r a b := equals a b = true
  iseqv := ⟨h.refl, h.symm, h.trans⟩

namespace PrivateHashtable

variable {K V : Type} {hash : K → U32} {equals : K → K → Bool}

/-- The table has the entries of the map. -/
structure Refines (h : Hashtable.Consistent hash equals) (this : PrivateHashtable K V)
    (m : KeyMap h.setoid V) : Prop where
  sound : this.Sound
  hash_eq : this.hash = hash
  equals_eq : this.equals = equals
  lists : KeyMap.Lists (this.entries.map Pair.entry) m

/-! ## Operations -/

theorem refines_create (h : Hashtable.Consistent hash equals) (capacity : U32) :
    Refines h (create hash equals capacity : PrivateHashtable K V) KeyMap.empty := by
  set this : PrivateHashtable K V := create hash equals capacity
  have hshape : this.Shape := shape_initHashtable ⟨0, 0, 0, [], hash, equals⟩ capacity
  have hnil : this.entries = [] := by
    rw [entries]
    exact List.flatten_replicate_nil
  have hwf : (this.exact 0).Wf := by
    have hexact := initHashtable_exact (⟨0, 0, 0, [], hash, equals⟩ : PrivateHashtable K V) capacity 0
    exact hexact ▸ (Hashtable.wf_create h capacity.toNat).1
  refine ⟨⟨hshape, ?_, ?_⟩, rfl, rfl, ?_⟩
  · rw [hnil]
    exact hwf
  · rw [hnil]
    rfl
  · rw [hnil]
    exact KeyMap.lists_empty

section Refines

variable {h : Hashtable.Consistent hash equals} {this : PrivateHashtable K V}
  {m : KeyMap h.setoid V} (hr : Refines h this m)

include hr

theorem Refines.lookup_map (key : K) : (this.lookup key).map Pair.value = m.get key := by
  cases hl : this.lookup key with
  | none =>
    have habsent : ∀ e ∈ this.entries.map Pair.entry, ¬ h.setoid e.1 key := by
      intro e he heq
      obtain ⟨p, hp, rfl⟩ := List.mem_map.mp he
      have hsome := hr.sound.lookup_eq_some_iff.mpr ⟨hp, hr.equals_eq ▸ h.symm heq⟩
      rw [hl] at hsome
      cases hsome
    rw [KeyMap.get, hr.lists.get_eq_none habsent]
    rfl
  | some p =>
    obtain ⟨hp, hkey⟩ := hr.sound.lookup_eq_some_iff.mp hl
    have hkey : h.setoid p.entry.1 key := h.symm (hr.equals_eq ▸ hkey)
    exact (hr.lists.get_eq (List.mem_map_of_mem hp) hkey).symm

theorem Refines.rehash : Refines h this.rehash m := by
  obtain ⟨hsound, hperm, hhash, hequals⟩ := hr.sound.rehash
  exact ⟨hsound, hhash.trans hr.hash_eq, hequals.trans hr.equals_eq, hr.lists.perm (hperm.map _)⟩

/-- **`put` stores the value under its key, and returns the one that was there.** -/
theorem Refines.put (key : K) (value : V) :
    (this.put key value).1 = m.get key ∧ Refines h (this.put key value).2 (m.put key value) := by
  refine ⟨hr.lookup_map key, ?_⟩
  have hrehash (stored : PrivateHashtable K V) (hstored : Refines h stored (m.put key value)) :
      Refines h (if stored.overloaded then stored.rehash else stored) (m.put key value) := by
    split_ifs
    · exact hstored.rehash
    · exact hstored
  have hmap := hr.lookup_map key
  unfold PrivateHashtable.put
  refine hrehash _ ?_
  cases hl : this.lookup key with
  | none =>
    obtain ⟨hsound, hperm⟩ := hr.sound.insert hl value
    rw [hl, KeyMap.get] at hmap
    have hnone := Option.map_eq_none_iff.mp hmap.symm
    exact ⟨hsound, hr.hash_eq, hr.equals_eq,
      (hr.lists.put_new (e := (key, value)) hnone).perm (hperm.map Pair.entry)⟩
  | some p =>
    obtain ⟨hsound, l₁, l₂, hbefore, hafter⟩ := hr.sound.replace hl value
    have hkey := (hr.sound.lookup_eq_some_iff.mp hl).2
    have hperm : (p.entry :: (l₁ ++ l₂).map Pair.entry).Perm (this.entries.map Pair.entry) :=
      ((hbefore ▸ List.perm_middle).map Pair.entry).symm
    have hreplaced : KeyMap.Lists ((key, value) :: (l₁ ++ l₂).map Pair.entry) (m.put key value) :=
      (hr.lists.perm hperm).replace (h.symm (hr.equals_eq ▸ hkey))
    refine ⟨hsound, hr.hash_eq, hr.equals_eq, hreplaced.perm ?_⟩
    rw [hafter]
    exact List.perm_middle.map Pair.entry

/-- **`get` returns the value under the key**, if the pairs can be counted. -/
theorem Refines.get (hfits : m.size < 2 ^ 32) (key : K) : this.get key = m.get key := by
  rw [← hr.lookup_map key, PrivateHashtable.get]
  split_ifs with hzero
  · have hlength := hr.lists.size
    rw [List.length_map] at hlength
    have hcount := hr.sound.count_eq (by omega)
    rw [hzero] at hcount
    have hnil := List.length_eq_zero_iff.mp hcount.symm
    cases hl : this.lookup key with
    | none => rfl
    | some p =>
      have hp := (hr.sound.lookup_eq_some_iff.mp hl).1
      rw [hnil] at hp
      cases hp
  · rfl

/-- **`remove` removes the key, and returns its value.** -/
theorem Refines.remove (key : K) :
    (this.remove key).1 = m.get key ∧ Refines h (this.remove key).2 (m.remove key) := by
  have hmap := hr.lookup_map key
  rw [PrivateHashtable.remove]
  cases hl : this.lookup key with
  | none =>
    rw [hl] at hmap
    have hnone : m (Quotient.mk _ key) = none := Option.map_eq_none_iff.mp hmap.symm
    rw [KeyMap.remove_of_none hnone]
    exact ⟨hmap, hr⟩
  | some p =>
    obtain ⟨hsound, hperm⟩ := hr.sound.eraseKey hl
    have hkey := (hr.sound.lookup_eq_some_iff.mp hl).2
    have hlists := hr.lists.perm (hperm.symm.map Pair.entry)
    rw [hl] at hmap
    exact ⟨hmap, hsound, hr.hash_eq, hr.equals_eq,
      hlists.remove (h.symm (hr.equals_eq ▸ hkey))⟩

omit hr in
theorem Refines.removeAt {e : Enumerator} {p : Pair K V} (hr : Refines h this m)
    (hat : this.At e p) : Refines h (this.removeAt e).1 (m.remove p.key) := by
  obtain ⟨hbehind, hahead⟩ := entries_removeAt hat
  obtain ⟨hsound, hhash, hequals⟩ := hr.sound.removeAt hat
  have hperm : this.entries.Perm (p :: (this.removeAt e).1.entries) := by
    rw [entries_eq this e, entries_eq _ (this.removeAt e).2, hahead, hbehind, List.append_assoc]
    exact List.perm_middle
  have hlists := hr.lists.perm (hperm.symm.map Pair.entry)
  exact ⟨hsound, hhash.trans hr.hash_eq, hequals.trans hr.equals_eq, hlists.remove (h.refl p.key)⟩

omit hr in
/-- **A loop passes what is ahead**, as far as it gets, and removes what it is told to. -/
theorem Refines.loop (removes : List Bool) {e : Enumerator} (hr : Refines h this m)
    (hcount : e.count.toNat = (this.ahead e).length) :
    (this.loop e removes).1 = ((this.ahead e).map Pair.entry).take removes.length ∧
      (this.loop e removes).2.1 = decide ((this.ahead e).length < removes.length) ∧
      Refines h (this.loop e removes).2.2 (m.removeSome removes (this.loop e removes).1) := by
  induction removes generalizing this m e with
  | nil => exact ⟨rfl, rfl, hr⟩
  | cons mark removes ih =>
    have hlength : this.table.length = this.capacity.toNat := hr.sound.wf.length
    rw [PrivateHashtable.loop]
    cases hnext : this.enumerate e with
    | none =>
      have hnil : this.ahead e = [] := by
        obtain hzero | hnil := enumerate_none hlength hnext
        · rw [hzero] at hcount
          exact List.length_eq_zero_iff.mp hcount.symm
        · exact hnil
      rw [hnil]
      exact ⟨rfl, (decide_eq_true (Nat.succ_pos _)).symm, hr⟩
    | some next =>
      obtain ⟨p, e'⟩ := next
      obtain ⟨hzero, hcount', hahead, hat⟩ := enumerate_some hlength hnext
      have hstep : (if mark = true then this.removeAt e' else (this, e')).1.ahead
            (if mark = true then this.removeAt e' else (this, e')).2 = this.ahead e' ∧
          (if mark = true then this.removeAt e' else (this, e')).2.count = e'.count ∧
          Refines h (if mark = true then this.removeAt e' else (this, e')).1
            (if mark = true then m.remove p.key else m) := by
        cases mark with
        | false => exact ⟨rfl, rfl, hr⟩
        | true =>
          obtain ⟨i, -, -, -, hremove⟩ := hat.removeAt_eq
          exact ⟨(entries_removeAt hat).2, by rw [if_pos rfl, hremove], hr.removeAt hat⟩
      obtain ⟨hsame, hkept, hrefines⟩ := hstep
      rw [hahead, List.length_cons] at hcount
      have hcounted : (if mark = true then this.removeAt e' else (this, e')).2.count.toNat =
          ((if mark = true then this.removeAt e' else (this, e')).1.ahead
            (if mark = true then this.removeAt e' else (this, e')).2).length := by
        rw [hkept, hsame, hcount']
        bv_omega
      obtain ⟨hvisited, hexhausted, hend⟩ := ih hrefines hcounted
      rw [hsame] at hvisited hexhausted
      dsimp only
      rw [hahead]
      refine ⟨?_, ?_, hend⟩
      · rw [hvisited]
        rfl
      · rw [hexhausted]
        exact decide_eq_decide.mpr Nat.succ_lt_succ_iff.symm

end Refines

/-! ## Runs -/

/-- What is done with a table. A loop over the pairs is given by whether it removes each of them with
`remove_at`; it ends when there are no more turns or no more pairs. -/
inductive Op (K V : Type)
  | put (key : K) (value : V)
  | get (key : K)
  | remove (key : K)
  | enumerate (removes : List Bool)

/-- What comes back: a value, or the keys and values a loop saw and whether there were no more. -/
inductive Answer (K V : Type)
  | value (value : Option V)
  | visited (entries : List (K × V)) (exhausted : Bool)

def step (this : PrivateHashtable K V) : Op K V → Answer K V × PrivateHashtable K V
  | .put key value => (.value (this.put key value).1, (this.put key value).2)
  | .get key => (.value (this.get key), this)
  | .remove key => (.value (this.remove key).1, (this.remove key).2)
  | .enumerate removes =>
    (.visited (this.loop this.createEnumerator removes).1
      (this.loop this.createEnumerator removes).2.1, (this.loop this.createEnumerator removes).2.2)

/-- The map after an operation, with what a loop saw -/
noncomputable def next {s : Setoid K} (m : KeyMap s V) : Op K V → Answer K V → KeyMap s V
  | .put key value, _ => m.put key value
  | .get _, _ => m
  | .remove key, _ => m.remove key
  | .enumerate removes, .visited entries _ => m.removeSome removes entries
  | .enumerate _, .value _ => m

/-- A loop sees the entries of a map: none twice, and all of them if it has a turn for each. -/
structure Visits {s : Setoid K} (m : KeyMap s V) (removes : List Bool) (entries : List (K × V))
    (exhausted : Bool) : Prop where
  once : (entries.map fun e => Quotient.mk s e.1).Nodup
  stored : ∀ e ∈ entries, m (Quotient.mk s e.1) = some e
  all : m.size ≤ removes.length → ∀ q ∈ m.keys, q ∈ entries.map fun e => Quotient.mk s e.1
  exhausted_iff : exhausted = true ↔ m.size < removes.length

def Answers {s : Setoid K} (m : KeyMap s V) : Op K V → Answer K V → Prop
  | .put key _, .value value => value = m.get key
  | .get key, .value value => value = m.get key
  | .remove key, .value value => value = m.get key
  | .enumerate removes, .visited entries exhausted => Visits m removes entries exhausted
  | _, _ => False

/-- The count is that of the keys, and the capacity is a power of two with its mask. -/
structure Counted {s : Setoid K} (this : PrivateHashtable K V) (m : KeyMap s V) : Prop where
  count_eq : this.count.toNat = m.size
  shape : this.Shape

/-- A run answers as the map does, and the table counts its keys all along. -/
def Correct {s : Setoid K} (this : PrivateHashtable K V) (m : KeyMap s V) : List (Op K V) → Prop
  | [] => Counted this m
  | op :: ops => Counted this m ∧ Answers m op (this.step op).1 ∧
    Correct (this.step op).2 (next m op (this.step op).1) ops

/-- There are never `2 ^ 32` keys. -/
def Fits {s : Setoid K} (this : PrivateHashtable K V) (m : KeyMap s V) : List (Op K V) → Prop
  | [] => m.size < 2 ^ 32
  | op :: ops => m.size < 2 ^ 32 ∧ Fits (this.step op).2 (next m op (this.step op).1) ops

theorem Correct.fits {s : Setoid K} {this : PrivateHashtable K V} {m : KeyMap s V}
    {ops : List (Op K V)} (h : Correct this m ops) : Fits this m ops := by
  induction ops generalizing this m with
  | nil =>
    rw [Fits, ← h.count_eq]
    exact this.count.isLt
  | cons op ops ih =>
    rw [Fits, ← h.1.count_eq]
    exact ⟨this.count.isLt, ih h.2.2⟩

section Runs

variable {h : Hashtable.Consistent hash equals} {this : PrivateHashtable K V}
  {m : KeyMap h.setoid V}

theorem Refines.counted (hr : Refines h this m) (hfits : m.size < 2 ^ 32) : Counted this m := by
  have hsize := hr.lists.size
  rw [List.length_map] at hsize
  exact ⟨(hr.sound.count_eq (by omega)).trans hsize.symm, hr.sound.toShape⟩

/-- **One operation answers as the map does.** -/
theorem Refines.step (hr : Refines h this m) (hfits : m.size < 2 ^ 32) (op : Op K V) :
    Answers m op (this.step op).1 ∧ Refines h (this.step op).2 (next m op (this.step op).1) := by
  cases op with
  | put key value => exact hr.put key value
  | get key => exact ⟨hr.get hfits key, hr⟩
  | remove key => exact hr.remove key
  | enumerate removes =>
    have hahead := this.ahead_createEnumerator
    have hsize := hr.lists.size
    rw [List.length_map] at hsize
    have hcount : this.createEnumerator.count.toNat = (this.ahead this.createEnumerator).length := by
      rw [hahead]
      exact hr.sound.count_eq (by omega)
    obtain ⟨hvisited, hexhausted, hend⟩ := hr.loop removes hcount
    rw [hahead] at hvisited hexhausted
    refine ⟨⟨?_, fun e he => ?_, fun hturns q hq => ?_, ?_⟩, hend⟩
    · rw [hvisited, List.map_take]
      exact hr.lists.distinct.sublist (List.take_sublist _ _)
    · rw [hvisited] at he
      exact hr.lists.of_mem (List.mem_of_mem_take he)
    · rw [hvisited, List.take_of_length_le (by rw [List.length_map]; omega)]
      obtain ⟨e, he⟩ := Option.ne_none_iff_exists'.mp hq
      obtain ⟨hmem, hclass⟩ := (hr.lists.mem_iff q e).mp he
      exact List.mem_map.mpr ⟨e, hmem, hclass⟩
    · rw [hexhausted, decide_eq_true_eq, hsize]

/-- **A run whose keys can be counted is correct.** -/
theorem Refines.correct (hr : Refines h this m) {ops : List (Op K V)} (hfits : Fits this m ops) :
    Correct this m ops := by
  induction ops generalizing this m with
  | nil => exact hr.counted hfits
  | cons op ops ih =>
    obtain ⟨hanswers, hnext⟩ := hr.step hfits.1 op
    exact ⟨hr.counted hfits.1, hanswers, ih hnext hfits.2⟩

end Runs

/-- **A run answers as a finite map does**, with as many pairs counted as there are keys and a capacity
that is a power of two, exactly if there are never `2 ^ 32` keys. -/
theorem correct_iff_fits (h : Hashtable.Consistent hash equals) (capacity : U32)
    (ops : List (Op K V)) :
    Correct (create hash equals capacity) (KeyMap.empty : KeyMap h.setoid V) ops ↔
      Fits (create hash equals capacity) (KeyMap.empty : KeyMap h.setoid V) ops :=
  ⟨Correct.fits, (refines_create h capacity).correct⟩

theorem consistent_nat : Hashtable.Consistent (BitVec.ofNat 32) fun a b : ℕ => a == b :=
  ⟨fun a => beq_self_eq_true a, fun hab => (by rwa [beq_iff_eq, eq_comm, ← beq_iff_eq]),
    fun hab hbc => (by rw [beq_iff_eq] at *; omega), fun hab => by rw [beq_iff_eq.mp hab]⟩

/-- The numbers below `n`, stored one after the other -/
def putRange (n : ℕ) : List (Op ℕ Unit) := (List.range n).map fun key => .put key ()

theorem Fits.size_puts {s : Setoid K} {keys : List K} {value : V} {this : PrivateHashtable K V}
    {m : KeyMap s V} (h : Fits this m (keys.map fun key => .put key value)) :
    (keys.foldl (fun m key => m.put key value) m).size < 2 ^ 32 := by
  induction keys generalizing this m with
  | nil => exact h
  | cons key keys ih => exact ih h.2

theorem lists_putRange (n : ℕ) : KeyMap.Lists ((List.range n).reverse.map fun key => (key, ()))
    ((List.range n).foldl (fun m key => m.put key ()) (KeyMap.empty : KeyMap consistent_nat.setoid Unit)) := by
  induction n with
  | zero => exact KeyMap.lists_empty
  | succ n ih =>
    have hnone := ih.get_eq_none fun e he (heq : consistent_nat.setoid e.1 n) => by
      obtain ⟨key, hkey, rfl⟩ := List.mem_map.mp he
      rw [List.mem_reverse, List.mem_range] at hkey
      exact absurd (beq_iff_eq.mp heq) (by dsimp only; omega)
    rw [List.range_succ, List.reverse_append, List.foldl_append]
    exact ih.put_new (e := (n, ())) hnone

/-- One number is stored. -/
theorem correct_put_nat :
    Correct (create (BitVec.ofNat 32) (fun a b : ℕ => a == b) 1)
      (KeyMap.empty : KeyMap consistent_nat.setoid Unit) (putRange 1) := by
  have hzero := KeyMap.lists_empty (s := consistent_nat.setoid) (V := Unit)
  have hone := lists_putRange 1
  refine (correct_iff_fits consistent_nat 1 _).mpr ⟨?_, ?_⟩
  · rw [hzero.size]
    norm_num
  · exact lt_of_eq_of_lt hone.size (by norm_num)

theorem not_correct_of_le {n : ℕ} (hn : 2 ^ 32 ≤ n) :
    ¬ Correct (create (BitVec.ofNat 32) (fun a b : ℕ => a == b) 1)
      (KeyMap.empty : KeyMap consistent_nat.setoid Unit) (putRange n) := by
  intro h
  have hsize := h.fits.size_puts
  rw [(lists_putRange n).size, List.length_map, List.length_reverse, List.length_range] at hsize
  omega

/-- `2 ^ 32` numbers are counted as none. -/
theorem not_correct_putRange :
    ¬ Correct (create (BitVec.ofNat 32) (fun a b : ℕ => a == b) 1)
      (KeyMap.empty : KeyMap consistent_nat.setoid Unit) (putRange (2 ^ 32)) :=
  not_correct_of_le le_rfl

end PrivateHashtable

end StrongSwan
