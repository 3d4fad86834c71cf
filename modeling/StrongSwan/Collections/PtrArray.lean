import StrongSwan.Collections.Array

/-!
# The memory of pointer-based arrays

* `memmove`, `realloc`: moving and resizing a block of slots.
* `ArrayT`: the fields of a pointer-based `array_t`, and its insertion and removal slot by slot.
* `ArrayT.Holds`: the slots in use hold a list. `PtrArray` is an array that holds one.
* `holds_insert`, `holds_removeTail`, `holds_removeHead`: whichever side makes room, the list changes at the index only.
* `forEach`, `drain`, `sieve`: the loops over an array, and what they leave in it.
-/

namespace StrongSwan

variable {α σ : Type}

section memory

/-- The `n` slots at `src` are moved to `dst`. -/
def memmove (data : List (Option α)) (dst src n : ℕ) : List (Option α) :=
  data.take dst ++ ((data.drop src).take n ++ data.drop (dst + n))

/-- A slot that is added has not been written. -/
def realloc (data : List (Option α)) (n : ℕ) : List (Option α) :=
  data.take n ++ List.replicate (n - data.length) none

/-- Moving slots up by one keeps all but the slot behind them, and leaves one in front of them. -/
theorem memmove_up (p m t : List (Option α)) (s : Option α) :
    ∃ x, memmove (p ++ (m ++ s :: t)) (p.length + 1) p.length m.length = p ++ x :: (m ++ t) := by
  have hdrop : (p ++ (m ++ s :: t)).drop (p.length + 1 + m.length) = t := by
    rw [Nat.add_assoc, List.drop_length_add_append, Nat.add_comm 1, List.drop_length_add_append]
    rfl
  have htake : ∃ x, (p ++ (m ++ s :: t)).take (p.length + 1) = p ++ [x] := by
    rw [List.take_length_add_append]
    cases m with
    | nil => exact ⟨s, rfl⟩
    | cons x m => exact ⟨x, rfl⟩
  obtain ⟨x, hx⟩ := htake
  refine ⟨x, ?_⟩
  rw [memmove, hdrop, hx, List.drop_left, List.take_left, List.append_assoc]
  rfl

/-- Moving slots down by one keeps all but the slot in front of them. -/
theorem memmove_down (p m t : List (Option α)) (s : Option α) :
    ∃ x, memmove (p ++ s :: (m ++ t)) p.length (p.length + 1) m.length = p ++ (m ++ x :: t) := by
  have hdrop : ∃ x, (p ++ s :: (m ++ t)).drop (p.length + m.length) = x :: t := by
    rw [List.drop_length_add_append]
    cases m using List.reverseRecOn with
    | nil => exact ⟨s, rfl⟩
    | append_singleton m x =>
      refine ⟨x, ?_⟩
      rw [List.length_append, List.length_singleton, List.drop_succ_cons, List.append_assoc]
      exact List.drop_left
  have hmid : ((p ++ s :: (m ++ t)).drop (p.length + 1)).take m.length = m := by
    rw [List.drop_length_add_append]
    exact List.take_left
  obtain ⟨x, hx⟩ := hdrop
  exact ⟨x, by rw [memmove, hx, hmid, List.take_left]⟩

end memory

/-- `array_t` of pointers; a slot of the block is `none` until it is written. -/
structure ArrayT (α : Type) where
  /-- number of elements currently in array (not counting head/tail) -/
  count : ℕ
  /-- allocated but unused elements at array front -/
  head : ℕ
  /-- allocated but unused elements at array end -/
  tail : ℕ
  data : List (Option α)

def ARRAY_HEAD : ℤ := 0

def ARRAY_TAIL : ℤ := -1

namespace ArrayT

def create (reserve : ℕ) : ArrayT α := ⟨0, 0, reserve, List.replicate reserve none⟩

/-- Increase allocated but unused tail room to at least `room`. -/
def makeTailRoom (this : ArrayT α) (room : ℕ) : ArrayT α :=
  if this.tail < room then
    { this with
      data := realloc this.data (this.count + this.head + room)
      tail := room }
  else this

/-- Increase allocated but unused head room to at least `room`. -/
def makeHeadRoom (this : ArrayT α) (room : ℕ) : ArrayT α :=
  if this.head < room then
    let increase := room - this.head
    let data := realloc this.data (this.count + this.tail + room)
    { this with
      data := memmove data increase 0 (this.count + this.tail + this.head)
      head := room }
  else this

/-- Make space for an item at index using tail room. -/
def insertTail (this : ArrayT α) (idx : ℕ) : ArrayT α :=
  let this := this.makeTailRoom 1
  { this with
    data := memmove this.data (this.head + idx + 1) (this.head + idx) (this.count - idx)
    tail := this.tail - 1
    count := this.count + 1 }

/-- Make space for an item at index using head room. -/
def insertHead (this : ArrayT α) (idx : ℕ) : ArrayT α :=
  let this := this.makeHeadRoom 1
  { this with
    data := memmove this.data (this.head - 1) this.head idx
    head := this.head - 1
    count := this.count + 1 }

/-- Remove an item, increase tail. -/
def removeTail (this : ArrayT α) (idx : ℕ) : ArrayT α :=
  { this with
    data := memmove this.data (idx + this.head) (idx + this.head + 1) (this.count - 1 - idx)
    count := this.count - 1
    tail := this.tail + 1 }

/-- Remove an item, increase head. -/
def removeHead (this : ArrayT α) (idx : ℕ) : ArrayT α :=
  { this with
    data := memmove this.data (this.head + 1) this.head idx
    count := this.count - 1
    head := this.head + 1 }

def compress (this : ArrayT α) : ArrayT α :=
  let tail := this.tail + this.head
  let data :=
    if this.head ≠ 0 then memmove this.data 0 this.head (this.count + this.tail) else this.data
  if tail ≠ 0 then ⟨this.count, 0, 0, realloc data this.count⟩ else ⟨this.count, 0, this.tail, data⟩

def insert (this : ArrayT α) (idx : ℤ) (data : α) : ArrayT α :=
  if idx < 0 ∨ idx ≤ this.count then
    let idx := if idx < 0 then this.count else idx.toNat
    let this :=
      if this.head ≠ 0 ∧ this.tail = 0 then this.insertHead idx
      else if this.tail ≠ 0 ∧ this.head = 0 then this.insertTail idx
      else if idx > this.count / 2 then this.insertTail idx
      else this.insertHead idx
    { this with data := this.data.set (this.head + idx) (some data) }
  else this

/-- `array_get`, with the slot it reads. -/
def get (this : ArrayT α) (idx : ℤ) : Option (Option α) :=
  if 0 ≤ idx ∧ (this.count : ℤ) ≤ idx then none
  else if idx < 0 ∧ this.count = 0 then none
  else
    let idx := if idx < 0 then this.count - 1 else idx.toNat
    some (this.data.getD (this.head + idx) none)

/-- `array_remove`, with the slot it reads. -/
def remove (this : ArrayT α) (idx : ℤ) : Option (Option α × ArrayT α) :=
  match this.get idx with
  | none => none
  | some slot =>
    let idx := if idx < 0 then this.count - 1 else idx.toNat
    let removed := if idx > this.count / 2 then this.removeTail idx else this.removeHead idx
    some (slot,
      if removed.head + removed.tail > ARRAY_MAX_UNUSED then removed.compress else removed)

/-- The slots in use hold the list. -/
def Holds (this : ArrayT α) (elems : List α) : Prop :=
  ∃ front back, this.data = front ++ (elems.map some ++ back) ∧ front.length = this.head ∧
    this.count = elems.length ∧ back.length = this.tail

/-- The slots in use hold the two lists with a slot between them. -/
def Gap (this : ArrayT α) (l r : List α) : Prop :=
  ∃ front slot back, this.data = front ++ (l.map some ++ slot :: (r.map some ++ back)) ∧
    front.length = this.head ∧ this.count = (l ++ r).length + 1 ∧ back.length = this.tail

variable {this : ArrayT α} {elems l r : List α}

theorem holds_create (n : ℕ) : (create n : ArrayT α).Holds [] :=
  ⟨[], List.replicate n none, rfl, rfl, rfl, List.length_replicate⟩

theorem holds_makeTailRoom (h : this.Holds elems) :
    (this.makeTailRoom 1).Holds elems ∧ 0 < (this.makeTailRoom 1).tail := by
  obtain ⟨front, back, hdata, hfront, hcount, hback⟩ := h
  rw [makeTailRoom]
  split_ifs with htail
  · have hnil : back = [] := List.eq_nil_of_length_eq_zero (by omega)
    have hlen : this.data.length = this.count + this.head := by
      rw [hdata, hnil, List.append_nil, List.length_append, List.length_map]
      omega
    refine ⟨⟨front, [none], ?_, hfront, hcount, rfl⟩, Nat.one_pos⟩
    show realloc this.data (this.count + this.head + 1) = _
    rw [realloc, List.take_of_length_le (by omega), hlen, Nat.add_sub_cancel_left, hdata, hnil,
      List.append_nil, List.append_assoc]
    rfl
  · exact ⟨⟨front, back, hdata, hfront, hcount, hback⟩, by omega⟩

theorem holds_makeHeadRoom (h : this.Holds elems) :
    (this.makeHeadRoom 1).Holds elems ∧ 0 < (this.makeHeadRoom 1).head := by
  obtain ⟨front, back, hdata, hfront, hcount, hback⟩ := h
  rw [makeHeadRoom]
  split_ifs with hhead
  · have hnil : front = [] := List.eq_nil_of_length_eq_zero (by omega)
    have hzero : this.head = 0 := by omega
    have hlen : this.data.length = this.count + this.tail := by
      rw [hdata, hnil, List.nil_append, List.length_append, List.length_map]
      omega
    obtain ⟨x, hx⟩ := memmove_up [] this.data [] none
    refine ⟨⟨[x], back, ?_, rfl, hcount, hback⟩, Nat.one_pos⟩
    show memmove (realloc this.data (this.count + this.tail + 1)) (1 - this.head) 0
      (this.count + this.tail + this.head) = _
    rw [realloc, List.take_of_length_le (by omega), hlen, Nat.add_sub_cancel_left, hzero]
    rw [hlen] at hx
    refine hx.trans ?_
    rw [List.append_nil, hdata, hnil]
    rfl
  · exact ⟨⟨front, back, hdata, hfront, hcount, hback⟩, by omega⟩

theorem gap_insertTail (h : this.Holds (l ++ r)) : (this.insertTail l.length).Gap l r := by
  obtain ⟨⟨front, back, hdata, hfront, hcount, hback⟩, htail⟩ := holds_makeTailRoom h
  rw [insertTail]
  generalize this.makeTailRoom 1 = room at *
  cases back with
  | nil => exact absurd hback htail.ne
  | cons slot back =>
    obtain ⟨x, hx⟩ := memmove_up (front ++ l.map some) (r.map some) back slot
    refine ⟨front, x, back, ?_, hfront, congrArg (· + 1) hcount, ?_⟩
    · have hmove : room.count - l.length = (r.map some).length := by
        rw [hcount, List.length_append, Nat.add_sub_cancel_left, List.length_map]
      have hidx : room.head + l.length = (front ++ l.map some).length := by
        rw [List.length_append, List.length_map, hfront]
      show memmove room.data (room.head + l.length + 1) (room.head + l.length) _ = _
      rw [hdata, hmove, hidx, List.map_append, List.append_assoc, ← List.append_assoc front, hx,
        List.append_assoc]
    · show back.length = room.tail - 1
      rw [← hback]
      rfl

theorem gap_insertHead (h : this.Holds (l ++ r)) : (this.insertHead l.length).Gap l r := by
  obtain ⟨⟨front, back, hdata, hfront, hcount, hback⟩, hhead⟩ := holds_makeHeadRoom h
  rw [insertHead]
  generalize this.makeHeadRoom 1 = room at *
  cases front using List.reverseRecOn with
  | nil => exact absurd hfront hhead.ne
  | append_singleton front slot =>
    rw [List.length_append, List.length_singleton] at hfront
    obtain ⟨x, hx⟩ := memmove_down front (l.map some) (r.map some ++ back) slot
    refine ⟨front, x, back, ?_, ?_, congrArg (· + 1) hcount, hback⟩
    · show memmove room.data (room.head - 1) room.head l.length = _
      rw [List.length_map] at hx
      rw [hdata, ← hfront, Nat.add_sub_cancel, List.map_append, List.append_assoc,
        List.append_assoc]
      exact hx
    · show front.length = room.head - 1
      rw [← hfront, Nat.add_sub_cancel]

theorem holds_of_gap (h : this.Gap l r) (a : α) :
    ({ this with data := this.data.set (this.head + l.length) (some a) } : ArrayT α).Holds
      (l ++ a :: r) := by
  obtain ⟨front, slot, back, hdata, hfront, hcount, hback⟩ := h
  refine ⟨front, back, ?_, hfront, ?_, hback⟩
  · show this.data.set _ _ = _
    rw [hdata, ← hfront, List.set_append_right _ _ (Nat.le_add_right _ _),
      Nat.add_sub_cancel_left, List.set_append_right _ _ (by rw [List.length_map]),
      List.length_map, Nat.sub_self, List.map_append, List.append_assoc]
    rfl
  · rw [hcount, List.length_append, List.length_append]
    rfl

variable {idx : ℤ}

theorem holds_insert (h : this.Holds (l ++ r))
    (hidx : idx = l.length ∨ idx < 0 ∧ r = []) (a : α) :
    (this.insert idx a).Holds (l ++ a :: r) := by
  have hcount : this.count = l.length + r.length := by
    obtain ⟨-, -, -, -, hcount, -⟩ := h
    rw [hcount, List.length_append]
  have hat : (if idx < 0 then this.count else idx.toNat) = l.length := by
    rcases hidx with rfl | ⟨hneg, rfl⟩
    · rw [if_neg (by omega), Int.toNat_natCast]
    · rw [if_pos hneg, hcount]
      rfl
  rw [insert, if_pos (by omega), hat]
  dsimp only
  split_ifs
  · exact holds_of_gap (gap_insertHead h) a
  · exact holds_of_gap (gap_insertTail h) a
  · exact holds_of_gap (gap_insertTail h) a
  · exact holds_of_gap (gap_insertHead h) a

theorem holds_removeTail {a : α} (h : this.Holds (l ++ a :: r)) :
    (this.removeTail l.length).Holds (l ++ r) := by
  obtain ⟨front, back, hdata, hfront, hcount, hback⟩ := h
  obtain ⟨x, hx⟩ := memmove_down (front ++ l.map some) (r.map some) back (some a)
  rw [List.length_append, List.length_cons] at hcount
  refine ⟨front, x :: back, ?_, hfront, ?_, congrArg (· + 1) hback⟩
  · have hmove : this.count - 1 - l.length = (r.map some).length := by
      rw [hcount, List.length_map]
      omega
    have hidx : l.length + this.head = (front ++ l.map some).length := by
      rw [List.length_append, List.length_map, hfront, Nat.add_comm]
    show memmove this.data (l.length + this.head) (l.length + this.head + 1) _ = _
    rw [hdata, hmove, hidx, List.map_append, List.append_assoc, ← List.append_assoc front,
      List.map_cons, List.cons_append, hx, List.map_append, List.append_assoc, List.append_assoc]
  · show this.count - 1 = _
    rw [hcount, List.length_append]
    rfl

theorem holds_removeHead {a : α} (h : this.Holds (l ++ a :: r)) :
    (this.removeHead l.length).Holds (l ++ r) := by
  obtain ⟨front, back, hdata, hfront, hcount, hback⟩ := h
  obtain ⟨x, hx⟩ := memmove_up front (l.map some) (r.map some ++ back) (some a)
  rw [List.length_append, List.length_cons] at hcount
  refine ⟨front ++ [x], back, ?_, ?_, ?_, hback⟩
  · show memmove this.data (this.head + 1) this.head l.length = _
    rw [List.length_map] at hx
    rw [hdata, ← hfront, List.map_append, List.append_assoc, List.append_assoc, List.map_append,
      List.append_assoc]
    exact hx
  · show (front ++ [x]).length = this.head + 1
    rw [List.length_append, hfront]
    rfl
  · show this.count - 1 = _
    rw [hcount, List.length_append]
    rfl

theorem holds_compress (h : this.Holds elems) : this.compress.Holds elems := by
  obtain ⟨front, back, hdata, hfront, hcount, hback⟩ := h
  -- the elements come first once the head room is given up
  have hmoved : ∃ rest, (if this.head ≠ 0 then memmove this.data 0 this.head (this.count + this.tail)
      else this.data) = elems.map some ++ rest := by
    split_ifs with hhead
    · refine ⟨back ++ this.data.drop (0 + (this.count + this.tail)), ?_⟩
      have hall : (elems.map some ++ back).length ≤ this.count + this.tail := by
        rw [List.length_append, List.length_map, hcount, hback]
      rw [memmove, List.take_zero, List.nil_append]
      nth_rewrite 1 [hdata]
      rw [← hfront, List.drop_left, List.take_of_length_le hall, List.append_assoc]
    · have hnil : front = [] := List.eq_nil_of_length_eq_zero (by omega)
      exact ⟨back, by rw [hdata, hnil, List.nil_append]⟩
  obtain ⟨rest, hrest⟩ := hmoved
  have hlen : this.count = (elems.map some).length := by rw [hcount, List.length_map]
  rw [compress, hrest]
  split_ifs with htail
  · refine ⟨[], [], ?_, rfl, hcount, rfl⟩
    show realloc _ _ = _
    rw [realloc, hlen, List.take_left, Nat.sub_eq_zero_of_le (by simp), List.replicate_zero,
      List.append_nil, List.nil_append]
  · have hfront0 : front = [] := List.eq_nil_of_length_eq_zero (by omega)
    have hhead0 : this.head = 0 := by omega
    rw [if_neg (not_not_intro hhead0), hdata, hfront0] at hrest
    refine ⟨[], back, ?_, rfl, hcount, hback⟩
    show elems.map some ++ rest = _
    rw [← hrest]

theorem get_of_holds {a : α} (h : this.Holds (l ++ a :: r))
    (hidx : idx = l.length ∨ idx < 0 ∧ r = []) : this.get idx = some (some a) := by
  obtain ⟨front, back, hdata, hfront, hcount, hback⟩ := h
  rw [List.length_append, List.length_cons] at hcount
  have hat : (if idx < 0 then this.count - 1 else idx.toNat) = l.length := by
    rcases hidx with rfl | ⟨hneg, rfl⟩
    · rw [if_neg (by omega), Int.toNat_natCast]
    · rw [if_pos hneg, hcount]
      rfl
  have hslot : this.data[this.head + l.length]? = some (some a) := by
    rw [hdata, ← hfront, List.getElem?_append_right (Nat.le_add_right _ _), Nat.add_sub_cancel_left,
      List.map_append, List.append_assoc, List.getElem?_append_right (by rw [List.length_map]),
      List.length_map, Nat.sub_self]
    rfl
  rw [get, if_neg (by omega), if_neg (by omega), hat]
  show some (this.data.getD (this.head + l.length) none) = _
  rw [List.getD_eq_getElem?_getD, hslot]
  rfl

theorem remove_of_holds {a : α} (h : this.Holds (l ++ a :: r))
    (hidx : idx = l.length ∨ idx < 0 ∧ r = []) :
    ∃ rest, this.remove idx = some (some a, rest) ∧ rest.Holds (l ++ r) := by
  have hcount : this.count = l.length + (r.length + 1) := by
    obtain ⟨-, -, -, -, hcount, -⟩ := h
    rw [hcount, List.length_append, List.length_cons]
  have hat : (if idx < 0 then this.count - 1 else idx.toNat) = l.length := by
    rcases hidx with rfl | ⟨hneg, rfl⟩
    · rw [if_neg (by omega), Int.toNat_natCast]
    · rw [if_pos hneg, hcount]
      rfl
  rw [remove, get_of_holds h hidx]
  dsimp only
  rw [hat]
  refine ⟨_, rfl, ?_⟩
  have hremoved : (if l.length > this.count / 2 then this.removeTail l.length
      else this.removeHead l.length).Holds (l ++ r) := by
    split_ifs
    · exact holds_removeTail h
    · exact holds_removeHead h
  split_ifs at hremoved ⊢
  · exact holds_compress hremoved
  · exact hremoved
  · exact holds_compress hremoved
  · exact hremoved

theorem remove_of_count_eq_zero (h : this.count = 0) : this.remove idx = none := by
  have hget : this.get idx = none := by
    rw [get]
    split_ifs <;> first | rfl | omega
  rw [remove, hget]

theorem unused_insert (h : this.head + this.tail ≤ ARRAY_MAX_UNUSED) (idx : ℤ) (a : α) :
    (this.insert idx a).head + (this.insert idx a).tail ≤ ARRAY_MAX_UNUSED := by
  have hhead : ∀ i, (this.insertHead i).head + (this.insertHead i).tail ≤ ARRAY_MAX_UNUSED := by
    intro i
    show (this.makeHeadRoom 1).head - 1 + (this.makeHeadRoom 1).tail ≤ _
    rw [makeHeadRoom]
    split_ifs
    · show 1 - 1 + this.tail ≤ _
      omega
    · omega
  have htail : ∀ i, (this.insertTail i).head + (this.insertTail i).tail ≤ ARRAY_MAX_UNUSED := by
    intro i
    show (this.makeTailRoom 1).head + ((this.makeTailRoom 1).tail - 1) ≤ _
    rw [makeTailRoom]
    split_ifs
    · show this.head + (1 - 1) ≤ _
      omega
    · omega
  rw [insert]
  by_cases hidx : idx < 0 ∨ idx ≤ this.count
  · rw [if_pos hidx]
    generalize (if idx < 0 then this.count else idx.toNat) = i
    dsimp only
    split_ifs
    · exact hhead i
    · exact htail i
    · exact htail i
    · exact hhead i
  · rw [if_neg hidx]
    exact h

theorem unused_compress (this : ArrayT α) : this.compress.head + this.compress.tail = 0 := by
  rw [compress]
  by_cases htail : this.tail + this.head ≠ 0
  · rw [if_pos htail]
    rfl
  · rw [if_neg htail]
    show 0 + this.tail = 0
    omega

theorem unused_compressed (this : ArrayT α) :
    (if this.head + this.tail > ARRAY_MAX_UNUSED then this.compress else this).head +
      (if this.head + this.tail > ARRAY_MAX_UNUSED then this.compress else this).tail ≤
        ARRAY_MAX_UNUSED := by
  split_ifs with hroom
  · rw [unused_compress]
    exact Nat.zero_le _
  · exact Nat.not_lt.mp hroom

theorem unused_remove {slot : Option α} {rest : ArrayT α}
    (h : this.remove idx = some (slot, rest)) : rest.head + rest.tail ≤ ARRAY_MAX_UNUSED := by
  rw [remove] at h
  cases hget : this.get idx with
  | none =>
    rw [hget] at h
    cases h
  | some slot' =>
    rw [hget] at h
    injection h with h
    injection h with _ h
    rw [← h]
    exact unused_compressed _

theorem exists_of_remove (hholds : this.Holds elems) {removed : Option α × ArrayT α}
    (h : this.remove idx = some removed) :
    ∃ l a r, elems = l ++ a :: r ∧ (idx = l.length ∨ idx < 0 ∧ r = []) := by
  have hcount : this.count = elems.length := by
    obtain ⟨-, -, -, -, hcount, -⟩ := hholds
    exact hcount
  have hget : this.get idx ≠ none := by
    intro hnone
    rw [remove, hnone] at h
    cases h
  rw [get] at hget
  by_cases hneg : idx < 0
  · cases elems using List.reverseRecOn with
    | nil =>
      rw [if_neg (by omega), if_pos ⟨hneg, hcount⟩] at hget
      exact absurd rfl hget
    | append_singleton l a => exact ⟨l, a, [], rfl, .inr ⟨hneg, rfl⟩⟩
  · by_cases hlt : idx < this.count
    · have hsplit := List.take_append_drop idx.toNat elems
      have hlen := List.length_take_of_le (show idx.toNat ≤ elems.length by omega)
      cases hr : elems.drop idx.toNat with
      | nil =>
        have hle : elems.length ≤ idx.toNat := List.drop_eq_nil_iff.mp hr
        omega
      | cons a r =>
        rw [hr] at hsplit
        exact ⟨_, a, r, hsplit.symm, .inl (by omega)⟩
    · rw [if_pos (by omega)] at hget
      exact absurd rfl hget

end ArrayT

/-- A pointer-based array; every slot in use has been written. -/
structure PtrArray (α : Type) extends ArrayT α where
  holds : ∃ elems, toArrayT.Holds elems
  unused : head + tail ≤ ARRAY_MAX_UNUSED

namespace PtrArray

/-- The elements of an array. -/
def toList (this : PtrArray α) : List α :=
  ((this.data.drop this.head).take this.count).filterMap id

variable {this : PtrArray α}

theorem toList_eq {elems : List α} (h : this.Holds elems) :
    this.toList = elems := by
  obtain ⟨front, back, hdata, hfront, hcount, -⟩ := h
  have hslots : (this.data.drop this.head).take this.count = elems.map some := by
    rw [hdata, ← hfront, List.drop_left, hcount, ← List.length_map some, List.take_left]
  rw [toList, hslots, List.filterMap_map]
  exact List.filterMap_some

theorem holds_toList (this : PtrArray α) : this.Holds this.toList := by
  obtain ⟨elems, h⟩ := this.holds
  rw [toList_eq h]
  exact h

theorem count_eq (this : PtrArray α) : this.count = this.toList.length := by
  obtain ⟨-, -, -, -, hcount, -⟩ := this.holds_toList
  exact hcount

/-- `array_create`, with little enough room that it is never compressed away at once -/
def create (reserve : ℕ) (h : reserve ≤ ARRAY_MAX_UNUSED) : PtrArray α where
  toArrayT := .create reserve
  holds := ⟨[], ArrayT.holds_create reserve⟩
  unused := (Nat.zero_add reserve).trans_le h

theorem toList_create (n : ℕ) (h : n ≤ ARRAY_MAX_UNUSED) :
    (create n h : PtrArray α).toList = [] := toList_eq (ArrayT.holds_create n)

theorem split_toList {i : ℕ} (h : i ≤ this.toList.length) :
    ∃ l r, this.toList = l ++ r ∧ i = l.length :=
  ⟨this.toList.take i, this.toList.drop i, (List.take_append_drop _ _).symm, by
    rw [List.length_take_of_le h]⟩

theorem holds_insert (this : PtrArray α) (idx : ℤ) (a : α) :
    ∃ elems, (this.toArrayT.insert idx a).Holds elems := by
  by_cases hidx : idx < 0
  · have h := this.holds_toList
    rw [← List.append_nil this.toList] at h
    exact ⟨_, ArrayT.holds_insert h (.inr ⟨hidx, rfl⟩) a⟩
  by_cases hle : idx ≤ this.count
  · rw [count_eq] at hle
    obtain ⟨l, r, hlr, hl⟩ := split_toList (show idx.toNat ≤ this.toList.length by omega)
    have h := this.holds_toList
    rw [hlr] at h
    exact ⟨_, ArrayT.holds_insert h (.inl (by omega)) a⟩
  · rw [ArrayT.insert, if_neg (by omega)]
    exact this.holds

def insert (this : PtrArray α) (idx : ℤ) (a : α) : PtrArray α where
  toArrayT := this.toArrayT.insert idx a
  holds := this.holds_insert idx a
  unused := ArrayT.unused_insert this.unused idx a

theorem toList_insert_tail (this : PtrArray α) (a : α) :
    (this.insert ARRAY_TAIL a).toList = this.toList ++ [a] := by
  have h := this.holds_toList
  rw [← List.append_nil this.toList] at h
  exact toList_eq (ArrayT.holds_insert h (.inr ⟨by decide, rfl⟩) a)

theorem toList_insert_head (this : PtrArray α) (a : α) :
    (this.insert ARRAY_HEAD a).toList = a :: this.toList :=
  toList_eq (ArrayT.holds_insert (show this.Holds ([] ++ this.toList) from this.holds_toList) (.inl rfl) a)

theorem holds_remove (this : PtrArray α) {idx : ℤ} {slot : Option α} {rest : ArrayT α}
    (h : this.toArrayT.remove idx = some (slot, rest)) : ∃ elems, rest.Holds elems := by
  obtain ⟨l, a, r, hlr, hidx⟩ := ArrayT.exists_of_remove this.holds_toList h
  have hholds := this.holds_toList
  rw [hlr] at hholds
  obtain ⟨rest', hrest, hremoved⟩ := ArrayT.remove_of_holds hholds hidx
  rw [h, Option.some.injEq, Prod.mk.injEq] at hrest
  rw [hrest.2]
  exact ⟨_, hremoved⟩

def remove (this : PtrArray α) (idx : ℤ) : Option (α × PtrArray α) :=
  match h : this.toArrayT.remove idx with
  | some (some a, rest) => some (a, ⟨rest, this.holds_remove h, ArrayT.unused_remove h⟩)
  | _ => none

variable {l r : List α} {a : α}

theorem remove_spec (h : this.toList = l ++ a :: r)
    {idx : ℤ} (hidx : idx = l.length ∨ idx < 0 ∧ r = []) :
    ∃ rest, this.remove idx = some (a, rest) ∧ rest.toList = l ++ r := by
  have hholds := this.holds_toList
  rw [h] at hholds
  obtain ⟨rest, hrest, hremoved⟩ := ArrayT.remove_of_holds hholds hidx
  refine ⟨⟨rest, this.holds_remove hrest, ArrayT.unused_remove hrest⟩, ?_, toList_eq hremoved⟩
  rw [remove]
  split
  · rename_i a' rest' heq
    rw [hrest, Option.some.injEq, Prod.mk.injEq, Option.some.injEq] at heq
    obtain ⟨rfl, rfl⟩ := heq
    rfl
  · rename_i hne
    exact absurd hrest (hne a rest)

theorem remove_eq_none (h : this.toList = []) (idx : ℤ) :
    this.remove idx = none := by
  have hcount : this.count = 0 := by rw [count_eq, h, List.length_nil]
  rw [remove]
  split
  · rename_i heq
    rw [ArrayT.remove_of_count_eq_zero hcount] at heq
    cases heq
  · rfl

theorem exists_of_remove {this rest : PtrArray α} {idx : ℤ}
    (h : this.remove idx = some (a, rest)) :
    ∃ l r, this.toList = l ++ a :: r ∧ rest.toList = l ++ r := by
  rw [remove] at h
  split at h
  · rename_i a' rest' heq
    obtain ⟨l, x, r, hlr, hidx⟩ := ArrayT.exists_of_remove this.holds_toList heq
    have hholds := this.holds_toList
    rw [hlr] at hholds
    obtain ⟨rest'', hrest, hremoved⟩ := ArrayT.remove_of_holds hholds hidx
    rw [heq, Option.some.injEq, Prod.mk.injEq, Option.some.injEq] at hrest
    rw [Option.some.injEq, Prod.mk.injEq] at h
    obtain ⟨rfl, rfl⟩ := hrest
    obtain ⟨rfl, rfl⟩ := h
    exact ⟨l, r, hlr, toList_eq hremoved⟩
  · cases h

theorem count_remove {this rest : PtrArray α} {idx : ℤ}
    (h : this.remove idx = some (a, rest)) : rest.count + 1 = this.count := by
  obtain ⟨l, r, hthis, hrest⟩ := exists_of_remove h
  rw [count_eq, count_eq, hthis, hrest, List.length_append, List.length_append]
  rfl

/-! ## Enumerators -/

/-- `enumerate`, at the current index -/
def enumerate (this : PtrArray α) (idx : ℕ) : Option α :=
  if idx ≥ this.count then none else this.data.getD (idx + this.head) none

theorem enumerate_spec (h : this.toList = l ++ a :: r) :
    this.enumerate l.length = some a := by
  have hholds := this.holds_toList
  rw [h] at hholds
  have hget := ArrayT.get_of_holds hholds (.inl rfl)
  have hlt : l.length < this.count := by
    rw [count_eq, h, List.length_append, List.length_cons]
    omega
  rw [ArrayT.get, if_neg (by omega), if_neg (by omega), if_neg (by omega), Option.some.injEq,
    Int.toNat_natCast] at hget
  rw [enumerate, if_neg (by omega), Nat.add_comm]
  exact hget

theorem enumerate_eq_none {idx : ℕ} (h : this.toList.length ≤ idx) :
    this.enumerate idx = none := by
  rw [enumerate, if_pos (by rw [count_eq]; exact h)]

theorem lt_of_enumerate {idx : ℕ} (h : this.enumerate idx = some a) :
    idx < this.count := by
  by_contra hle
  rw [enumerate, if_pos (Nat.not_lt.mp hle)] at h
  cases h

/-- `array_remove_at`, with the index of the enumerator -/
def removeAt (this : PtrArray α) (idx : ℕ) : PtrArray α × ℕ :=
  if idx ≠ 0 then
    match this.remove ((idx - 1 : ℕ) : ℤ) with
    | some (_, rest) => (rest, idx - 1)
    | none => (this, idx - 1)
  else (this, idx)

theorem removeAt_spec (h : this.toList = l ++ a :: r) :
    (this.removeAt (l.length + 1)).1.toList = l ++ r ∧
      (this.removeAt (l.length + 1)).2 = l.length := by
  obtain ⟨rest, hrest, hlist⟩ := remove_spec h (.inl rfl)
  rw [removeAt, if_pos (Nat.succ_ne_zero _), Nat.add_sub_cancel, hrest]
  exact ⟨hlist, rfl⟩

theorem count_removeAt {idx : ℕ} (h : this.enumerate idx = some a) :
    (this.removeAt (idx + 1)).1.count + 1 = this.count ∧ (this.removeAt (idx + 1)).2 = idx := by
  have hlt := lt_of_enumerate h
  rw [count_eq] at hlt
  obtain ⟨l, r, hlr, hl⟩ := split_toList hlt.le
  cases r with
  | nil =>
    rw [hlr, List.append_nil] at hlt
    omega
  | cons x r =>
    obtain ⟨hlist, hidx⟩ := removeAt_spec hlr
    rw [hl, hidx, count_eq, count_eq, hlist, hlr, List.length_append, List.length_append]
    exact ⟨rfl, rfl⟩

theorem holds_update (h : this.toList = l ++ a :: r)
    (f : α → α) :
    ({ this.toArrayT with
        data := this.data.modify (this.head + l.length) (Option.map f) } : ArrayT α).Holds
      (l ++ f a :: r) := by
  obtain ⟨front, back, hdata, hfront, hcount, hback⟩ := this.holds_toList
  rw [h] at hdata hcount
  refine ⟨front, back, ?_, hfront, ?_, hback⟩
  · have hidx : (l.map some).length + 0 = l.length := List.length_map _
    show this.data.modifyTailIdx (this.head + l.length) _ = _
    rw [hdata, ← hfront, List.modifyTailIdx_add, List.map_append, List.append_assoc, ← hidx,
      List.modifyTailIdx_add, List.map_append, List.append_assoc]
    rfl
  · show this.count = _
    rw [hcount, List.length_append, List.length_append]
    rfl

/-- The element at an index is changed through its pointer. -/
def update (this : PtrArray α) (idx : ℕ) (f : α → α) : PtrArray α :=
  if h : idx < this.count then
    { toArrayT := { this.toArrayT with data := this.data.modify (this.head + idx) (Option.map f) }
      holds := by
        rw [count_eq] at h
        obtain ⟨l, r, hlr, hl⟩ := split_toList h.le
        cases r with
        | nil =>
          rw [hlr, List.append_nil] at h
          omega
        | cons a r =>
          rw [hl]
          exact ⟨_, holds_update hlr f⟩
      unused := this.unused }
  else this

theorem count_update (this : PtrArray α) (idx : ℕ) (f : α → α) :
    (this.update idx f).count = this.count := by
  rw [update]
  split_ifs <;> rfl

theorem toList_update (h : this.toList = l ++ a :: r)
    (f : α → α) : (this.update l.length f).toList = l ++ f a :: r := by
  have hlt : l.length < this.count := by
    rw [count_eq, h, List.length_append, List.length_cons]
    omega
  rw [update, dif_pos hlt]
  exact toList_eq (holds_update h f)

/-! ## Loops -/

/-- Enumerate the elements, and change each through its pointer. -/
def forEach (this : PtrArray α) (f : α → α) (idx : ℕ) : PtrArray α :=
  match _h : this.enumerate idx with
  | none => this
  | some _ => (this.update idx f).forEach f (idx + 1)
termination_by this.count - idx
decreasing_by
  have hlt := lt_of_enumerate _h
  rw [count_update]
  omega

/-- `while (array_remove(array, ARRAY_TAIL, &ptr))` -/
def drain (this : PtrArray α) (body : α → σ → σ) (s : σ) : σ × PtrArray α :=
  match _h : this.remove ARRAY_TAIL with
  | none => (s, this)
  | some (ptr, rest) => rest.drain body (body ptr s)
termination_by this.count
decreasing_by
  have hcount := count_remove _h
  omega

/-- Enumerate the elements, and take out those that `p` holds of. -/
def sieve (this : PtrArray α) (p : α → Bool) (body : α → σ → σ) (idx : ℕ) (s : σ) :
    σ × PtrArray α :=
  match _h : this.enumerate idx with
  | none => (s, this)
  | some ptr =>
    if p ptr then
      (this.removeAt (idx + 1)).1.sieve p body (this.removeAt (idx + 1)).2 (body ptr s)
    else this.sieve p body (idx + 1) s
termination_by this.count - idx
decreasing_by
  · have hlt := lt_of_enumerate _h
    obtain ⟨hcount, hidx⟩ := count_removeAt _h
    omega
  · have hlt := lt_of_enumerate _h
    omega

theorem forEach_spec (f : α → α) : ∀ {this : PtrArray α}, this.toList = l ++ r →
    (this.forEach f l.length).toList = l ++ r.map f := by
  induction r generalizing l with
  | nil =>
    intro this h
    have hnone : this.enumerate l.length = none :=
      enumerate_eq_none (by rw [h, List.append_nil])
    rw [forEach]
    split
    · rw [h, List.map_nil]
    · rename_i hsome
      rw [hnone] at hsome
      cases hsome
  | cons a r ih =>
    intro this h
    have hupdate := toList_update h f
    rw [List.append_cons] at hupdate
    have hrest := ih hupdate
    rw [List.length_append, List.length_singleton] at hrest
    rw [forEach]
    split
    · rename_i hnone
      rw [enumerate_spec h] at hnone
      cases hnone
    · rw [hrest, List.append_assoc]
      rfl

theorem drain_spec (body : α → σ → σ) {elems : List α} : ∀ {this : PtrArray α} (s : σ),
    this.toList = elems →
      (this.drain body s).1 = elems.foldr body s ∧ (this.drain body s).2.toList = [] := by
  induction elems using List.reverseRecOn with
  | nil =>
    intro this s h
    rw [drain]
    split
    · exact ⟨rfl, h⟩
    · rename_i hsome
      rw [remove_eq_none h] at hsome
      cases hsome
  | append_singleton elems a ih =>
    intro this s h
    have hidx : ARRAY_TAIL = elems.length ∨ ARRAY_TAIL < 0 ∧ ([] : List α) = [] :=
      .inr ⟨by decide, rfl⟩
    obtain ⟨rest, hrest, hlist⟩ := remove_spec h hidx
    rw [List.append_nil] at hlist
    rw [drain]
    split
    · rename_i hnone
      rw [hrest] at hnone
      cases hnone
    · rename_i ptr rest' hsome
      rw [hrest, Option.some.injEq, Prod.mk.injEq] at hsome
      obtain ⟨rfl, rfl⟩ := hsome
      rw [List.foldr_append]
      exact ih (body a s) hlist

theorem sieve_spec (p : α → Bool) (body : α → σ → σ) :
    ∀ {this : PtrArray α} (s : σ), this.toList = l ++ r →
      (this.sieve p body l.length s).1 = (r.filter p).foldl (fun s ptr => body ptr s) s ∧
        (this.sieve p body l.length s).2.toList = l ++ r.filter fun ptr => !p ptr := by
  induction r generalizing l with
  | nil =>
    intro this s h
    have hnone : this.enumerate l.length = none :=
      enumerate_eq_none (by rw [h, List.append_nil])
    rw [sieve]
    split
    · exact ⟨rfl, h⟩
    · rename_i hsome
      rw [hnone] at hsome
      cases hsome
  | cons a r ih =>
    intro this s h
    rw [sieve]
    split
    · rename_i hnone
      rw [enumerate_spec h] at hnone
      cases hnone
    · rename_i ptr hsome
      rw [enumerate_spec h, Option.some.injEq] at hsome
      subst hsome
      cases hp : p a with
      | true =>
        obtain ⟨hlist, hidx⟩ := removeAt_spec h
        rw [if_pos rfl, hidx, List.filter_cons_of_pos hp, List.filter_cons_of_neg (by rw [hp]; decide)]
        exact ih (body a s) hlist
      | false =>
        rw [List.append_cons] at h
        have hrest := ih s h
        rw [List.length_append, List.length_singleton] at hrest
        rw [if_neg Bool.false_ne_true, List.filter_cons_of_neg (by rw [hp]; decide),
          List.filter_cons_of_pos (by rw [hp]; rfl), List.append_cons]
        exact hrest

end PtrArray

end StrongSwan
