import StrongSwan.Basic
import StrongSwan.Collections.PtrArray
import StrongSwan.Lib.Uniform

/-!
# The bytes of arrays

* `Fault`, `moveMemory`, `storeMemory`, `loadMemory`: accesses that have to stay in a block of bytes.
* `RawArray`: `array_t` with its element size, and its operations on the bytes of its block.
* `RawArray.Renders`: the bytes are those of the slots of an `ArrayT`.
* **`RawArray.insert_renders`**, **`RawArray.remove_renders`**, `get_renders`, `compress_renders`: the
  operations on the bytes are those on the slots.
-/

namespace StrongSwan

/-- An access outside of a block, or a counter of 8 bits that wraps. -/
inductive Fault
  | access
  | wrap
  deriving DecidableEq, Repr

/-- `memmove`, of `n` bytes of a block. -/
def moveMemory (data : List (Option U8)) (dst src n : ℕ) : Except Fault (List (Option U8)) :=
  if dst + n ≤ data.length ∧ src + n ≤ data.length then .ok (memmove data dst src n)
  else .error .access

def storeMemory (data : List (Option U8)) (pos : ℕ) (bytes : Chunk) :
    Except Fault (List (Option U8)) :=
  if pos + bytes.length ≤ data.length then
    .ok (data.take pos ++ (bytes.map some ++ data.drop (pos + bytes.length)))
  else .error .access

def loadMemory (data : List (Option U8)) (pos n : ℕ) : Except Fault (List (Option U8)) :=
  if pos + n ≤ data.length then .ok ((data.drop pos).take n) else .error .access

/-- `array_t`; a byte of the block is `none` until it is written. -/
structure RawArray where
  /-- number of elements currently in array (not counting head/tail) -/
  count : ℕ
  /-- size of each element, 0 for a pointer based array -/
  esize : ℕ
  /-- allocated but unused elements at array front -/
  head : ℕ
  /-- allocated but unused elements at array end -/
  tail : ℕ
  /-- array elements -/
  data : List (Option U8)

namespace RawArray

/-- Get the actual size of a number of elements. -/
def getSize (this : RawArray) (num : ℤ) : ℕ :=
  let num := (num % 2 ^ 32).toNat
  -- the size of an element is promoted to 32 bits, that of a pointer is a `size_t`
  if this.esize ≠ 0 then this.esize * num % 2 ^ 32 else 8 * num

/-- Increase allocated but unused tail room to at least `room`. -/
def makeTailRoom (this : RawArray) (room : ℕ) : RawArray :=
  if this.tail < room then
    { this with
      data := realloc this.data (this.getSize (this.count + this.head + room))
      tail := room }
  else this

/-- Increase allocated but unused head room to at least `room`. -/
def makeHeadRoom (this : RawArray) (room : ℕ) : Except Fault RawArray :=
  if this.head < room then do
    let increase := room - this.head
    let data := realloc this.data (this.getSize (this.count + this.tail + room))
    let data ← moveMemory data (this.getSize increase) 0
      (this.getSize (this.count + this.tail + this.head))
    return { this with
      data := data
      head := room }
  else return this

def decrement (counter : ℕ) : Except Fault ℕ :=
  if counter = 0 then .error .wrap else .ok (counter - 1)

def increment (counter : ℕ) : Except Fault ℕ :=
  if counter + 1 = 2 ^ 8 then .error .wrap else .ok (counter + 1)

/-- Make space for an item at index using tail room. -/
def insertTail (this : RawArray) (idx : ℤ) : Except Fault RawArray := do
  let this := this.makeTailRoom 1
  let data ← moveMemory this.data (this.getSize (this.head + idx + 1))
    (this.getSize (this.head + idx)) (this.getSize (this.count - idx))
  let tail ← decrement this.tail
  return { this with
    data := data
    tail := tail
    count := (this.count + 1) % 2 ^ 32 }

/-- Make space for an item at index using head room. -/
def insertHead (this : RawArray) (idx : ℤ) : Except Fault RawArray := do
  let this ← this.makeHeadRoom 1
  let data ← moveMemory this.data (this.getSize (this.head - 1)) (this.getSize this.head)
    (this.getSize idx)
  let head ← decrement this.head
  return { this with
    data := data
    head := head
    count := (this.count + 1) % 2 ^ 32 }

/-- Remove an item, increase tail. -/
def removeTail (this : RawArray) (idx : ℤ) : Except Fault RawArray := do
  let data ← moveMemory this.data (this.getSize (idx + this.head))
    (this.getSize (idx + this.head + 1)) (this.getSize (this.count - 1 - idx))
  let tail ← increment this.tail
  return { this with
    data := data
    count := (this.count + 2 ^ 32 - 1) % 2 ^ 32
    tail := tail }

/-- Remove an item, increase head. -/
def removeHead (this : RawArray) (idx : ℤ) : Except Fault RawArray := do
  let data ← moveMemory this.data (this.getSize (this.head + 1)) (this.getSize this.head)
    (this.getSize idx)
  let head ← increment this.head
  return { this with
    data := data
    count := (this.count + 2 ^ 32 - 1) % 2 ^ 32
    head := head }

def create (esize : ℕ) (reserve : U8) : RawArray :=
  let this : RawArray := ⟨0, esize % 2 ^ 16, 0, reserve.toNat, []⟩
  { this with
    data := if this.tail ≠ 0 then List.replicate (this.getSize this.tail) none else [] }

/-- `array_count`, an `int`. -/
def arrayCount (this : RawArray) : ℤ := (this.count : ℤ).bmod (2 ^ 32)

/-- The bytes without head room, as `array_compress` moves them. -/
def moveToFront (this : RawArray) : Except Fault (List (Option U8)) :=
  if this.head ≠ 0 then
    moveMemory this.data 0 (this.getSize this.head) (this.getSize (this.count + this.tail))
  else .ok this.data

def compress (this : RawArray) : Except Fault RawArray := do
  let data ← this.moveToFront
  if this.tail + this.head ≠ 0 then
    return { this with
      head := 0
      data := realloc data (this.getSize this.count)
      tail := 0 }
  else
    return { this with
      head := 0
      data := data }

/-- Make space for an item at index, on the side that `array_insert` chooses. -/
def makeSpace (this : RawArray) (idx : ℤ) : Except Fault RawArray :=
  if this.head ≠ 0 ∧ this.tail = 0 then this.insertHead idx
  else if this.tail ≠ 0 ∧ this.head = 0 then this.insertTail idx
  else if idx > this.arrayCount.tdiv 2 then this.insertTail idx
  else this.insertHead idx

/-- The bytes once a pointer, or what it points to, is copied to an index. -/
def copyItem (this : RawArray) (idx : ℤ) (ptr pointee : Chunk) : Except Fault (List (Option U8)) :=
  let pos := this.getSize (this.head + idx)
  if this.esize ≠ 0 then
    if this.getSize 1 ≤ pointee.length then
      storeMemory this.data pos (pointee.take (this.getSize 1))
    else .error .access
  else storeMemory this.data pos ptr

/-- `array_insert`, of a pointer or of what it points to. -/
def insert (this : RawArray) (idx : ℤ) (ptr pointee : Chunk) : Except Fault RawArray :=
  if idx < 0 ∨ idx ≤ this.arrayCount then do
    let idx := if idx < 0 then this.arrayCount else idx
    let this ← this.makeSpace idx
    let data ← this.copyItem idx ptr pointee
    return { this with data := data }
  else return this

/-- `array_get`; nothing is copied unless there is a place for it. -/
def get (this : RawArray) (idx : ℤ) (data : Bool) : Except Fault (Option (List (Option U8))) :=
  if 0 ≤ idx ∧ this.arrayCount ≤ idx then return none
  else if idx < 0 ∧ this.arrayCount = 0 then return none
  else do
    let idx := if idx < 0 then this.arrayCount - 1 else idx
    if data then
      let bytes ← loadMemory this.data (this.getSize (this.head + idx)) (this.getSize 1)
      return some bytes
    else return some []

/-- Remove the item at index, on the side that `array_remove` chooses. -/
def takeOut (this : RawArray) (idx : ℤ) : Except Fault RawArray :=
  if idx > this.arrayCount.tdiv 2 then this.removeTail idx else this.removeHead idx

def remove (this : RawArray) (idx : ℤ) (data : Bool) :
    Except Fault (Option (List (Option U8)) × RawArray) := do
  match ← this.get idx data with
  | none => return (none, this)
  | some bytes =>
    let idx := if idx < 0 then this.arrayCount - 1 else idx
    let removed ← this.takeOut idx
    if removed.head + removed.tail > ARRAY_MAX_UNUSED then
      return (some bytes, ← removed.compress)
    else return (some bytes, removed)

/-- `enumerate`, with the bytes at the pointer it returns, and the next index. -/
def enumerate (this : RawArray) (idx : ℕ) : Except Fault (Option (List (Option U8)) × ℕ) :=
  if this.count ≤ idx then return (none, idx)
  else do
    let bytes ← loadMemory this.data (this.getSize (idx + this.head)) (this.getSize 1)
    return (some bytes, idx + 1)

/-- `array_remove_at`, at the index of an enumerator. -/
def removeAt (this : RawArray) (idx : ℕ) : Except Fault (RawArray × ℕ) :=
  if idx ≠ 0 then do
    let (_, this) ← this.remove (idx - 1) false
    return (this, idx - 1)
  else return (this, idx)

structure Element (n : ℕ) where
  bytes : Chunk
  length_eq : bytes.length = n

variable {n cap : ℕ}

/-- The bytes of a slot. -/
def cells : Option (Element n) → List (Option U8)
  | none => List.replicate n none
  | some e => e.bytes.map some

theorem length_cells (slot : Option (Element n)) : (cells slot).length = n := by
  cases slot with
  | none => exact List.length_replicate
  | some e => exact (List.length_map _).trans e.length_eq

/-- The counters and the bytes are those of an array of slots. -/
structure Renders (this : RawArray) (slots : ArrayT (Element n)) : Prop where
  count_eq : this.count = slots.count
  head_eq : this.head = slots.head
  tail_eq : this.tail = slots.tail
  data_eq : this.data = slots.data.flatMap cells

/-- Sizes of up to `cap` elements of `n` bytes do not overflow. -/
def Exact (esize n cap : ℕ) : Prop :=
  ∀ this : RawArray, this.esize = esize → ∀ k : ℕ, k ≤ cap → this.getSize k = n * k

theorem Exact.eq {esize : ℕ} (h : Exact esize n cap) {this : RawArray} (hesize : this.esize = esize)
    {m : ℤ} {k : ℕ} (hm : m = k) (hk : k ≤ cap) : this.getSize m = n * k := by
  rw [hm]
  exact h this hesize k hk

theorem Exact.mono {esize cap' : ℕ} (h : Exact esize n cap) (hcap : cap' ≤ cap) :
    Exact esize n cap' :=
  fun this hesize k hk => h this hesize k (hk.trans hcap)

theorem exact_of_pos {esize : ℕ} (hpos : esize ≠ 0) (hlt : esize * cap < 2 ^ 32) :
    Exact esize esize cap := by
  intro this hesize k hk
  have hle : esize * k ≤ esize * cap := Nat.mul_le_mul_left _ hk
  have hone : 1 * k ≤ esize * k := Nat.mul_le_mul_right _ (Nat.one_le_iff_ne_zero.mpr hpos)
  have hnum : ((k : ℤ) % 2 ^ 32).toNat = k := by omega
  rw [getSize, hnum, hesize, if_pos hpos]
  exact Nat.mod_eq_of_lt (by omega)

theorem exact_zero (hlt : cap < 2 ^ 32) : Exact 0 8 cap := by
  intro this hesize k hk
  have hnum : ((k : ℤ) % 2 ^ 32).toNat = k := by omega
  rw [getSize, hnum, hesize]
  rfl

variable {xs : List (Option (Element n))}

theorem moveMemory_cells {dst src k : ℕ}
    (hdst : dst + k ≤ xs.length) (hsrc : src + k ≤ xs.length) :
    moveMemory (xs.flatMap cells) (n * dst) (n * src) (n * k) =
      .ok ((memmove xs dst src k).flatMap cells) := by
  have hin : n * dst + n * k ≤ (xs.flatMap cells).length ∧
      n * src + n * k ≤ (xs.flatMap cells).length := by
    rw [Uniform.length_flatMap length_cells, ← Nat.mul_add, ← Nat.mul_add]
    exact ⟨Nat.mul_le_mul_left _ hdst, Nat.mul_le_mul_left _ hsrc⟩
  rw [moveMemory, if_pos hin, memmove, memmove, ← Nat.mul_add, Uniform.take_flatMap length_cells,
    Uniform.drop_flatMap length_cells, Uniform.take_flatMap length_cells,
    Uniform.drop_flatMap length_cells, List.flatMap_append, List.flatMap_append]

theorem realloc_cells (xs : List (Option (Element n))) (k : ℕ) :
    realloc (xs.flatMap cells) (n * k) = (realloc xs k).flatMap cells := by
  rw [realloc, realloc, List.flatMap_append, Uniform.take_flatMap length_cells,
    Uniform.length_flatMap length_cells, ← Nat.mul_sub,
    Uniform.replicate_flatMap (f := cells) (a := none) rfl]

theorem storeMemory_cells {k : ℕ} (hk : k < xs.length)
    (e : Element n) :
    storeMemory (xs.flatMap cells) (n * k) e.bytes = .ok ((xs.set k (some e)).flatMap cells) := by
  have hin : n * k + e.bytes.length ≤ (xs.flatMap cells).length := by
    rw [Uniform.length_flatMap length_cells, e.length_eq, ← Nat.mul_succ]
    exact Nat.mul_le_mul_left _ hk
  rw [storeMemory, if_pos hin, Uniform.set_flatMap length_cells hk, e.length_eq]
  rfl

theorem loadMemory_cells {k : ℕ} {slot : Option (Element n)}
    (h : xs[k]? = some slot) : loadMemory (xs.flatMap cells) (n * k) n = .ok (cells slot) := by
  obtain ⟨hk, -⟩ := List.getElem?_eq_some_iff.mp h
  have hin : n * k + n ≤ (xs.flatMap cells).length := by
    rw [Uniform.length_flatMap length_cells, ← Nat.mul_succ]
    exact Nat.mul_le_mul_left _ hk
  rw [loadMemory, if_pos hin, Uniform.getElem_flatMap length_cells h]

variable {this : RawArray} {slots : ArrayT (Element n)} {elems : List (Element n)}

theorem moveMemory_getSize (hexact : Exact this.esize n cap) (hcap : xs.length ≤ cap) {a b c : ℤ}
    {dst src k : ℕ} (ha : a = dst) (hb : b = src) (hc : c = k) (hdst : dst + k ≤ xs.length)
    (hsrc : src + k ≤ xs.length) :
    moveMemory (xs.flatMap cells) (this.getSize a) (this.getSize b) (this.getSize c) =
      .ok ((memmove xs dst src k).flatMap cells) := by
  rw [hexact.eq rfl ha (by omega), hexact.eq rfl hb (by omega), hexact.eq rfl hc (by omega)]
  exact moveMemory_cells hdst hsrc

theorem length_of_holds (h : slots.Holds elems) :
    slots.data.length = slots.head + slots.count + slots.tail := by
  obtain ⟨front, back, hdata, hfront, hcount, hback⟩ := h
  rw [hdata, List.length_append, List.length_append, List.length_map]
  omega

theorem makeTailRoom_renders (h : Renders this slots) (hexact : Exact this.esize n cap)
    (hroom : slots.tail = 0 → slots.head + slots.count + 1 ≤ cap) :
    Renders (this.makeTailRoom 1) (slots.makeTailRoom 1) ∧
      (this.makeTailRoom 1).esize = this.esize := by
  rw [makeTailRoom, ArrayT.makeTailRoom, h.tail_eq]
  split_ifs with htail
  · refine ⟨⟨h.count_eq, h.head_eq, rfl, ?_⟩, rfl⟩
    have hcap := hroom (by omega)
    show realloc this.data _ = (realloc slots.data (slots.count + slots.head + 1)).flatMap cells
    rw [h.data_eq, hexact.eq rfl (k := slots.count + slots.head + 1)
      (by rw [h.count_eq, h.head_eq]; push_cast; rfl) (by omega), realloc_cells]
  · exact ⟨h, rfl⟩

theorem insertTail_renders (h : Renders this slots) (hslots : slots.Holds elems)
    (hexact : Exact this.esize n cap) (hcap : slots.head + slots.count + slots.tail ≤ cap)
    (hroom : slots.tail = 0 → slots.head + slots.count + 1 ≤ cap) (hcount : slots.count + 1 < 2 ^ 32)
    {i : ℕ} (hi : i ≤ slots.count) :
    ∃ next, this.insertTail i = .ok next ∧ Renders next (slots.insertTail i) ∧
      next.esize = this.esize ∧ (slots.insertTail i).head + (slots.insertTail i).count +
        (slots.insertTail i).tail ≤ cap := by
  obtain ⟨hr, hesize⟩ := makeTailRoom_renders h hexact hroom
  obtain ⟨hheld, htail⟩ := ArrayT.holds_makeTailRoom hslots
  have hlen := length_of_holds hheld
  have hfields : (slots.makeTailRoom 1).head = slots.head ∧
      (slots.makeTailRoom 1).count = slots.count ∧
      (slots.makeTailRoom 1).head + (slots.makeTailRoom 1).count + (slots.makeTailRoom 1).tail ≤
        cap := by
    rw [ArrayT.makeTailRoom]
    split_ifs with hlt
    · exact ⟨rfl, rfl, hroom (by omega)⟩
    · exact ⟨rfl, rfl, hcap⟩
  obtain ⟨hhead, hcounts, hle⟩ := hfields
  unfold insertTail ArrayT.insertTail
  generalize this.makeTailRoom 1 = room at *
  generalize slots.makeTailRoom 1 = sroom at *
  have hmove : moveMemory room.data (room.getSize (room.head + i + 1)) (room.getSize (room.head + i))
      (room.getSize (room.count - i)) =
        .ok ((memmove sroom.data (sroom.head + i + 1) (sroom.head + i)
          (sroom.count - i)).flatMap cells) := by
    have := hr.head_eq
    have := hr.count_eq
    rw [hr.data_eq]
    exact moveMemory_getSize (hesize ▸ hexact) (by omega) (by omega) (by omega) (by omega) (by omega)
      (by omega)
  have hdec : decrement room.tail = .ok (sroom.tail - 1) := by
    rw [decrement, hr.tail_eq, if_neg htail.ne']
  refine ⟨{ room with
    data := (memmove sroom.data (sroom.head + i + 1) (sroom.head + i) (sroom.count - i)).flatMap cells
    tail := sroom.tail - 1
    count := (room.count + 1) % 2 ^ 32 }, ?_, ⟨?_, hr.head_eq, rfl, rfl⟩, hesize, ?_⟩
  · show (moveMemory _ _ _ _ >>= _) = _
    rw [hmove]
    show (decrement _ >>= _) = _
    rw [hdec]
    rfl
  · show (room.count + 1) % 2 ^ 32 = sroom.count + 1
    rw [hr.count_eq]
    exact Nat.mod_eq_of_lt (by omega)
  · show sroom.head + (sroom.count + 1) + (sroom.tail - 1) ≤ cap
    omega

theorem length_realloc {α : Type} (xs : List (Option α)) (k : ℕ) : (realloc xs k).length = k := by
  rw [realloc, List.length_append, List.length_take, List.length_replicate]
  omega

theorem makeHeadRoom_renders (h : Renders this slots) (hexact : Exact this.esize n cap)
    (hroom : slots.head = 0 → slots.count + slots.tail + 1 ≤ cap) :
    ∃ room, this.makeHeadRoom 1 = .ok room ∧ Renders room (slots.makeHeadRoom 1) ∧
      room.esize = this.esize := by
  rw [makeHeadRoom, ArrayT.makeHeadRoom, h.head_eq]
  split_ifs with hhead
  · have hcap := hroom (by omega)
    have hmove : moveMemory (realloc this.data (this.getSize (this.count + this.tail + (1 : ℕ))))
        (this.getSize ((1 - slots.head : ℕ) : ℤ)) 0
        (this.getSize (this.count + this.tail + this.head)) =
          .ok ((memmove (realloc slots.data (slots.count + slots.tail + 1)) (1 - slots.head) 0
            (slots.count + slots.tail + slots.head)).flatMap cells) := by
      rw [hexact.eq rfl (k := slots.count + slots.tail + 1)
          (by rw [h.count_eq, h.tail_eq]; push_cast; rfl) (by omega),
        hexact.eq rfl (m := ((1 - slots.head : ℕ) : ℤ)) rfl (by omega),
        hexact.eq rfl (k := slots.count + slots.tail + slots.head)
          (by rw [h.count_eq, h.tail_eq, h.head_eq]; push_cast; rfl) (by omega), h.data_eq, realloc_cells, ← Nat.mul_zero n]
      exact moveMemory_cells (by rw [length_realloc]; omega) (by rw [length_realloc]; omega)
    refine ⟨{ this with
      data := (memmove (realloc slots.data (slots.count + slots.tail + 1)) (1 - slots.head) 0
        (slots.count + slots.tail + slots.head)).flatMap cells
      head := 1 }, ?_, ⟨h.count_eq, rfl, h.tail_eq, rfl⟩, rfl⟩
    rw [← h.head_eq] at hmove ⊢
    show (moveMemory _ _ _ _ >>= _) = _
    rw [hmove]
    rfl
  · exact ⟨this, rfl, h, rfl⟩

theorem insertHead_renders (h : Renders this slots) (hslots : slots.Holds elems)
    (hexact : Exact this.esize n cap) (hcap : slots.head + slots.count + slots.tail ≤ cap)
    (hroom : slots.head = 0 → slots.count + slots.tail + 1 ≤ cap) (hcount : slots.count + 1 < 2 ^ 32)
    {i : ℕ} (hi : i ≤ slots.count) :
    ∃ next, this.insertHead i = .ok next ∧ Renders next (slots.insertHead i) ∧
      next.esize = this.esize ∧ (slots.insertHead i).head + (slots.insertHead i).count +
        (slots.insertHead i).tail ≤ cap := by
  obtain ⟨room, hmade, hr, hesize⟩ := makeHeadRoom_renders h hexact hroom
  obtain ⟨hheld, hhead⟩ := ArrayT.holds_makeHeadRoom hslots
  have hlen := length_of_holds hheld
  have hfields : (slots.makeHeadRoom 1).count = slots.count ∧
      (slots.makeHeadRoom 1).head + (slots.makeHeadRoom 1).count + (slots.makeHeadRoom 1).tail ≤
        cap := by
    rw [ArrayT.makeHeadRoom]
    split_ifs with hlt
    · have hle := hroom (by omega)
      refine ⟨rfl, ?_⟩
      show 1 + slots.count + slots.tail ≤ cap
      omega
    · exact ⟨rfl, hcap⟩
  obtain ⟨hcounts, hle⟩ := hfields
  unfold insertHead ArrayT.insertHead
  rw [hmade]
  clear hmade
  generalize slots.makeHeadRoom 1 = sroom at *
  have hmove : moveMemory room.data (room.getSize (room.head - 1)) (room.getSize room.head)
      (room.getSize i) = .ok ((memmove sroom.data (sroom.head - 1) sroom.head i).flatMap cells) := by
    have := hr.head_eq
    rw [hr.data_eq]
    exact moveMemory_getSize (hesize ▸ hexact) (by omega) (by omega) (by omega) rfl (by omega)
      (by omega)
  have hdec : decrement room.head = .ok (sroom.head - 1) := by
    rw [decrement, hr.head_eq, if_neg hhead.ne']
  refine ⟨{ room with
    data := (memmove sroom.data (sroom.head - 1) sroom.head i).flatMap cells
    head := sroom.head - 1
    count := (room.count + 1) % 2 ^ 32 }, ?_, ⟨?_, rfl, hr.tail_eq, rfl⟩, hesize, ?_⟩
  · show (moveMemory _ _ _ _ >>= _) = _
    rw [hmove]
    show (decrement _ >>= _) = _
    rw [hdec]
    rfl
  · show (room.count + 1) % 2 ^ 32 = sroom.count + 1
    rw [hr.count_eq]
    exact Nat.mod_eq_of_lt (by omega)
  · show sroom.head - 1 + (sroom.count + 1) + sroom.tail ≤ cap
    omega

theorem arrayCount_eq (h : this.count < 2 ^ 31) : this.arrayCount = this.count :=
  Int.bmod_eq_of_le (by omega) (by omega)

variable {l r : List (Element n)}

theorem length_of_gap (h : slots.Gap l r) :
    slots.data.length = slots.head + slots.count + slots.tail := by
  obtain ⟨front, slot, back, hdata, hfront, hcount, hback⟩ := h
  rw [List.length_append] at hcount
  rw [hdata, List.length_append, List.length_append, List.length_cons, List.length_append,
    List.length_map, List.length_map]
  omega

/-- What `array_insert` copies. -/
def Copied (this : RawArray) (ptr pointee : Chunk) (e : Element n) : Prop :=
  if this.esize ≠ 0 then n ≤ pointee.length ∧ pointee.take n = e.bytes else ptr = e.bytes

variable {e : Element n}

theorem store_renders (h : Renders this slots) (hslots : slots.Gap l r)
    (hexact : Exact this.esize n cap) (hcap : slots.head + slots.count + slots.tail ≤ cap)
    {ptr pointee : Chunk} (he : this.Copied ptr pointee e) :
    this.copyItem l.length ptr pointee =
      .ok ((slots.data.set (slots.head + l.length) (some e)).flatMap cells) := by
  have hcount : slots.count = (l ++ r).length + 1 := by
    obtain ⟨-, -, -, -, -, hcount, -⟩ := hslots
    exact hcount
  rw [List.length_append] at hcount
  have hone : this.getSize 1 = n := by
    rw [hexact.eq rfl Nat.cast_one.symm (by omega), Nat.mul_one]
  have hlen := length_of_gap hslots
  have hstore : storeMemory this.data (this.getSize (this.head + l.length)) e.bytes =
      .ok ((slots.data.set (slots.head + l.length) (some e)).flatMap cells) := by
    rw [hexact.eq rfl (k := slots.head + l.length) (by rw [h.head_eq]; push_cast; rfl) (by omega),
      h.data_eq]
    exact storeMemory_cells (by omega) e
  rw [copyItem]
  rw [Copied] at he
  split_ifs at he ⊢ with hesize hshort
  · rw [hone, he.2, hstore]
  · exact absurd (hone ▸ he.1) hshort
  · rw [he, hstore]

theorem makeSpace_renders (h : Renders this slots)
    (hslots : slots.Holds (l ++ r)) (hexact : Exact this.esize n cap)
    (hcap : slots.head + slots.count + slots.tail ≤ cap)
    (hroom : slots.head = 0 → slots.tail = 0 → slots.count + 1 ≤ cap)
    (hcount : slots.count + 1 < 2 ^ 31) :
    ∃ made smade, this.makeSpace l.length = .ok made ∧
      (if slots.head ≠ 0 ∧ slots.tail = 0 then slots.insertHead l.length
        else if slots.tail ≠ 0 ∧ slots.head = 0 then slots.insertTail l.length
        else if l.length > slots.count / 2 then slots.insertTail l.length
        else slots.insertHead l.length) = smade ∧
      Renders made smade ∧ made.esize = this.esize ∧
      smade.head + smade.count + smade.tail ≤ cap ∧ smade.Gap l r := by
  have hlen : slots.count = (l ++ r).length := by
    obtain ⟨-, -, -, -, hlen, -⟩ := hslots
    exact hlen
  rw [List.length_append] at hlen
  have hhalf : ((l.length : ℤ) > (slots.count : ℤ).tdiv 2) = (l.length > slots.count / 2) := by
    rw [Int.tdiv_eq_ediv_of_nonneg (Int.natCast_nonneg _), eq_iff_iff]
    omega
  have htailed (hroom : slots.tail = 0 → slots.head + slots.count + 1 ≤ cap) :=
    insertTail_renders h hslots hexact hcap hroom (by omega) (show l.length ≤ slots.count by omega)
  have hheaded (hroom : slots.head = 0 → slots.count + slots.tail + 1 ≤ cap) :=
    insertHead_renders h hslots hexact hcap hroom (by omega) (show l.length ≤ slots.count by omega)
  rw [makeSpace, arrayCount_eq (by rw [h.count_eq]; omega), h.count_eq, h.head_eq, h.tail_eq]
  simp only [hhalf]
  split_ifs with hfront hback hupper
  · have hroomed : slots.head = 0 → slots.count + slots.tail + 1 ≤ cap := by
      intro hzero
      exact absurd hzero hfront.1
    obtain ⟨made, hmade, hr, hesize, hle⟩ := hheaded hroomed
    exact ⟨made, _, hmade, rfl, hr, hesize, hle, ArrayT.gap_insertHead hslots⟩
  · have hroomed : slots.tail = 0 → slots.head + slots.count + 1 ≤ cap := by
      intro hzero
      exact absurd hzero hback.1
    obtain ⟨made, hmade, hr, hesize, hle⟩ := htailed hroomed
    exact ⟨made, _, hmade, rfl, hr, hesize, hle, ArrayT.gap_insertTail hslots⟩
  · have hroomed : slots.tail = 0 → slots.head + slots.count + 1 ≤ cap := by
      intro hzero
      have hhead : slots.head = 0 := by
        by_contra hne
        exact hfront ⟨hne, hzero⟩
      have := hroom hhead hzero
      omega
    obtain ⟨made, hmade, hr, hesize, hle⟩ := htailed hroomed
    exact ⟨made, _, hmade, rfl, hr, hesize, hle, ArrayT.gap_insertTail hslots⟩
  · have hroomed : slots.head = 0 → slots.count + slots.tail + 1 ≤ cap := by
      intro hzero
      have htail : slots.tail = 0 := by
        by_contra hne
        exact hback ⟨hne, hzero⟩
      have := hroom hzero htail
      omega
    obtain ⟨made, hmade, hr, hesize, hle⟩ := hheaded hroomed
    exact ⟨made, _, hmade, rfl, hr, hesize, hle, ArrayT.gap_insertHead hslots⟩

theorem insert_renders (h : Renders this slots) (hslots : slots.Holds elems)
    (hexact : Exact this.esize n cap) (hcap : slots.head + slots.count + slots.tail ≤ cap)
    (hroom : slots.head = 0 → slots.tail = 0 → slots.count + 1 ≤ cap)
    (hcount : slots.count + 1 < 2 ^ 31) (idx : ℤ) {ptr pointee : Chunk}
    (he : this.Copied ptr pointee e) :
    ∃ next, this.insert idx ptr pointee = .ok next ∧ Renders next (slots.insert idx e) ∧
      next.esize = this.esize ∧ (slots.insert idx e).head + (slots.insert idx e).count +
        (slots.insert idx e).tail ≤ cap := by
  rw [insert, ArrayT.insert, arrayCount_eq (by rw [h.count_eq]; omega), h.count_eq]
  by_cases hidx : idx < 0 ∨ idx ≤ slots.count
  · rw [if_pos hidx, if_pos hidx]
    obtain ⟨i, hi, hat, hat'⟩ : ∃ i : ℕ, i ≤ slots.count ∧
        (if idx < 0 then slots.count else idx.toNat) = i ∧
        (if idx < 0 then (slots.count : ℤ) else idx) = i := by
      refine ⟨_, ?_, rfl, ?_⟩ <;> split_ifs <;> omega
    rw [hat, hat']
    have hlen : elems.length = slots.count := by
      obtain ⟨-, -, -, -, hlen, -⟩ := hslots
      exact hlen.symm
    have hsplit : slots.Holds (elems.take i ++ elems.drop i) := by
      rw [List.take_append_drop]
      exact hslots
    have hleft : (elems.take i).length = i := List.length_take_of_le (by omega)
    obtain ⟨made, smade, hmade, hsmade, hr, hesize, hle, hgap⟩ :=
      makeSpace_renders h hsplit hexact hcap hroom hcount
    have hcopied : made.Copied ptr pointee e := by
      rw [Copied, hesize]
      exact he
    have hstore := store_renders hr hgap (hesize ▸ hexact) hle hcopied
    rw [hleft] at hmade hsmade hstore
    dsimp only
    rw [hmade, hsmade]
    refine ⟨{ made with
      data := (smade.data.set (smade.head + i) (some e)).flatMap cells }, ?_,
      ⟨hr.count_eq, hr.head_eq, hr.tail_eq, rfl⟩, hesize, hle⟩
    show (made.copyItem i ptr pointee >>= _) = _
    rw [hstore]
    rfl
  · rw [if_neg hidx, if_neg hidx]
    exact ⟨this, rfl, h, rfl, hcap⟩

/-- What `array_get` copies. -/
def copied (data : Bool) (e : Element n) : List (Option U8) := if data then e.bytes.map some else []

theorem get_of_count_le (hcount : this.count < 2 ^ 31) {idx : ℤ} (data : Bool)
    (hidx : 0 ≤ idx ∧ this.count ≤ idx ∨ idx < 0 ∧ this.count = 0) :
    this.get idx data = .ok none := by
  rw [get, arrayCount_eq hcount]
  rcases hidx with hle | ⟨hneg, hzero⟩
  · rw [if_pos hle]
    rfl
  · rw [if_neg (by omega), if_pos ⟨hneg, by rw [hzero]; rfl⟩]
    rfl

theorem slot_of_holds (h : slots.Holds (l ++ e :: r)) :
    slots.data[slots.head + l.length]? = some (some e) := by
  obtain ⟨front, back, hdata, hfront, -, -⟩ := h
  rw [hdata, ← hfront, List.getElem?_append_right (Nat.le_add_right _ _), Nat.add_sub_cancel_left,
    List.map_append, List.append_assoc, List.getElem?_append_right (by rw [List.length_map]),
    List.length_map, Nat.sub_self]
  rfl

theorem load_renders (h : Renders this slots)
    (hslots : slots.Holds (l ++ e :: r)) (hexact : Exact this.esize n cap)
    (hcap : slots.head + slots.count + slots.tail ≤ cap) {m : ℤ}
    (hm : m = (slots.head + l.length : ℕ)) :
    loadMemory this.data (this.getSize m) (this.getSize 1) = .ok (e.bytes.map some) := by
  have hcount : slots.count = (l ++ e :: r).length := by
    obtain ⟨-, -, -, -, hcount, -⟩ := hslots
    exact hcount
  rw [List.length_append, List.length_cons] at hcount
  rw [hexact.eq rfl hm (by omega), hexact.eq rfl Nat.cast_one.symm (by omega), Nat.mul_one, h.data_eq]
  exact loadMemory_cells (slot_of_holds hslots)

theorem get_renders (h : Renders this slots)
    (hslots : slots.Holds (l ++ e :: r)) (hexact : Exact this.esize n cap)
    (hcap : slots.head + slots.count + slots.tail ≤ cap) (hlt : slots.count < 2 ^ 31) {idx : ℤ}
    (hidx : idx = l.length ∨ idx < 0 ∧ r = []) (data : Bool) :
    this.get idx data = .ok (some (copied data e)) := by
  have hcount : slots.count = l.length + (r.length + 1) := by
    obtain ⟨-, -, -, -, hcount, -⟩ := hslots
    rw [hcount, List.length_append, List.length_cons]
  have hat : (if idx < 0 then (slots.count : ℤ) - 1 else idx) = l.length := by
    rcases hidx with rfl | ⟨hneg, rfl⟩
    · exact if_neg (by omega)
    · rw [if_pos hneg, hcount, List.length_nil]
      omega
  have hload := load_renders h hslots hexact hcap (m := slots.head + l.length) (by push_cast; rfl)
  rw [get, arrayCount_eq (by rw [h.count_eq]; exact hlt), h.count_eq, if_neg (by omega),
    if_neg (by omega), hat, h.head_eq]
  cases data with
  | false => rfl
  | true =>
    show (loadMemory _ _ _ >>= _) = _
    rw [hload]
    rfl

/-- The counters of 8 bits have place for one more. -/
def Roomy (slots : ArrayT (Element n)) : Prop :=
  slots.head + slots.tail ≤ ARRAY_MAX_UNUSED ∨ slots.head = 0 ∧ slots.tail + slots.count < 2 ^ 8

theorem removeTail_renders (h : Renders this slots)
    (hslots : slots.Holds (l ++ e :: r)) (hexact : Exact this.esize n cap)
    (hcap : slots.head + slots.count + slots.tail ≤ cap) (hlt : slots.count < 2 ^ 31)
    (hroomy : Roomy slots) :
    ∃ next, this.removeTail l.length = .ok next ∧ Renders next (slots.removeTail l.length) ∧
      next.esize = this.esize := by
  have hcount : slots.count = l.length + (r.length + 1) := by
    obtain ⟨-, -, -, -, hcount, -⟩ := hslots
    rw [hcount, List.length_append, List.length_cons]
  have hlen := length_of_holds hslots
  have hmove : moveMemory this.data (this.getSize (l.length + this.head))
      (this.getSize (l.length + this.head + 1)) (this.getSize (this.count - 1 - l.length)) =
        .ok ((memmove slots.data (l.length + slots.head) (l.length + slots.head + 1)
          (slots.count - 1 - l.length)).flatMap cells) := by
    have := h.head_eq
    have := h.count_eq
    rw [h.data_eq]
    exact moveMemory_getSize hexact (by omega) (by omega) (by omega) (by omega) (by omega) (by omega)
  have hinc : increment this.tail = .ok (slots.tail + 1) := by
    have hmax : ARRAY_MAX_UNUSED = 32 := rfl
    rw [increment, h.tail_eq, if_neg]
    rcases hroomy with hle | ⟨-, hle⟩ <;> omega
  refine ⟨{ this with
    data := (memmove slots.data (l.length + slots.head) (l.length + slots.head + 1)
      (slots.count - 1 - l.length)).flatMap cells
    count := (this.count + 2 ^ 32 - 1) % 2 ^ 32
    tail := slots.tail + 1 }, ?_, ⟨?_, h.head_eq, rfl, rfl⟩, rfl⟩
  · show (moveMemory _ _ _ _ >>= _) = _
    rw [hmove]
    show (increment _ >>= _) = _
    rw [hinc]
    rfl
  · show (this.count + 2 ^ 32 - 1) % 2 ^ 32 = slots.count - 1
    rw [h.count_eq]
    omega

theorem removeHead_renders (h : Renders this slots)
    (hslots : slots.Holds (l ++ e :: r)) (hexact : Exact this.esize n cap)
    (hcap : slots.head + slots.count + slots.tail ≤ cap) (hlt : slots.count < 2 ^ 31)
    (hroomy : Roomy slots) :
    ∃ next, this.removeHead l.length = .ok next ∧ Renders next (slots.removeHead l.length) ∧
      next.esize = this.esize := by
  have hcount : slots.count = l.length + (r.length + 1) := by
    obtain ⟨-, -, -, -, hcount, -⟩ := hslots
    rw [hcount, List.length_append, List.length_cons]
  have hlen := length_of_holds hslots
  have hmove : moveMemory this.data (this.getSize (this.head + 1)) (this.getSize this.head)
      (this.getSize l.length) =
        .ok ((memmove slots.data (slots.head + 1) slots.head l.length).flatMap cells) := by
    have := h.head_eq
    rw [h.data_eq]
    exact moveMemory_getSize hexact (by omega) (by omega) (by omega) rfl (by omega) (by omega)
  have hinc : increment this.head = .ok (slots.head + 1) := by
    have hmax : ARRAY_MAX_UNUSED = 32 := rfl
    rw [increment, h.head_eq, if_neg]
    rcases hroomy with hle | ⟨hzero, -⟩ <;> omega
  refine ⟨{ this with
    data := (memmove slots.data (slots.head + 1) slots.head l.length).flatMap cells
    count := (this.count + 2 ^ 32 - 1) % 2 ^ 32
    head := slots.head + 1 }, ?_, ⟨?_, rfl, h.tail_eq, rfl⟩, rfl⟩
  · show (moveMemory _ _ _ _ >>= _) = _
    rw [hmove]
    show (increment _ >>= _) = _
    rw [hinc]
    rfl
  · show (this.count + 2 ^ 32 - 1) % 2 ^ 32 = slots.count - 1
    rw [h.count_eq]
    omega

theorem compress_renders (h : Renders this slots) (hslots : slots.Holds elems)
    (hexact : Exact this.esize n cap) (hcap : slots.head + slots.count + slots.tail ≤ cap) :
    ∃ next, this.compress = .ok next ∧ Renders next slots.compress ∧ next.esize = this.esize := by
  have hlen := length_of_holds hslots
  have hmove : this.moveToFront =
        .ok ((if slots.head ≠ 0 then memmove slots.data 0 slots.head (slots.count + slots.tail)
          else slots.data).flatMap cells) := by
    rw [moveToFront, h.head_eq]
    split_ifs
    · have := h.count_eq
      have := h.tail_eq
      rw [hexact.eq rfl (k := slots.head) rfl (by omega),
        hexact.eq rfl (k := slots.count + slots.tail) (by omega) (by omega), h.data_eq, ← Nat.mul_zero n]
      exact moveMemory_cells (by omega) (by omega)
    · rw [h.data_eq]
  rw [compress, ArrayT.compress, hmove]
  generalize (if slots.head ≠ 0 then memmove slots.data 0 slots.head (slots.count + slots.tail)
    else slots.data) = data
  by_cases hunused : slots.tail + slots.head ≠ 0
  · refine ⟨{ this with
      head := 0
      data := (realloc data slots.count).flatMap cells
      tail := 0 }, ?_, ?_, rfl⟩
    · show (if this.tail + this.head ≠ 0 then _ else _) = _
      rw [h.tail_eq, h.head_eq, if_pos hunused,
        hexact.eq rfl (k := slots.count) (by rw [h.count_eq]) (by omega), realloc_cells]
      rfl
    · rw [if_pos hunused]
      exact ⟨h.count_eq, rfl, rfl, rfl⟩
  · refine ⟨{ this with
      head := 0
      data := data.flatMap cells }, ?_, ?_, rfl⟩
    · show (if this.tail + this.head ≠ 0 then _ else _) = _
      rw [h.tail_eq, h.head_eq, if_neg hunused]
      rfl
    · rw [if_neg hunused]
      exact ⟨h.count_eq, rfl, h.tail_eq, rfl⟩

theorem remove_renders (h : Renders this slots)
    (hslots : slots.Holds (l ++ e :: r)) (hexact : Exact this.esize n cap)
    (hcap : slots.head + slots.count + slots.tail ≤ cap) (hlt : slots.count < 2 ^ 31)
    (hroomy : Roomy slots) {idx : ℤ} (hidx : idx = l.length ∨ idx < 0 ∧ r = []) (data : Bool) :
    ∃ next rest, this.remove idx data = .ok (some (copied data e), next) ∧
      slots.remove idx = some (some e, rest) ∧ Renders next rest ∧ next.esize = this.esize ∧
      rest.head + rest.count + rest.tail ≤ cap := by
  have hcount : slots.count = l.length + (r.length + 1) := by
    obtain ⟨-, -, -, -, hcount, -⟩ := hslots
    rw [hcount, List.length_append, List.length_cons]
  have hint : this.arrayCount = slots.count := by
    rw [arrayCount_eq (by rw [h.count_eq]; exact hlt), h.count_eq]
  have hat : (if idx < 0 then slots.count - 1 else idx.toNat) = l.length := by
    rcases hidx with rfl | ⟨hneg, rfl⟩
    · rw [if_neg (by omega), Int.toNat_natCast]
    · rw [if_pos hneg, hcount]
      rfl
  have hat' : (if idx < 0 then (slots.count : ℤ) - 1 else idx) = l.length := by
    rcases hidx with rfl | ⟨hneg, rfl⟩
    · exact if_neg (by omega)
    · rw [if_pos hneg, hcount, List.length_nil]
      omega
  have hhalf : ((l.length : ℤ) > (slots.count : ℤ).tdiv 2) = (l.length > slots.count / 2) := by
    rw [Int.tdiv_eq_ediv_of_nonneg (Int.natCast_nonneg _), eq_iff_iff]
    omega
  obtain ⟨removed, sremoved, hremoved, hsremoved, hr, hesize, hheld, hle⟩ : ∃ removed sremoved,
      this.takeOut l.length = .ok removed ∧
      (if l.length > slots.count / 2 then slots.removeTail l.length
        else slots.removeHead l.length) = sremoved ∧
      Renders removed sremoved ∧ removed.esize = this.esize ∧ sremoved.Holds (l ++ r) ∧
      sremoved.head + sremoved.count + sremoved.tail ≤ cap := by
    rw [takeOut, hint]
    simp only [hhalf]
    split_ifs
    · obtain ⟨removed, hremoved, hr, hesize⟩ :=
        removeTail_renders h hslots hexact hcap hlt hroomy
      refine ⟨removed, _, hremoved, rfl, hr, hesize, ArrayT.holds_removeTail hslots, ?_⟩
      show slots.head + (slots.count - 1) + (slots.tail + 1) ≤ cap
      omega
    · obtain ⟨removed, hremoved, hr, hesize⟩ :=
        removeHead_renders h hslots hexact hcap hlt hroomy
      refine ⟨removed, _, hremoved, rfl, hr, hesize, ArrayT.holds_removeHead hslots, ?_⟩
      show slots.head + 1 + (slots.count - 1) + slots.tail ≤ cap
      omega
  unfold remove ArrayT.remove
  rw [get_renders h hslots hexact hcap hlt hidx, ArrayT.get_of_holds hslots hidx]
  dsimp only [bind, Except.bind]
  rw [hint, hat, hat', hsremoved, hremoved]
  dsimp only
  rw [hr.head_eq, hr.tail_eq]
  split_ifs with hmax
  · obtain ⟨next, hnext, hrn, hesizen⟩ := compress_renders hr hheld (hesize ▸ hexact) hle
    refine ⟨next, sremoved.compress, ?_, rfl, hrn, hesizen.trans hesize, ?_⟩
    · rw [hnext]
      rfl
    · have hunused := ArrayT.unused_compress sremoved
      have hcompressed : sremoved.compress.count = sremoved.count := by
        rw [ArrayT.compress]
        split_ifs <;> rfl
      omega
  · exact ⟨removed, sremoved, rfl, rfl, hr, hesize, hle⟩

theorem roomy_insert (h : Roomy slots) (idx : ℤ) (e : Element n) : Roomy (slots.insert idx e) := by
  rcases h with hle | ⟨hhead, hle⟩
  · exact .inl (ArrayT.unused_insert hle idx e)
  · by_cases htail : slots.tail = 0
    · refine .inl (ArrayT.unused_insert ?_ idx e)
      rw [hhead, htail]
      exact Nat.zero_le _
    · refine .inr ?_
      rw [ArrayT.insert]
      by_cases hidx : idx < 0 ∨ idx ≤ slots.count
      · rw [if_pos hidx]
        generalize (if idx < 0 then slots.count else idx.toNat) = i
        dsimp only
        rw [if_neg (by omega), if_pos ⟨htail, hhead⟩, ArrayT.insertTail, ArrayT.makeTailRoom,
          if_neg (by omega)]
        refine ⟨hhead, ?_⟩
        show slots.tail - 1 + (slots.count + 1) < 2 ^ 8
        omega
      · rw [if_neg hidx]
        exact ⟨hhead, hle⟩

end RawArray

end StrongSwan
