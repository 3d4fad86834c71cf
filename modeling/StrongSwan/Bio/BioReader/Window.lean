import StrongSwan.Bio.BioReader

/-!
# Readers of memory

A `bio_reader_t` reads from either end of a part of the memory. What it accesses is recorded.

* `Window`, `chunkSkipEnd`, `getPtrEnd`; `readInternal` and the reads of each type.
* `ReadOp`, `read`, `readAll`: sequences of reads.
* `readInternal_front`, `readInternal_back`: what is read, and what is left.
* **`readsSafely_iff`**, `allSafe_iff`: reads stay in the buffer, but for those of 24 bits.
-/

namespace StrongSwan

/-- Read the first eight bytes of a chunk, in network order. -/
def untoh64 (p : Chunk) : U64 := BitVec.ofNat 64 (Bytes.value (p.take 8))

namespace BioReader

/-- `chunk_t`, as a part of the memory -/
structure Window where
  ptr : ℕ
  len : ℕ

variable (mem : ℕ → U8)

/-- What is in the memory. -/
def load (ptr len : ℕ) : Chunk := (List.range len).map fun i => mem (ptr + i)

/-- What is in a part of the memory. -/
def Window.content (buf : Window) : Chunk := load mem buf.ptr buf.len

def chunkEmpty : Window := ⟨0, 0⟩

/-- A version of `chunk_skip` that supports skipping from the end. -/
def chunkSkipEnd (chunk : Window) (bytes : ℕ) (fromEnd : Bool) : Window :=
  if chunk.len > bytes then
    if !fromEnd then ⟨chunk.ptr + bytes, chunk.len - bytes⟩ else ⟨chunk.ptr, chunk.len - bytes⟩
  else chunkEmpty

/-- Returns a pointer to the data to read, optionally from the end. -/
def getPtrEnd (buf : Window) (len : ℕ) (fromEnd : Bool) : ℕ :=
  if fromEnd then buf.ptr + (buf.len - len) else buf.ptr

/-- What a read returns, the rest of the buffer, and what was accessed. -/
structure ReadResult (α : Type) where
  value : Option α
  buf : Window
  touched : List Window

def ReadResult.map {α β : Type} (f : α → β) (r : ReadResult α) : ReadResult β :=
  ⟨r.value.map f, r.buf, r.touched⟩

/-- The reads of one type take some bytes from the buffer, and access as many as they convert. -/
def readInternal {α : Type} (bytes access : ℕ) (convert : Chunk → α) (buf : Window) (fromEnd : Bool) :
    ReadResult α :=
  if buf.len < bytes then ⟨none, buf, []⟩
  else
    let ptr := getPtrEnd buf bytes fromEnd
    ⟨some (convert (load mem ptr access)), chunkSkipEnd buf bytes fromEnd, [⟨ptr, access⟩]⟩

def readUint8Internal (buf : Window) (fromEnd : Bool) : ReadResult U8 :=
  readInternal mem 1 1 (fun p => p.headD 0) buf fromEnd

def readUint16Internal (buf : Window) (fromEnd : Bool) : ReadResult U16 :=
  readInternal mem 2 2 untoh16 buf fromEnd

/-- Four bytes are read for the three that are there. -/
def readUint24Internal (buf : Window) (fromEnd : Bool) : ReadResult U32 :=
  readInternal mem 3 4 (fun p => untoh32 p >>> 8) buf fromEnd

def readUint32Internal (buf : Window) (fromEnd : Bool) : ReadResult U32 :=
  readInternal mem 4 4 untoh32 buf fromEnd

def readUint64Internal (buf : Window) (fromEnd : Bool) : ReadResult U64 :=
  readInternal mem 8 8 untoh64 buf fromEnd

def readDataInternal (buf : Window) (len : U32) (fromEnd : Bool) : ReadResult Chunk :=
  readInternal mem len.toNat len.toNat id buf fromEnd

def readDataBehind (length : ReadResult U32) : ReadResult Chunk :=
  match length.value with
  | some len =>
    let data := readDataInternal mem length.buf len false
    { data with touched := length.touched ++ data.touched }
  | none => ⟨none, length.buf, length.touched⟩

def readData8Window (buf : Window) : ReadResult Chunk :=
  readDataBehind mem ((readUint8Internal mem buf false).map (·.setWidth 32))

def readData16Window (buf : Window) : ReadResult Chunk :=
  readDataBehind mem ((readUint16Internal mem buf false).map (·.setWidth 32))

def readData24Window (buf : Window) : ReadResult Chunk := readDataBehind mem (readUint24Internal mem buf false)

def readData32Window (buf : Window) : ReadResult Chunk := readDataBehind mem (readUint32Internal mem buf false)

/-- What is written and read. -/
inductive BioValue
  | uint8 (value : U8)
  | uint16 (value : U16)
  | uint24 (value : U32)
  | uint32 (value : U32)
  | uint64 (value : U64)
  | data (value : Chunk)
  | data8 (value : Chunk)
  | data16 (value : Chunk)
  | data24 (value : Chunk)
  | data32 (value : Chunk)
  deriving DecidableEq

/-- The reads; all but those behind a length are available from the end. -/
inductive ReadOp
  | uint8 (fromEnd : Bool)
  | uint16 (fromEnd : Bool)
  | uint24 (fromEnd : Bool)
  | uint32 (fromEnd : Bool)
  | uint64 (fromEnd : Bool)
  | data (len : U32) (fromEnd : Bool)
  | data8
  | data16
  | data24
  | data32

def read (buf : Window) : ReadOp → ReadResult BioValue
  | .uint8 fromEnd => (readUint8Internal mem buf fromEnd).map .uint8
  | .uint16 fromEnd => (readUint16Internal mem buf fromEnd).map .uint16
  | .uint24 fromEnd => (readUint24Internal mem buf fromEnd).map .uint24
  | .uint32 fromEnd => (readUint32Internal mem buf fromEnd).map .uint32
  | .uint64 fromEnd => (readUint64Internal mem buf fromEnd).map .uint64
  | .data len fromEnd => (readDataInternal mem buf len fromEnd).map .data
  | .data8 => (readData8Window mem buf).map .data8
  | .data16 => (readData16Window mem buf).map .data16
  | .data24 => (readData24Window mem buf).map .data24
  | .data32 => (readData32Window mem buf).map .data32

/-- Reads one after the other, as long as they succeed. -/
def readAll : Window → List ReadOp → Option (List BioValue × Window)
  | buf, [] => some ([], buf)
  | buf, op :: ops =>
    match (read mem buf op).value with
    | some value => (readAll (read mem buf op).buf ops).map fun (values, buf) => (value :: values, buf)
    | none => none

/-! ## Memory -/

section Memory

variable {mem} {a rest : Chunk} {buf : Window}

@[simp] theorem length_load (ptr len : ℕ) : (load mem ptr len).length = len := by
  rw [load, List.length_map, List.length_range]

theorem load_add (ptr m n : ℕ) : load mem ptr (m + n) = load mem ptr m ++ load mem (ptr + m) n := by
  rw [load, List.range_add, List.map_append, List.map_map, load, load]
  congr 1
  refine List.map_congr_left fun i _ => ?_
  rw [Function.comp_apply, Nat.add_assoc]

theorem load_append {ptr : ℕ} {len : ℕ} (h : load mem ptr len = a ++ rest) :
    load mem ptr a.length = a ∧ load mem (ptr + a.length) rest.length = rest := by
  have hlen : len = a.length + rest.length := by
    rw [← List.length_append, ← h, length_load]
  rw [hlen, load_add] at h
  exact List.append_inj h (length_load _ _)

/-- **A read from the front.** -/
theorem readInternal_front {α : Type} (access : ℕ) (convert : Chunk → α)
    (h : buf.content mem = a ++ rest) :
    (readInternal mem a.length access convert buf false).value = some (convert (load mem buf.ptr access)) ∧
      (readInternal mem a.length access convert buf false).buf.content mem = rest ∧
      load mem buf.ptr a.length = a := by
  have hlen : buf.len = a.length + rest.length := by
    rw [← List.length_append, ← h, Window.content, length_load]
  obtain ⟨ha, hrest⟩ := load_append h
  rw [readInternal, if_neg (by omega)]
  refine ⟨rfl, ?_, ha⟩
  dsimp only
  rw [chunkSkipEnd]
  by_cases hmore : buf.len > a.length
  · rw [if_pos hmore, if_pos (by rfl), Window.content, hlen, Nat.add_sub_cancel_left]
    exact hrest
  · rw [if_neg hmore, List.length_eq_zero_iff.mp (by omega : rest.length = 0)]
    rfl

/-- **A read from the end.** -/
theorem readInternal_back {α : Type} (access : ℕ) (convert : Chunk → α)
    (h : buf.content mem = rest ++ a) :
    (readInternal mem a.length access convert buf true).value =
        some (convert (load mem (buf.ptr + rest.length) access)) ∧
      (readInternal mem a.length access convert buf true).buf.content mem = rest ∧
      load mem (buf.ptr + rest.length) a.length = a := by
  have hlen : buf.len = rest.length + a.length := by
    rw [← List.length_append, ← h, Window.content, length_load]
  obtain ⟨hrest, ha⟩ := load_append h
  rw [readInternal, if_neg (by omega), getPtrEnd, if_pos rfl, hlen, Nat.add_sub_cancel]
  refine ⟨rfl, ?_, ha⟩
  dsimp only
  rw [chunkSkipEnd]
  by_cases hmore : rest.length + a.length > a.length
  · rw [hlen, if_pos hmore, if_neg (by decide), Window.content, Nat.add_sub_cancel]
    exact hrest
  · rw [hlen, if_neg hmore, List.length_eq_zero_iff.mp (by omega : rest.length = 0)]
    rfl

theorem untoh32_shift {p : Chunk} (hp : p.length = 3) (b : U8) :
    untoh32 (p ++ [b]) >>> 8 = BitVec.ofNat 32 (Bytes.value p) := by
  have hlt := Bytes.value_lt p
  have hb := b.isLt
  rw [hp] at hlt
  refine BitVec.eq_of_toNat_eq ?_
  rw [BitVec.toNat_ushiftRight, toNat_untoh32 (by rw [List.length_append, hp]; rfl), Bytes.value_snoc,
    Nat.shiftRight_eq_div_pow, BitVec.toNat_ofNat, Nat.mod_eq_of_lt (by omega)]
  omega

end Memory

/-! ## Bounds -/

/-- The access is inside of the buffer, or there is nothing to access. -/
def Window.Contains (buf touched : Window) : Prop :=
  touched.len = 0 ∨ buf.ptr ≤ touched.ptr ∧ touched.ptr + touched.len ≤ buf.ptr + buf.len

/-- The number of bytes of data behind its length in `n` bytes. -/
def neededBehind (buf : Window) (n : ℕ) : ℕ :=
  if buf.len < n then n else n + Bytes.value (load mem buf.ptr n)

/-- The number of bytes a read takes. -/
def needed (buf : Window) : ReadOp → ℕ
  | .uint8 _ => 1
  | .uint16 _ => 2
  | .uint24 _ => 3
  | .uint32 _ => 4
  | .uint64 _ => 8
  | .data len _ => len.toNat
  | .data8 => neededBehind mem buf 1
  | .data16 => neededBehind mem buf 2
  | .data24 => neededBehind mem buf 3
  | .data32 => neededBehind mem buf 4

/-- A read that accesses nothing outside of the buffer, and fails if and only if there is not enough. -/
def ReadsSafely (buf : Window) (op : ReadOp) : Prop :=
  (∀ touched ∈ (read mem buf op).touched, buf.Contains touched) ∧
    ((read mem buf op).value = none ↔ buf.len < needed mem buf op)

/-- A read of 24 bits, from the end, or of the last three bytes. -/
def Overreads (buf : Window) : ReadOp → Prop
  | .uint24 true => 3 ≤ buf.len
  | .uint24 false | .data24 => buf.len = 3
  | _ => False

section Bounds

variable {mem} {buf : Window} {α β : Type}

theorem readInternal_value (bytes access : ℕ) (convert : Chunk → α) (fromEnd : Bool) :
    (readInternal mem bytes access convert buf fromEnd).value = none ↔ buf.len < bytes := by
  rw [readInternal]
  split_ifs with hlen <;> simp [hlen]

theorem readInternal_touched (bytes access : ℕ) (convert : Chunk → α) (fromEnd : Bool) :
    (∀ touched ∈ (readInternal mem bytes access convert buf fromEnd).touched, buf.Contains touched) ↔
      (bytes ≤ buf.len → buf.Contains ⟨getPtrEnd buf bytes fromEnd, access⟩) := by
  rw [readInternal]
  split_ifs with hlen
  · exact iff_of_true (by simp) fun h => absurd hlen (by omega)
  · simp [not_lt.mp hlen]

theorem contains_ptrEnd {bytes : ℕ} (fromEnd : Bool) (h : bytes ≤ buf.len) :
    buf.Contains ⟨getPtrEnd buf bytes fromEnd, bytes⟩ := by
  cases fromEnd with
  | false => exact .inr ⟨le_rfl, Nat.add_le_add_left h _⟩
  | true =>
    refine .inr ⟨Nat.le_add_right _ _, ?_⟩
    change buf.ptr + (buf.len - bytes) + bytes ≤ buf.ptr + buf.len
    omega

theorem map_value_eq_none {r : ReadResult α} (f : α → β) : (r.map f).value = none ↔ r.value = none := by
  rw [ReadResult.map, Option.map_eq_none_iff]

theorem contains_of_skip {n : ℕ} {touched : Window}
    (h : (chunkSkipEnd buf n false).Contains touched) : buf.Contains touched := by
  rw [chunkSkipEnd] at h
  rcases h with h | ⟨hptr, hend⟩
  · exact .inl h
  · by_cases hmore : buf.len > n
    · rw [if_pos hmore, if_pos (by rfl)] at hptr hend
      dsimp only at hptr hend
      exact .inr ⟨by omega, by omega⟩
    · rw [if_neg hmore, chunkEmpty] at hptr hend
      dsimp only at hptr hend
      exact .inl (by omega)

theorem len_skip (n : ℕ) : (chunkSkipEnd buf n false).len = buf.len - n := by
  rw [chunkSkipEnd]
  by_cases hmore : buf.len > n
  · rw [if_pos hmore, if_pos (by rfl)]
  · rw [if_neg hmore, chunkEmpty]
    dsimp only
    omega

/-- **Data behind a length** of so many bytes. -/
theorem readDataBehind_spec (bytes access : ℕ) (convert : Chunk → U32)
    (hconvert : bytes ≤ buf.len →
      (convert (load mem buf.ptr access)).toNat = Bytes.value (load mem buf.ptr bytes)) :
    ((∀ touched ∈ (readDataBehind mem (readInternal mem bytes access convert buf false)).touched,
        buf.Contains touched) ↔ (bytes ≤ buf.len → buf.Contains ⟨buf.ptr, access⟩)) ∧
      ((readDataBehind mem (readInternal mem bytes access convert buf false)).value = none ↔
        buf.len < neededBehind mem buf bytes) := by
  rw [readDataBehind, readInternal, neededBehind]
  split_ifs with hlen
  · refine ⟨iff_of_true (by simp) fun h => absurd hlen (by omega), iff_of_true rfl hlen⟩
  · rw [not_lt] at hlen
    dsimp only
    constructor
    · simp only [List.mem_append, List.mem_singleton]
      constructor
      · exact fun h _ => h _ (.inl rfl)
      · rintro h touched (rfl | hdata)
        · exact h hlen
        · refine contains_of_skip (n := bytes) ?_
          have hinner := (@readInternal_touched mem (chunkSkipEnd buf bytes false) Chunk
            (convert (load mem buf.ptr access)).toNat _ (id : Chunk → Chunk) false).mpr
            (contains_ptrEnd false)
          exact hinner touched hdata
    · have hvalue := @readInternal_value mem (chunkSkipEnd buf bytes false) Chunk
        (convert (load mem buf.ptr access)).toNat (convert (load mem buf.ptr access)).toNat
        (id : Chunk → Chunk) false
      rw [readDataInternal]
      rw [getPtrEnd, if_neg (by decide)]
      refine hvalue.trans ?_
      rw [len_skip, hconvert hlen]
      omega

theorem value_cons_nil (b : U8) : Bytes.value [b] = b.toNat := by
  rw [Bytes.value_cons, Bytes.value_nil]
  simp

variable (mem) in
theorem toNat_lengths (ptr : ℕ) :
    (((load mem ptr 1).headD 0).setWidth 32).toNat = Bytes.value (load mem ptr 1) ∧
      ((untoh16 (load mem ptr 2)).setWidth 32).toNat = Bytes.value (load mem ptr 2) ∧
      (untoh32 (load mem ptr 4) >>> 8).toNat = Bytes.value (load mem ptr 3) ∧
      (untoh32 (load mem ptr 4)).toNat = Bytes.value (load mem ptr 4) := by
  have hthree := Bytes.value_lt (load mem ptr 3)
  rw [length_load] at hthree
  refine ⟨?_, ?_, ?_, toNat_untoh32 (length_load _ _)⟩
  · have hone : load mem ptr 1 = [mem ptr] := rfl
    rw [hone, List.headD_cons, value_cons_nil, BitVec.toNat_setWidth_of_le (by decide)]
  · rw [BitVec.toNat_setWidth_of_le (by decide), toNat_untoh16 (length_load _ _)]
  · rw [load_add ptr 3 1, show load mem (ptr + 3) 1 = [mem (ptr + 3)] from rfl,
      untoh32_shift (length_load _ _), BitVec.toNat_ofNat, Nat.mod_eq_of_lt (by omega)]

theorem map_readInternal (bytes access : ℕ) (convert : Chunk → α) (fromEnd : Bool) (f : α → β) :
    (readInternal mem bytes access convert buf fromEnd).map f =
      readInternal mem bytes access (f ∘ convert) buf fromEnd := by
  rw [readInternal, readInternal]
  split_ifs <;> rfl

section Op

variable {op : ReadOp} {bytes access : ℕ} {fromEnd : Bool}

theorem readsSafely_internal {convert : Chunk → BioValue}
    (hread : read mem buf op = readInternal mem bytes access convert buf fromEnd)
    (hneeded : needed mem buf op = bytes) :
    ReadsSafely mem buf op ↔ (bytes ≤ buf.len → buf.Contains ⟨getPtrEnd buf bytes fromEnd, access⟩) := by
  rw [ReadsSafely, hread, hneeded, readInternal_touched]
  exact and_iff_left (readInternal_value ..)

theorem readsSafely_plain {convert : Chunk → α} {f : α → BioValue}
    (hread : read mem buf op = (readInternal mem bytes bytes convert buf fromEnd).map f)
    (hneeded : needed mem buf op = bytes) : ReadsSafely mem buf op := by
  rw [map_readInternal] at hread
  exact (readsSafely_internal hread hneeded).mpr (contains_ptrEnd fromEnd)

theorem readsSafely_behind {convert : Chunk → U32} {f : Chunk → BioValue}
    (hread : read mem buf op = (readDataBehind mem (readInternal mem bytes access convert buf false)).map f)
    (hneeded : needed mem buf op = neededBehind mem buf bytes)
    (hconvert : (convert (load mem buf.ptr access)).toNat = Bytes.value (load mem buf.ptr bytes)) :
    ReadsSafely mem buf op ↔ (bytes ≤ buf.len → buf.Contains ⟨buf.ptr, access⟩) := by
  obtain ⟨htouched, hvalue⟩ := readDataBehind_spec bytes access convert fun _ => hconvert
  rw [ReadsSafely, hread, hneeded, map_value_eq_none]
  exact (and_iff_left hvalue).trans htouched

end Op

/-- **Reads are safe**, but for those of 24 bits that access a byte behind the buffer. -/
theorem readsSafely_iff (buf : Window) (op : ReadOp) : ReadsSafely mem buf op ↔ ¬ Overreads buf op := by
  obtain ⟨hone, htwo, hthree, hfour⟩ := toNat_lengths mem buf.ptr
  have hfront : ∀ {bytes}, bytes ≤ buf.len → buf.Contains ⟨buf.ptr, bytes⟩ := contains_ptrEnd false
  cases op with
  | uint8 fromEnd => exact iff_of_true (readsSafely_plain rfl rfl) id
  | uint16 fromEnd => exact iff_of_true (readsSafely_plain rfl rfl) id
  | uint32 fromEnd => exact iff_of_true (readsSafely_plain rfl rfl) id
  | uint64 fromEnd => exact iff_of_true (readsSafely_plain rfl rfl) id
  | data len fromEnd => exact iff_of_true (readsSafely_plain rfl rfl) id
  | uint24 fromEnd =>
    have hread : read mem buf (.uint24 fromEnd) =
        readInternal mem 3 4 (BioValue.uint24 ∘ fun p => untoh32 p >>> 8) buf fromEnd :=
      map_readInternal ..
    refine (readsSafely_internal hread rfl).trans ?_
    cases fromEnd with
    | false =>
      simp only [Window.Contains, getPtrEnd, Overreads, Bool.false_eq_true, if_false]
      omega
    | true =>
      simp only [Window.Contains, getPtrEnd, Overreads, if_true]
      omega
  | data8 =>
    have hread : read mem buf .data8 = (readDataBehind mem (readInternal mem 1 1
        ((fun n : U8 => n.setWidth 32) ∘ fun p : Chunk => p.headD 0) buf false)).map .data8 :=
      congrArg (fun r => (readDataBehind mem r).map BioValue.data8)
        (map_readInternal 1 1 (fun p : Chunk => p.headD 0) false fun n : U8 => n.setWidth 32)
    exact iff_of_true ((readsSafely_behind hread rfl hone).mpr hfront) id
  | data16 =>
    have hread : read mem buf .data16 = (readDataBehind mem (readInternal mem 2 2
        ((fun n : U16 => n.setWidth 32) ∘ untoh16) buf false)).map .data16 :=
      congrArg (fun r => (readDataBehind mem r).map BioValue.data16)
        (map_readInternal 2 2 untoh16 false fun n : U16 => n.setWidth 32)
    exact iff_of_true ((readsSafely_behind hread rfl htwo).mpr hfront) id
  | data24 =>
    refine (readsSafely_behind rfl rfl hthree).trans ?_
    simp only [Window.Contains, Overreads]
    omega
  | data32 => exact iff_of_true ((readsSafely_behind rfl rfl hfour).mpr hfront) id

/-! ## Sequences of reads -/

variable (mem) in
/-- All reads of a sequence are safe, until one fails and after it. -/
def AllSafe : Window → List ReadOp → Prop
  | _, [] => True
  | buf, op :: ops => ReadsSafely mem buf op ∧ AllSafe (read mem buf op).buf ops

variable (mem) in
/-- No read of a sequence is one of 24 bits that accesses a byte behind the buffer. -/
def NoOverread : Window → List ReadOp → Prop
  | _, [] => True
  | buf, op :: ops => ¬ Overreads buf op ∧ NoOverread (read mem buf op).buf ops

theorem allSafe_iff (buf : Window) (ops : List ReadOp) : AllSafe mem buf ops ↔ NoOverread mem buf ops := by
  induction ops generalizing buf with
  | nil => exact Iff.rfl
  | cons op ops ih => exact and_congr (readsSafely_iff buf op) (ih _)

end Bounds

end BioReader

end StrongSwan
