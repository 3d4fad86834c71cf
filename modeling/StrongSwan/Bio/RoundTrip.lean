import StrongSwan.Bio.BioReader.Window
import StrongSwan.Bio.BioWriter.Buffer

/-!
# Writing and reading

* `BioValue.encode`, `BioValue.readOp`, `BioValue.atoms`: values that are written and how they are read.
* `WriteOp`, `writeAll`, `written`: sequences of writes, and the values in the buffer.
* `writeAll_spec`: the buffer holds these values.
* `readAll_front`, `readAll_back`: reads from either end return them.
* **`bio_inverse_iff`**: what was written is read back, and reads stay in the buffer unless they are those of
  24 bits.
-/

namespace StrongSwan

open BioReader

namespace BioReader

namespace BioValue

def encode : BioValue → Chunk
  | uint8 value => [value]
  | uint16 value => htoun16 value
  | uint24 value => Bytes.ofNat 3 value.toNat
  | uint32 value => htoun32 value
  | uint64 value => htoun64 value
  | data value => value
  | data8 value => [BitVec.ofNat 8 value.length] ++ value
  | data16 value => htoun16 (BitVec.ofNat 16 value.length) ++ value
  | data24 value => Bytes.ofNat 3 (BitVec.ofNat 32 value.length).toNat ++ value
  | data32 value => htoun32 (BitVec.ofNat 32 value.length) ++ value

/-- A value that is written as it is; the length of data is read as a 32-bit integer at most. -/
def Fits : BioValue → Prop
  | uint24 value => value.toNat < 2 ^ 24
  | data value | data32 value => value.length < 2 ^ 32
  | data8 value => value.length < 2 ^ 8
  | data16 value => value.length < 2 ^ 16
  | data24 value => value.length < 2 ^ 24
  | _ => True

def readOp (fromEnd : Bool) : BioValue → ReadOp
  | uint8 _ => .uint8 fromEnd
  | uint16 _ => .uint16 fromEnd
  | uint24 _ => .uint24 fromEnd
  | uint32 _ => .uint32 fromEnd
  | uint64 _ => .uint64 fromEnd
  | data value => .data (BitVec.ofNat 32 value.length) fromEnd
  | data8 _ => .data8
  | data16 _ => .data16
  | data24 _ => .data24
  | data32 _ => .data32

/-- The value, or the length and the data, which are read one by one from the end. -/
def atoms : BioValue → List BioValue
  | data8 value => [uint8 (BitVec.ofNat 8 value.length), data value]
  | data16 value => [uint16 (BitVec.ofNat 16 value.length), data value]
  | data24 value => [uint24 (BitVec.ofNat 32 value.length), data value]
  | data32 value => [uint32 (BitVec.ofNat 32 value.length), data value]
  | value => [value]

/-- A value that can be read from the end. -/
def IsAtom : BioValue → Prop
  | data8 _ | data16 _ | data24 _ | data32 _ => False
  | _ => True

end BioValue

def encodeAll (values : List BioValue) : Chunk := values.flatMap BioValue.encode

theorem encodeAll_append (l r : List BioValue) : encodeAll (l ++ r) = encodeAll l ++ encodeAll r :=
  List.flatMap_append

theorem encodeAll_cons (value : BioValue) (values : List BioValue) :
    encodeAll (value :: values) = value.encode ++ encodeAll values :=
  List.flatMap_cons

/-! ## Reading -/

section Reading

variable {mem : ℕ → U8} {buf : Window} {value : BioValue} {rest : Chunk}

theorem untoh32_three {ptr : ℕ} {n : U32} (hn : n.toNat < 2 ^ 24)
    (h : load mem ptr 3 = Bytes.ofNat 3 n.toNat) : untoh32 (load mem ptr 4) >>> 8 = n := by
  rw [load_add ptr 3 1, show load mem (ptr + 3) 1 = [mem (ptr + 3)] from rfl,
    untoh32_shift (length_load _ _), h, Bytes.value_ofNat_of_lt (by omega), BitVec.ofNat_toNat,
    BitVec.setWidth_eq]

theorem untoh64_htoun64 (n : U64) : untoh64 (htoun64 n) = n := by
  have hlt := n.isLt
  rw [untoh64, List.take_of_length_le (length_htoun64 n).le, htoun64, Bytes.value_ofNat_of_lt (by omega),
    BitVec.ofNat_toNat, BitVec.setWidth_eq]

/-- What is at the front, or at the end. -/
def At (mem : ℕ → U8) (buf : Window) (fromEnd : Bool) (a rest : Chunk) : Prop :=
  buf.content mem = if fromEnd then rest ++ a else a ++ rest

theorem At.front {a b : Chunk} (h : At mem buf false (a ++ b) rest) : At mem buf false a (b ++ rest) := by
  rw [At, if_neg (by decide)] at h ⊢
  rw [h, List.append_assoc]

variable {fromEnd : Bool}

theorem readInternal_at {α : Type} {a : Chunk} {bytes : ℕ} (access : ℕ) (convert : Chunk → α)
    (h : At mem buf fromEnd a rest) (ha : a.length = bytes) :
    ∃ ptr, load mem ptr bytes = a ∧
      (readInternal mem bytes access convert buf fromEnd).value = some (convert (load mem ptr access)) ∧
      (readInternal mem bytes access convert buf fromEnd).buf.content mem = rest := by
  subst ha
  cases fromEnd with
  | false =>
    obtain ⟨hvalue, hrest, hload⟩ := readInternal_front access convert h
    exact ⟨_, hload, hvalue, hrest⟩
  | true =>
    obtain ⟨hvalue, hrest, hload⟩ := readInternal_back access convert h
    exact ⟨_, hload, hvalue, hrest⟩

/-- A read that returns a value and leaves the rest. -/
def Reads (mem : ℕ → U8) {α : Type} (r : ReadResult α) (value : α) (rest : Chunk) : Prop :=
  r.value = some value ∧ r.buf.content mem = rest

theorem Reads.map {α β : Type} {r : ReadResult α} {a : α} (h : Reads mem r a rest) (f : α → β) :
    Reads mem (r.map f) (f a) rest :=
  ⟨by rw [ReadResult.map, h.1, Option.map_some], h.2⟩

theorem reads_uint8 {n : U8} (h : At mem buf fromEnd [n] rest) :
    Reads mem (readUint8Internal mem buf fromEnd) n rest := by
  obtain ⟨ptr, hload, hvalue, hrest⟩ := readInternal_at 1 (fun p => p.headD 0) h (List.length_singleton)
  rw [hload] at hvalue
  exact ⟨hvalue, hrest⟩

theorem reads_uint16 {n : U16} (h : At mem buf fromEnd (htoun16 n) rest) :
    Reads mem (readUint16Internal mem buf fromEnd) n rest := by
  obtain ⟨ptr, hload, hvalue, hrest⟩ := readInternal_at 2 untoh16 h (length_htoun16 n)
  have hn := untoh16_htoun16_append n []
  rw [List.append_nil] at hn
  rw [hload, hn] at hvalue
  exact ⟨hvalue, hrest⟩

theorem reads_uint24 {n : U32} (hn : n.toNat < 2 ^ 24)
    (h : At mem buf fromEnd (Bytes.ofNat 3 n.toNat) rest) :
    Reads mem (readUint24Internal mem buf fromEnd) n rest := by
  obtain ⟨ptr, hload, hvalue, hrest⟩ :=
    readInternal_at 4 (fun p => untoh32 p >>> 8) h (Bytes.length_ofNat _ _)
  rw [untoh32_three hn hload] at hvalue
  exact ⟨hvalue, hrest⟩

theorem reads_uint32 {n : U32} (h : At mem buf fromEnd (htoun32 n) rest) :
    Reads mem (readUint32Internal mem buf fromEnd) n rest := by
  obtain ⟨ptr, hload, hvalue, hrest⟩ := readInternal_at 4 untoh32 h (length_htoun32 n)
  rw [hload, untoh32_htoun32] at hvalue
  exact ⟨hvalue, hrest⟩

theorem reads_uint64 {n : U64} (h : At mem buf fromEnd (htoun64 n) rest) :
    Reads mem (readUint64Internal mem buf fromEnd) n rest := by
  obtain ⟨ptr, hload, hvalue, hrest⟩ := readInternal_at 8 untoh64 h (length_htoun64 n)
  rw [hload, untoh64_htoun64] at hvalue
  exact ⟨hvalue, hrest⟩

theorem reads_data {data : Chunk} {len : U32} (hlen : data.length = len.toNat)
    (h : At mem buf fromEnd data rest) : Reads mem (readDataInternal mem buf len fromEnd) data rest := by
  obtain ⟨ptr, hload, hvalue, hrest⟩ := readInternal_at len.toNat id h hlen
  rw [hload] at hvalue
  exact ⟨hvalue, hrest⟩

theorem Reads.behind {length : ReadResult U32} {len : U32} {data : Chunk}
    (h : Reads mem length len (data ++ rest)) (hlen : data.length = len.toNat) :
    Reads mem (readDataBehind mem length) data rest := by
  obtain ⟨hvalue, hrest⟩ := @reads_data mem length.buf _ false _ _ hlen h.2
  rw [readDataBehind, h.1]
  exact ⟨hvalue, hrest⟩

theorem toNat_length {w : ℕ} {data : Chunk} (h : data.length < 2 ^ w) :
    (BitVec.ofNat w data.length).toNat = data.length := by
  rw [BitVec.toNat_ofNat, Nat.mod_eq_of_lt h]

/-- **A value at an end of the buffer** is read; data behind a length at the front only. -/
theorem reads_value (hfits : value.Fits) (hatom : fromEnd = true → value.IsAtom)
    (h : At mem buf fromEnd value.encode rest) :
    Reads mem (read mem buf (value.readOp fromEnd)) value rest := by
  cases value with
  | uint8 n => exact (reads_uint8 h).map BioValue.uint8
  | uint16 n => exact (reads_uint16 h).map BioValue.uint16
  | uint24 n => exact (reads_uint24 hfits h).map BioValue.uint24
  | uint32 n => exact (reads_uint32 h).map BioValue.uint32
  | uint64 n => exact (reads_uint64 h).map BioValue.uint64
  | data data => exact (reads_data (toNat_length hfits).symm h).map BioValue.data
  | data8 data =>
    cases fromEnd with
    | true => exact absurd (hatom rfl) id
    | false =>
      refine (((reads_uint8 h.front).map (·.setWidth 32)).behind ?_).map BioValue.data8
      rw [BitVec.toNat_setWidth_of_le (by decide), toNat_length hfits]
  | data16 data =>
    cases fromEnd with
    | true => exact absurd (hatom rfl) id
    | false =>
      refine (((reads_uint16 h.front).map (·.setWidth 32)).behind ?_).map BioValue.data16
      rw [BitVec.toNat_setWidth_of_le (by decide), toNat_length hfits]
  | data24 data =>
    cases fromEnd with
    | true => exact absurd (hatom rfl) id
    | false =>
      have hlen : (BitVec.ofNat 32 data.length).toNat = data.length :=
        toNat_length (lt_trans hfits (by norm_num))
      exact ((reads_uint24 (hlen.trans_lt hfits) h.front).behind hlen.symm).map BioValue.data24
  | data32 data =>
    cases fromEnd with
    | true => exact absurd (hatom rfl) id
    | false =>
      exact ((reads_uint32 h.front).behind (toNat_length hfits).symm).map BioValue.data32

/-- **Values are read from the front.** -/
theorem readAll_front {values : List BioValue} (hfits : ∀ value ∈ values, value.Fits)
    (h : buf.content mem = encodeAll values ++ rest) :
    ∃ buf', readAll mem buf (values.map (BioValue.readOp false)) = some (values, buf') ∧
      buf'.content mem = rest := by
  induction values generalizing buf with
  | nil => exact ⟨buf, rfl, h⟩
  | cons value values ih =>
    rw [List.forall_mem_cons] at hfits
    rw [encodeAll_cons, List.append_assoc] at h
    obtain ⟨hvalue, hrest⟩ := @reads_value mem buf value _ false hfits.1 (fun h => by cases h) h
    obtain ⟨buf', hall, hbuf'⟩ := ih hfits.2 hrest
    refine ⟨buf', ?_, hbuf'⟩
    rw [List.map_cons, readAll, hvalue]
    dsimp only
    rw [hall]
    rfl

/-- **Values are read from the end**, the last one first. -/
theorem readAll_back {values : List BioValue} (hfits : ∀ value ∈ values, value.Fits ∧ value.IsAtom)
    (h : buf.content mem = rest ++ encodeAll values) :
    ∃ buf', readAll mem buf (values.reverse.map (BioValue.readOp true)) = some (values.reverse, buf') ∧
      buf'.content mem = rest := by
  induction values using List.reverseRecOn generalizing buf with
  | nil => exact ⟨buf, rfl, by simpa [encodeAll] using h⟩
  | append_singleton values value ih =>
    have hlast := hfits value (by simp)
    rw [encodeAll_append, ← List.append_assoc, encodeAll_cons] at h
    have hat : At mem buf true value.encode (rest ++ encodeAll values) := by
      rw [At, if_pos rfl, h]
      simp [encodeAll]
    obtain ⟨hvalue, hrest⟩ := reads_value hlast.1 (fun _ => hlast.2) hat
    obtain ⟨buf', hall, hbuf'⟩ := ih (fun v hv => hfits v (List.mem_append_left _ hv)) hrest
    refine ⟨buf', ?_, hbuf'⟩
    rw [List.reverse_append, List.reverse_singleton, List.singleton_append, List.map_cons, readAll, hvalue]
    dsimp only
    rw [hall]
    rfl

end Reading

theorem encodeAll_atoms (values : List BioValue) :
    encodeAll (values.flatMap BioValue.atoms) = encodeAll values := by
  induction values with
  | nil => rfl
  | cons value values ih =>
    rw [List.flatMap_cons, encodeAll_append, ih, encodeAll_cons]
    congr 1
    cases value <;> simp [BioValue.atoms, encodeAll, BioValue.encode]

theorem atoms_fit {value : BioValue} (h : value.Fits) : ∀ atom ∈ value.atoms, atom.Fits ∧ atom.IsAtom := by
  cases value with
  | data8 data =>
    have hlen : data.length < 2 ^ 32 := lt_trans h (by norm_num)
    exact List.forall_mem_cons.mpr ⟨⟨trivial, trivial⟩, List.forall_mem_singleton.mpr ⟨hlen, trivial⟩⟩
  | data16 data =>
    have hlen : data.length < 2 ^ 32 := lt_trans h (by norm_num)
    exact List.forall_mem_cons.mpr ⟨⟨trivial, trivial⟩, List.forall_mem_singleton.mpr ⟨hlen, trivial⟩⟩
  | data24 data =>
    have hlen : data.length < 2 ^ 32 := lt_trans h (by norm_num)
    have htoNat : (BitVec.ofNat 32 data.length).toNat < 2 ^ 24 := (toNat_length hlen).trans_lt h
    exact List.forall_mem_cons.mpr ⟨⟨htoNat, trivial⟩, List.forall_mem_singleton.mpr ⟨hlen, trivial⟩⟩
  | data32 data =>
    exact List.forall_mem_cons.mpr ⟨⟨trivial, trivial⟩, List.forall_mem_singleton.mpr ⟨h, trivial⟩⟩
  | uint8 | uint16 | uint24 | uint32 | uint64 | data =>
    intro atom hatom
    cases List.mem_singleton.mp hatom
    exact ⟨h, trivial⟩

end BioReader

/-! ## Writing -/

namespace BufferedWriter

/-- What is done with a writer. -/
inductive WriteOp
  | value (value : BioValue)
  | wrap8
  | wrap16
  | wrap24
  | wrap32

def writeValue (this : BufferedWriter) : BioValue → Option BufferedWriter
  | .uint8 value => this.writeUint8 value
  | .uint16 value => this.writeUint16 value
  | .uint24 value => this.writeUint24 value
  | .uint32 value => this.writeUint32 value
  | .uint64 value => this.writeUint64 value
  | .data value => this.writeData value
  | .data8 value => this.writeData8 value
  | .data16 value => this.writeData16 value
  | .data24 value => this.writeData24 value
  | .data32 value => this.writeData32 value

def write (this : BufferedWriter) : WriteOp → Option BufferedWriter
  | .value value => this.writeValue value
  | .wrap8 => this.wrap8
  | .wrap16 => this.wrap16
  | .wrap24 => this.wrap24
  | .wrap32 => this.wrap32

def writeAll (this : BufferedWriter) (ops : List WriteOp) : Option BufferedWriter := ops.foldlM write this

namespace WriteOp

/-- The values in the buffer; to wrap is to put the length of all others in front of them. -/
def apply (values : List BioValue) : WriteOp → List BioValue
  | .value added => values ++ [added]
  | wrap8 => .uint8 (BitVec.ofNat 8 (encodeAll values).length) :: values
  | wrap16 => .uint16 (BitVec.ofNat 16 (encodeAll values).length) :: values
  | wrap24 => .uint24 (BitVec.ofNat 32 (encodeAll values).length) :: values
  | wrap32 => .uint32 (BitVec.ofNat 32 (encodeAll values).length) :: values

/-- What is written fits. -/
def InRange (values : List BioValue) : WriteOp → Prop
  | .value added => added.Fits
  | wrap8 => (encodeAll values).length < 2 ^ 8
  | wrap16 => (encodeAll values).length < 2 ^ 16
  | wrap24 => (encodeAll values).length < 2 ^ 24
  | wrap32 => (encodeAll values).length < 2 ^ 32

end WriteOp

/-- The values in the buffer after writes. -/
def written (ops : List WriteOp) : List BioValue := ops.foldl WriteOp.apply []

/-- All that is written fits. -/
def AllInRange : List BioValue → List WriteOp → Prop
  | _, [] => True
  | values, op :: ops => op.InRange values ∧ AllInRange (op.apply values) ops

section Writing

variable {this : BufferedWriter} {values : List BioValue}

theorem drop_ofNat (k n : ℕ) : (Bytes.ofNat (k + 1) n).drop 1 = Bytes.ofNat k n := by
  induction k generalizing n with
  | zero => rfl
  | succ k ih =>
    rw [Bytes.ofNat, List.drop_append_of_le_length (by simp), ih, Bytes.ofNat]

/-- **A value is written** behind the others. -/
theorem writeValue_spec {content : Chunk} (h : this.Holds content) (value : BioValue) :
    ∃ this', this.writeValue value = some this' ∧ this'.Holds (content ++ value.encode) := by
  cases value with
  | uint8 n => exact append_spec h [n]
  | uint16 n => exact append_spec h (htoun16 n)
  | uint24 n =>
    have hwritten := append_spec h ((htoun32 n).drop 1)
    rw [htoun32, drop_ofNat] at hwritten
    exact hwritten
  | uint32 n => exact append_spec h (htoun32 n)
  | uint64 n => exact append_spec h (htoun64 n)
  | data data => exact append_spec h data
  | data8 data => exact prefixed_spec h (1 + data.length) _ data
  | data16 data => exact prefixed_spec h (2 + data.length) _ data
  | data24 data =>
    have hwritten := prefixed_spec h (3 + data.length) ((htoun32 (BitVec.ofNat 32 data.length)).drop 1) data
    rw [htoun32, drop_ofNat] at hwritten
    exact hwritten
  | data32 data => exact prefixed_spec h (4 + data.length) _ data

theorem write_spec (h : this.Holds (encodeAll values)) (op : WriteOp) :
    ∃ this', this.write op = some this' ∧ this'.Holds (encodeAll (op.apply values)) := by
  cases op with
  | value value =>
    have hwritten := writeValue_spec h value
    have hencode : encodeAll (values ++ [value]) = encodeAll values ++ value.encode := by
      rw [encodeAll_append, encodeAll_cons]
      simp [encodeAll]
    rw [← hencode] at hwritten
    exact hwritten
  | wrap8 =>
    rw [write, wrap8, h.used]
    exact wrap_spec h _
  | wrap16 =>
    rw [write, wrap16, h.used]
    exact wrap_spec h _
  | wrap24 =>
    rw [write, wrap24, h.used, htoun32, drop_ofNat]
    exact wrap_spec h _
  | wrap32 =>
    rw [write, wrap32, h.used]
    exact wrap_spec h _

theorem fits_apply (hfits : ∀ value ∈ values, value.Fits) {op : WriteOp} (hop : op.InRange values) :
    ∀ value ∈ op.apply values, value.Fits := by
  cases op with
  | value value =>
    intro v hv
    rcases List.mem_append.mp hv with hv | hv
    · exact hfits v hv
    · cases List.mem_singleton.mp hv
      exact hop
  | wrap24 =>
    refine List.forall_mem_cons.mpr ⟨?_, hfits⟩
    have hlen : (BitVec.ofNat 32 (encodeAll values).length).toNat = (encodeAll values).length :=
      toNat_length (lt_trans hop (by norm_num))
    exact hlen.trans_lt hop
  | wrap8 | wrap16 | wrap32 => exact List.forall_mem_cons.mpr ⟨trivial, hfits⟩

/-- **The buffer holds what was written.** -/
theorem writeAll_spec {ops : List WriteOp} (h : this.Holds (encodeAll values))
    (hfits : ∀ value ∈ values, value.Fits) (hrange : AllInRange values ops) :
    ∃ this', this.writeAll ops = some this' ∧ this'.Holds (encodeAll (ops.foldl WriteOp.apply values)) ∧
      ∀ value ∈ ops.foldl WriteOp.apply values, value.Fits := by
  induction ops generalizing this values with
  | nil => exact ⟨this, rfl, h, hfits⟩
  | cons op ops ih =>
    obtain ⟨this₁, hwrite, h₁⟩ := write_spec h op
    obtain ⟨this₂, hall, h₂⟩ := ih h₁ (fits_apply hfits hrange.1) hrange.2
    refine ⟨this₂, ?_, h₂⟩
    rw [writeAll, List.foldlM_cons, hwrite]
    exact hall

end Writing

/-- What was written is read back, from either end; and reads stay in the buffer. -/
structure Inverse (mem : ℕ → U8) (bufsize : U32) (writes : List WriteOp) (buf : Window) (reads : List ReadOp) :
    Prop where
  inverse : ∃ writer, (create bufsize).writeAll writes = some writer ∧
    ∀ buf : Window, buf.content mem = writer.extractBuf.1 →
      (∃ rest, readAll mem buf ((written writes).map (BioValue.readOp false)) = some (written writes, rest) ∧
        rest.content mem = []) ∧
      ∀ l r, (written writes).flatMap BioValue.atoms = l ++ r →
        ∃ rest, readAll mem buf (r.reverse.map (BioValue.readOp true)) = some (r.reverse, rest) ∧
          rest.content mem = encodeAll l
  safe : AllSafe mem buf reads

/-- **Readers and writers are inverse, and reads stay in the buffer** unless they are those of 24 bits. -/
theorem bio_inverse_iff (mem : ℕ → U8) (bufsize : U32) {writes : List WriteOp}
    (hrange : AllInRange [] writes) (buf : Window) (reads : List ReadOp) :
    Inverse mem bufsize writes buf reads ↔ NoOverread mem buf reads := by
  refine ⟨fun h => (allSafe_iff buf reads).mp h.safe, fun h => ⟨?_, (allSafe_iff buf reads).mpr h⟩⟩
  obtain ⟨writer, hwrite, hholds, hfits⟩ :=
    writeAll_spec (holds_create bufsize) (List.forall_mem_nil _) hrange
  refine ⟨writer, hwrite, fun buf hbuf => ⟨?_, fun l r hsplit => ?_⟩⟩
  · rw [(holds_extractBuf hholds).1] at hbuf
    refine readAll_front hfits ?_
    rw [List.append_nil]
    exact hbuf
  · rw [(holds_extractBuf hholds).1] at hbuf
    refine readAll_back (fun atom hatom => ?_) ?_
    · have hmem : atom ∈ (written writes).flatMap BioValue.atoms := by
        rw [hsplit]
        exact List.mem_append_right _ hatom
      obtain ⟨value, hvalue, hatom'⟩ := List.mem_flatMap.mp hmem
      exact atoms_fit (hfits value hvalue) atom hatom'
    · rw [hbuf, ← encodeAll_append, ← hsplit, encodeAll_atoms]
      rfl

/-- Two integers, one of 24 bits, that are wrapped; and reads of three bytes of four. -/
theorem bio_inverse_iff_wrap :
    Inverse (fun _ => 0) 4 [.value (.uint24 0x10203), .value (.uint64 5), .wrap16, .value (.data8 [7])] ⟨0, 4⟩
        [.uint24 false, .uint8 true] ↔
      NoOverread (fun _ => 0) ⟨0, 4⟩ [.uint24 false, .uint8 true] :=
  have hrange : AllInRange [] [.value (.uint24 0x10203), .value (.uint64 5), .wrap16, .value (.data8 [7])] :=
    ⟨show (0x10203 : U32).toNat < 2 ^ 24 by decide, trivial,
      show (encodeAll [.uint24 0x10203, .uint64 5]).length < 2 ^ 16 by decide, show 1 < 2 ^ 8 by decide,
      trivial⟩
  bio_inverse_iff (fun _ => 0) 4 hrange ⟨0, 4⟩ _

/-- Three bytes are read with the one behind them, from the end even if the buffer has four. -/
theorem not_bio_inverse : ¬ Inverse (fun _ => 0) 4 [] ⟨0, 3⟩ [.uint24 false] ∧
    ¬ Inverse (fun _ => 0) 4 [] ⟨0, 4⟩ [.uint24 true] := by
  constructor
  · intro h
    exact ((allSafe_iff _ _).mp h.safe).1 rfl
  · intro h
    exact ((allSafe_iff _ _).mp h.safe).1 (show 3 ≤ 4 by decide)

end BufferedWriter

end StrongSwan
