import StrongSwan.Bio.BioWriter

/-!
# The buffer of a writer

A `bio_writer_t` has an allocated buffer, of which some bytes are used. What is written outside of it is
seen: `none`.

* `BufferedWriter`, `growBuf`, `poke`; the writes of each type, `wrap` and `extractBuf`.
* `append_spec`, `wrap_spec`: the used bytes after a write, and after all of them were wrapped.
-/

namespace StrongSwan

/-- `private_bio_writer_t`; the buffer is increased by some bytes at a time. -/
structure BufferedWriter where
  buf : Chunk
  used : ℕ
  increase : ℕ
  increase_pos : 0 < increase

namespace BufferedWriter

/-- `bio_writer_create`; what is allocated has some content. -/
def create (bufsize : U32) : BufferedWriter where
  buf := List.replicate bufsize.toNat 0
  used := 0
  increase := if bufsize ≠ 0 then max bufsize.toNat 4 else 32
  increase_pos := by split_ifs <;> omega

/-- The length of a buffer that is increased as often as required; each time by a byte at least. -/
def growLen (increase required : ℕ) : ℕ → ℕ → ℕ
  | 0, len => len
  | fuel + 1, len => if required > len then growLen increase required fuel (len + increase) else len

def growBuf (this : BufferedWriter) (required : ℕ) : BufferedWriter :=
  let len := growLen this.increase (this.used + required) (this.used + required) this.buf.length
  { this with buf := this.buf ++ List.replicate (len - this.buf.length) 0 }

/-- Write bytes at a position of the buffer. -/
def poke (this : BufferedWriter) (pos : ℕ) (bytes : Chunk) : Option BufferedWriter :=
  if pos + bytes.length ≤ this.buf.length then
    some { this with buf := this.buf.take pos ++ bytes ++ this.buf.drop (pos + bytes.length) }
  else none

/-- Write bytes behind those that are used. -/
def append (this : BufferedWriter) (bytes : Chunk) : Option BufferedWriter := do
  let this := this.growBuf bytes.length
  let this ← this.poke this.used bytes
  some { this with used := this.used + bytes.length }

def writeUint8 (this : BufferedWriter) (value : U8) : Option BufferedWriter := this.append [value]

def writeUint16 (this : BufferedWriter) (value : U16) : Option BufferedWriter := this.append (htoun16 value)

/-- The last three bytes of the value in network order. -/
def writeUint24 (this : BufferedWriter) (value : U32) : Option BufferedWriter :=
  this.append ((htoun32 value).drop 1)

def writeUint32 (this : BufferedWriter) (value : U32) : Option BufferedWriter := this.append (htoun32 value)

def writeUint64 (this : BufferedWriter) (value : U64) : Option BufferedWriter := this.append (htoun64 value)

def writeData (this : BufferedWriter) (value : Chunk) : Option BufferedWriter := this.append value

def writeData8 (this : BufferedWriter) (value : Chunk) : Option BufferedWriter := do
  let this := this.growBuf (1 + value.length)
  let this ← this.writeUint8 (BitVec.ofNat 8 value.length)
  this.writeData value

def writeData16 (this : BufferedWriter) (value : Chunk) : Option BufferedWriter := do
  let this := this.growBuf (2 + value.length)
  let this ← this.writeUint16 (BitVec.ofNat 16 value.length)
  this.writeData value

def writeData24 (this : BufferedWriter) (value : Chunk) : Option BufferedWriter := do
  let this := this.growBuf (3 + value.length)
  let this ← this.writeUint24 (BitVec.ofNat 32 value.length)
  this.writeData value

def writeData32 (this : BufferedWriter) (value : Chunk) : Option BufferedWriter := do
  let this := this.growBuf (4 + value.length)
  let this ← this.writeUint32 (BitVec.ofNat 32 value.length)
  this.writeData value

/-- Move what is used behind a header in front of it. -/
def wrap (this : BufferedWriter) (header : Chunk) : Option BufferedWriter := do
  let this := this.growBuf header.length
  let this ← this.poke header.length (this.buf.take this.used)
  let this ← this.poke 0 header
  some { this with used := this.used + header.length }

def wrap8 (this : BufferedWriter) : Option BufferedWriter := this.wrap [BitVec.ofNat 8 this.used]

def wrap16 (this : BufferedWriter) : Option BufferedWriter := this.wrap (htoun16 (BitVec.ofNat 16 this.used))

def wrap24 (this : BufferedWriter) : Option BufferedWriter :=
  this.wrap ((htoun32 (BitVec.ofNat 32 this.used)).drop 1)

def wrap32 (this : BufferedWriter) : Option BufferedWriter := this.wrap (htoun32 (BitVec.ofNat 32 this.used))

def getBuf (this : BufferedWriter) : Chunk := this.buf.take this.used

def extractBuf (this : BufferedWriter) : Chunk × BufferedWriter :=
  (this.getBuf, { this with buf := [], used := 0 })

/-! ## What is written -/

section Spec

variable {this : BufferedWriter}

/-- The buffer holds these bytes. -/
structure Holds (this : BufferedWriter) (content : Chunk) : Prop where
  fits : this.used ≤ this.buf.length
  content : this.getBuf = content

variable {content : Chunk}

theorem Holds.used (h : this.Holds content) : this.used = content.length := by
  rw [← h.content, getBuf, List.length_take, min_eq_left h.fits]

theorem holds_create (bufsize : U32) : (create bufsize).Holds [] :=
  ⟨Nat.zero_le _, List.take_zero⟩

theorem holds_extractBuf (h : this.Holds content) :
    this.extractBuf.1 = content ∧ this.extractBuf.2.Holds [] :=
  ⟨h.content, Nat.zero_le _, rfl⟩

theorem le_growLen {increase required : ℕ} (hpos : 0 < increase) (fuel len : ℕ) (h : required ≤ fuel + len) :
    required ≤ growLen increase required fuel len ∧ len ≤ growLen increase required fuel len := by
  induction fuel generalizing len with
  | zero =>
    rw [Nat.zero_add] at h
    exact ⟨h, le_rfl⟩
  | succ fuel ih =>
    rw [growLen]
    split_ifs with hmore
    · obtain ⟨hrequired, hlen⟩ := ih (len + increase) (by omega)
      exact ⟨hrequired, by omega⟩
    · exact ⟨by omega, le_rfl⟩

/-- **A buffer that is increased** has room, and what it had. -/
theorem holds_growBuf (h : this.Holds content) (required : ℕ) :
    (this.growBuf required).Holds content ∧ (this.growBuf required).used = this.used ∧
      this.used + required ≤ (this.growBuf required).buf.length := by
  obtain ⟨hrequired, hlen⟩ := le_growLen this.increase_pos (this.used + required) this.buf.length
    (Nat.le_add_right (this.used + required) _)
  have hroom : this.used + required ≤ (this.growBuf required).buf.length := by
    rw [growBuf]
    dsimp only
    rw [List.length_append, List.length_replicate]
    omega
  refine ⟨⟨by change this.used ≤ _; omega, ?_⟩, rfl, hroom⟩
  rw [← h.content]
  exact List.take_append_of_le_length h.fits

theorem poke_of_le {pos : ℕ} {bytes : Chunk} (h : pos + bytes.length ≤ this.buf.length) :
    this.poke pos bytes =
      some { this with buf := this.buf.take pos ++ bytes ++ this.buf.drop (pos + bytes.length) } :=
  if_pos h

/-- **Bytes that are written** are behind what was there. -/
theorem append_spec (h : this.Holds content) (bytes : Chunk) :
    ∃ this', this.append bytes = some this' ∧ this'.Holds (content ++ bytes) := by
  obtain ⟨hgrown, hused, hroom⟩ := holds_growBuf h bytes.length
  set grown := this.growBuf bytes.length
  have hfit : grown.used + bytes.length ≤ grown.buf.length := by omega
  have htake : (grown.buf.take grown.used).length = grown.used := by
    rw [List.length_take, min_eq_left hgrown.fits]
  rw [append, poke_of_le hfit]
  refine ⟨_, rfl, ?_, ?_⟩
  · dsimp only
    rw [List.length_append, List.length_append, htake]
    omega
  · rw [getBuf]
    dsimp only
    rw [List.take_left' (by rw [List.length_append, htake]), ← hgrown.content, getBuf]

/-- **Bytes that are put in front of all others.** -/
theorem wrap_spec (h : this.Holds content) (header : Chunk) :
    ∃ this', this.wrap header = some this' ∧ this'.Holds (header ++ content) := by
  obtain ⟨hgrown, hused, hroom⟩ := holds_growBuf h header.length
  set grown := this.growBuf header.length
  have hlen : (grown.buf.take grown.used).length = grown.used := by
    rw [List.length_take, min_eq_left hgrown.fits]
  have hcontent : grown.buf.take grown.used = content := hgrown.content
  rw [hcontent] at hlen
  have hfit : header.length + content.length ≤ grown.buf.length := by omega
  have hfront : (grown.buf.take header.length).length = header.length := by
    rw [List.length_take, min_eq_left (by omega)]
  rw [wrap, hcontent, poke_of_le hfit]
  simp only [Option.bind_eq_bind, Option.bind_some]
  rw [poke_of_le (by
    dsimp only
    rw [List.length_append, List.length_append, hfront]
    omega)]
  refine ⟨_, rfl, ?_, ?_⟩
  · dsimp only
    rw [Nat.zero_add, List.append_assoc (grown.buf.take _), List.drop_left' hfront, List.take_zero,
      List.nil_append, List.length_append, List.length_append]
    omega
  · rw [getBuf]
    dsimp only
    rw [Nat.zero_add, List.append_assoc (grown.buf.take _), List.drop_left' hfront, List.take_zero,
      List.nil_append, ← List.append_assoc, List.take_left' (by rw [List.length_append]; omega)]

theorem prefixed_spec (h : this.Holds content) (required : ℕ) (length value : Chunk) :
    ∃ this', ((this.growBuf required).append length).bind (fun this => this.append value) = some this' ∧
      this'.Holds (content ++ (length ++ value)) := by
  obtain ⟨hgrown, -, -⟩ := holds_growBuf h required
  obtain ⟨this₁, hlength, h₁⟩ := append_spec hgrown length
  obtain ⟨this₂, hvalue, h₂⟩ := append_spec h₁ value
  rw [List.append_assoc] at h₂
  exact ⟨this₂, by rw [hlength]; exact hvalue, h₂⟩

end Spec

end BufferedWriter

end StrongSwan
