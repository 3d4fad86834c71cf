import StrongSwan.Basic
import StrongSwan.Lib.BlockStream

/-!
# Pseudo random functions, and key material

A `Prf` makes a block of a key and data, and `PrfPlus` makes a stream of such blocks that is handed
out in pieces.

* `prfPlusCreate`, `PrfPlus.getBytes`, `PrfPlus.allocateBytes`.
* `PrfPlus.block`, `block_succ`: the blocks, with a counter as long as it fits its octet.
* **`PrfPlus.allocateBytes_spec`**: pieces are consecutive slices of the stream.
-/

namespace StrongSwan

/-- `prf_t`, for which appending data in several calls is one call with all of it -/
structure Prf where
  blockSize : ℕ
  keySize : ℕ
  /-- `set_key` with the first argument, then `get_bytes` for the second -/
  bytes : Chunk → Chunk → Chunk
  blockSize_pos : 0 < blockSize
  length_bytes : ∀ key data, (bytes key data).length = blockSize

def prefixPrf : Prf where
  blockSize := 4
  keySize := 4
  bytes key data := (key ++ data ++ [0, 0, 0, 0]).take 4
  blockSize_pos := by decide
  length_bytes key data := by simp; omega

/-- `private_prf_plus_t`, with the key of its PRF -/
structure PrfPlus where
  prf : Prf
  key : Chunk
  seed : Chunk
  /-- octet which will be appended to the seed, 0 if not used -/
  counter : U8
  /-- already given out bytes in current buffer -/
  used : ℕ
  /-- buffer to store current PRF result -/
  buffer : Chunk

def prfPlusCreate (prf : Prf) (key : Chunk) (counter : Bool) (seed : Chunk) : PrfPlus where
  prf
  key
  seed
  counter := if counter then 2 else 0
  used := 0
  buffer := prf.bytes key (seed ++ if counter then [1] else [])

namespace PrfPlus

/-- Get the next round. -/
def nextRound (this : PrfPlus) : PrfPlus :=
  if this.counter ≠ 0 then { this with
    buffer := this.prf.bytes this.key (this.buffer ++ this.seed ++ [this.counter])
    counter := this.counter + 1
    used := 0 }
  else { this with
    buffer := this.prf.bytes this.key (this.buffer ++ this.seed)
    used := 0 }

/-- If the buffer is used, get the next round. -/
def filled (this : PrfPlus) : PrfPlus :=
  if this.buffer.length = this.used then this.nextRound else this

/-- The loop of `get_bytes`; every pass gives at least one byte. -/
def getBytesLoop : ℕ → PrfPlus → ℕ → Chunk × PrfPlus
  | 0, this, _ => ([], this)
  | fuel + 1, this, length =>
    if length = 0 then ([], this)
    else
      let this := this.filled
      let round := min length (this.buffer.length - this.used)
      let rest := getBytesLoop fuel { this with used := this.used + round } (length - round)
      ((this.buffer.drop this.used).take round ++ rest.1, rest.2)

def getBytes (this : PrfPlus) (length : ℕ) : Chunk × PrfPlus := getBytesLoop length this length

def allocateBytes (this : PrfPlus) (length : ℕ) : Chunk × PrfPlus :=
  if length ≠ 0 then this.getBytes length else ([], this)

/-! ## The stream of blocks -/

variable {this : PrfPlus} {start len : ℕ}

/-- The state after some rounds. -/
def after (this : PrfPlus) : ℕ → PrfPlus
  | 0 => this
  | n + 1 => (this.after n).nextRound

/-- A block of the stream. -/
def block (this : PrfPlus) (n : ℕ) : Chunk := (this.after n).buffer

/-- Some bytes of the stream. -/
def slice (this : PrfPlus) (start len : ℕ) : Chunk :=
  BlockStream.slice this.prf.blockSize this.block start len

@[simp] theorem length_slice : (this.slice start len).length = len := BlockStream.length_slice _ _

theorem slice_add (this : PrfPlus) (start len len' : ℕ) :
    this.slice start (len + len') = this.slice start len ++ this.slice (start + len) len' :=
  BlockStream.slice_add _ _ _

theorem nextRound_used (this : PrfPlus) (used : ℕ) :
    { this with used }.nextRound = this.nextRound := by
  unfold nextRound
  split_ifs <;> rfl

theorem after_static (this : PrfPlus) (n : ℕ) : (this.after n).prf = this.prf ∧
    (this.after n).key = this.key ∧ (this.after n).seed = this.seed := by
  induction n with
  | zero => exact ⟨rfl, rfl, rfl⟩
  | succ n ih =>
    obtain ⟨hprf, hkey, hseed⟩ := ih
    simp only [after, nextRound]
    split_ifs <;> exact ⟨hprf, hkey, hseed⟩

theorem length_block (hbuffer : this.buffer.length = this.prf.blockSize) (n : ℕ) :
    (this.block n).length = this.prf.blockSize := by
  induction n with
  | zero => exact hbuffer
  | succ n _ =>
    obtain ⟨hprf, -, -⟩ := this.after_static n
    simp only [block, after, nextRound]
    split_ifs <;> rw [Prf.length_bytes, hprf]

/-- **The blocks of the stream**: each is made of the one before, the seed and a counter, as long as
the counter fits in an octet. -/
theorem block_succ (prf : Prf) (key seed : Chunk) {n : ℕ} (hn : n + 2 ≤ 255) :
    (prfPlusCreate prf key true seed).block (n + 1) =
      prf.bytes key ((prfPlusCreate prf key true seed).block n ++ seed ++ [BitVec.ofNat 8 (n + 2)]) := by
  have hcounter : ∀ k, k + 2 ≤ 256 →
      ((prfPlusCreate prf key true seed).after k).counter = BitVec.ofNat 8 (k + 2) := by
    intro k hk
    induction k with
    | zero => rfl
    | succ k ih =>
      have hne : BitVec.ofNat 8 (k + 2) ≠ 0 := by
        rw [← BitVec.toNat_inj.ne, BitVec.toNat_ofNat]
        simp
        omega
      rw [after, nextRound, if_pos (ih (by omega) ▸ hne), ih (by omega)]
      rw [← BitVec.toNat_inj, BitVec.toNat_add]
      simp
  obtain ⟨hprf, hkey, hseed⟩ := (prfPlusCreate prf key true seed).after_static n
  have hne : ((prfPlusCreate prf key true seed).after n).counter ≠ 0 := by
    rw [hcounter n (by omega), ← BitVec.toNat_inj.ne, BitVec.toNat_ofNat]
    simp
    omega
  rw [block, after, nextRound, if_pos hne]
  simp only [hprf, hkey, hseed, hcounter n (by omega)]
  rfl

/-- The stream is read up to a position. -/
def At (origin : PrfPlus) (this : PrfPlus) (pos : ℕ) : Prop :=
  ∃ n used, this = { origin.after n with used } ∧ pos = n * origin.prf.blockSize + used ∧
    used ≤ origin.prf.blockSize

variable {origin : PrfPlus} {pos : ℕ}

theorem at_create (prf : Prf) (key : Chunk) (counter : Bool) (seed : Chunk) :
    At (prfPlusCreate prf key counter seed) (prfPlusCreate prf key counter seed) 0 :=
  ⟨0, 0, rfl, by simp, Nat.zero_le _⟩

/-- **The loop hands out what comes next.** -/
theorem getBytesLoop_spec (hbuffer : origin.buffer.length = origin.prf.blockSize) {fuel length : ℕ}
    (hfuel : length ≤ fuel) (hat : At origin this pos) :
    (getBytesLoop fuel this length).1 = origin.slice pos length ∧
      At origin (getBytesLoop fuel this length).2 (pos + length) := by
  induction fuel generalizing this pos length with
  | zero =>
    obtain rfl : length = 0 := by omega
    exact ⟨rfl, hat⟩
  | succ fuel ih =>
    unfold getBytesLoop
    split_ifs with hzero
    · subst hzero
      exact ⟨rfl, hat⟩
    have hpos := origin.prf.blockSize_pos
    -- after the buffer was filled there are bytes left in it
    obtain ⟨n, used, hthis, rfl, hlt⟩ : ∃ n used, this.filled = { origin.after n with used } ∧
        pos = n * origin.prf.blockSize + used ∧ used < origin.prf.blockSize := by
      obtain ⟨n, used, rfl, rfl, hle⟩ := hat
      unfold filled
      have hlength : (origin.after n).buffer.length = origin.prf.blockSize := length_block hbuffer n
      by_cases hused : used = origin.prf.blockSize
      · subst hused
        refine ⟨n + 1, 0, ?_, by rw [Nat.add_mul]; omega, hpos⟩
        rw [if_pos hlength, nextRound_used, after]
        unfold nextRound
        split_ifs <;> rfl
      · exact ⟨n, used, if_neg (by rw [hlength]; exact Ne.symm hused), rfl, by omega⟩
    have hlength : (origin.after n).buffer.length = origin.prf.blockSize := length_block hbuffer n
    dsimp only
    rw [hthis]
    dsimp only
    rw [hlength]
    have hround : used + min length (origin.prf.blockSize - used) ≤ origin.prf.blockSize := by omega
    have hrest : At origin
        { origin.after n with used := used + min length (origin.prf.blockSize - used) }
        (n * origin.prf.blockSize + used + min length (origin.prf.blockSize - used)) :=
      ⟨n, _, rfl, by omega, hround⟩
    obtain ⟨hslice, hnext⟩ := ih
      (show length - min length (origin.prf.blockSize - used) ≤ fuel by omega) hrest
    refine ⟨?_, ?_⟩
    · rw [hslice]
      have hsplit := origin.slice_add (n * origin.prf.blockSize + used)
        (min length (origin.prf.blockSize - used)) (length - min length (origin.prf.blockSize - used))
      rw [Nat.add_sub_cancel' (by omega)] at hsplit
      rw [hsplit]
      exact congrArg (· ++ _) (BlockStream.take_drop_block hpos (length_block hbuffer n) hround)
    · rw [show n * origin.prf.blockSize + used + length = n * origin.prf.blockSize + used +
        min length (origin.prf.blockSize - used) +
        (length - min length (origin.prf.blockSize - used)) by omega]
      exact hnext

/-- **Pieces are consecutive slices of the stream.** -/
theorem allocateBytes_spec (hbuffer : origin.buffer.length = origin.prf.blockSize)
    (hat : At origin this pos) (length : ℕ) :
    (this.allocateBytes length).1 = origin.slice pos length ∧
      At origin (this.allocateBytes length).2 (pos + length) := by
  unfold allocateBytes
  split_ifs with hlength
  · exact getBytesLoop_spec hbuffer le_rfl hat
  · obtain rfl : length = 0 := by omega
    exact ⟨rfl, hat⟩

end PrfPlus

end StrongSwan
