import StrongSwan.Crypto.Prf

/-!
# The stream of prf+

* `streamBlock`, `stream`: the blocks that are specified, and those up to a number.
* `Request`, `run`: calls of `get_bytes` and `allocate_bytes`.
* `run_spec`: the bytes that are returned are those of the stream that the code makes.
* **`wellDefined_iff`**: with a counter, they are those that are specified up to 255 blocks.
-/

namespace StrongSwan

namespace PrfPlus

/-! ## The specification -/

/-- The counter octet of a block, if there is one -/
def octet (counter : Bool) (n : ℕ) : Chunk := if counter then [BitVec.ofNat 8 n] else []

section Specification

variable (prf : Prf) (key : Chunk) (counter : Bool) (seed : Chunk)

/-- The blocks, of which the first one has the counter 1 -/
def streamBlock : ℕ → Chunk
  | 0 => prf.bytes key (seed ++ octet counter 1)
  | n + 1 => prf.bytes key (streamBlock n ++ seed ++ octet counter (n + 2))

/-- The first blocks -/
def stream (blocks : ℕ) : Chunk := (List.range blocks).flatMap (streamBlock prf key counter seed)

/-- A call that requests some bytes -/
inductive Request
  | getBytes (length : ℕ)
  | allocateBytes (length : ℕ)

def Request.length : Request → ℕ
  | getBytes length => length
  | allocateBytes length => length

/-- One call; `none` stands for `FALSE`, which is returned if the PRF fails. -/
def Request.run (this : PrfPlus) : Request → Option Chunk × PrfPlus
  | getBytes length => (some (this.getBytes length).1, (this.getBytes length).2)
  | allocateBytes length => (some (this.allocateBytes length).1, (this.allocateBytes length).2)

/-- The results of calls, one after the other -/
def run : PrfPlus → List Request → List (Option Chunk)
  | _, [] => []
  | this, request :: requests => (request.run this).1 :: run (request.run this).2 requests

/-- The number of bytes that are requested -/
def requested (requests : List Request) : ℕ := (requests.map Request.length).sum

/-- What the results of requests should be: bytes of one stream, and with a counter no more than 255
blocks of it. -/
structure WellDefined (requests : List Request) (results : List (Option Chunk)) : Prop where
  isPrefix : ∃ blocks, (results.filterMap id).flatten <+: stream prf key counter seed blocks
  fails : counter = true → ∀ i < requests.length,
    255 * prf.blockSize < requested (requests.take (i + 1)) → results[i]? = some none

end Specification

/-! ## The stream that is made -/

variable {this origin : PrfPlus} {pos : ℕ}

theorem Request.run_spec (hbuffer : origin.buffer.length = origin.prf.blockSize)
    (hat : At origin this pos) (request : Request) :
    (request.run this).1 = some (origin.slice pos request.length) ∧
      At origin (request.run this).2 (pos + request.length) := by
  cases request with
  | getBytes length =>
    obtain ⟨hslice, hnext⟩ := getBytesLoop_spec hbuffer (le_refl length) hat
    exact ⟨congrArg some hslice, hnext⟩
  | allocateBytes length =>
    obtain ⟨hslice, hnext⟩ := allocateBytes_spec hbuffer hat length
    exact ⟨congrArg some hslice, hnext⟩

/-- **The results are the bytes of the stream, one behind the other**; no call fails. -/
theorem run_spec (hbuffer : origin.buffer.length = origin.prf.blockSize)
    (hat : At origin this pos) (requests : List Request) :
    ((run this requests).filterMap id).flatten = origin.slice pos (requested requests) ∧
      ∀ i : ℕ, (run this requests)[i]? ≠ some none := by
  induction requests generalizing this pos with
  | nil => exact ⟨rfl, nofun⟩
  | cons request requests ih =>
    obtain ⟨hresult, hnext⟩ := request.run_spec hbuffer hat
    obtain ⟨hbytes, hsome⟩ := ih hnext
    refine ⟨?_, fun i => ?_⟩
    · have hcons : ((run this (request :: requests)).filterMap id).flatten =
          origin.slice pos request.length ++
            ((run (request.run this).2 requests).filterMap id).flatten := by
        rw [run, hresult]
        rfl
      have hrequested : requested (request :: requests) = request.length + requested requests :=
        List.sum_cons
      rw [hcons, hbytes, hrequested, slice_add]
    · cases i with
      | zero =>
        rw [run, hresult]
        nofun
      | succ i => exact hsome i

theorem slice_blocks (hbuffer : origin.buffer.length = origin.prf.blockSize) (blocks : ℕ) :
    origin.slice 0 (blocks * origin.prf.blockSize) = (List.range blocks).flatMap origin.block := by
  induction blocks with
  | zero => simp [slice]
  | succ blocks ih =>
    have hlength := length_block hbuffer blocks
    have hblock : ((origin.block blocks).drop 0).take origin.prf.blockSize =
        BlockStream.slice origin.prf.blockSize origin.block
          (blocks * origin.prf.blockSize + 0) origin.prf.blockSize :=
      BlockStream.take_drop_block origin.prf.blockSize_pos hlength (by omega)
    rw [Nat.add_mul, Nat.one_mul, slice_add, ih, List.range_succ, List.flatMap_append,
      List.flatMap_singleton, Nat.zero_add]
    congr 1
    rw [List.drop_zero, List.take_of_length_le hlength.le, Nat.add_zero] at hblock
    exact hblock.symm

theorem counter_after {n : ℕ} (h : origin.counter = 0) : (origin.after n).counter = 0 := by
  induction n with
  | zero => exact h
  | succ n ih =>
    rw [after, nextRound, if_neg (not_not.2 ih)]
    exact ih

/-- **The blocks that are made are those that are specified**, up to 255 of them with a counter. -/
theorem block_eq_streamBlock (prf : Prf) (key : Chunk) (counter : Bool) (seed : Chunk) {n : ℕ}
    (hn : counter = true → n + 1 ≤ 255) :
    (prfPlusCreate prf key counter seed).block n = streamBlock prf key counter seed n := by
  induction n with
  | zero => rfl
  | succ n ih =>
    have hprev := ih fun hcounter => (Nat.le_succ _).trans (hn hcounter)
    cases counter with
    | true => rw [block_succ prf key seed (hn rfl), hprev, streamBlock, octet, if_pos rfl]
    | false =>
      obtain ⟨hprf, hkey, hseed⟩ := (prfPlusCreate prf key false seed).after_static n
      have hzero : ((prfPlusCreate prf key false seed).after n).counter = 0 := counter_after rfl
      rw [block, after, nextRound, if_neg (not_not.2 hzero), streamBlock, ← hprev]
      simp only [hprf, hkey, hseed, octet, Bool.false_eq_true, if_false, List.append_nil]
      rfl

/-- **The bytes of prf+ are well defined** without a counter, or up to 255 blocks. -/
theorem wellDefined_iff (prf : Prf) (key : Chunk) (counter : Bool) (seed : Chunk)
    (requests : List Request) :
    WellDefined prf key counter seed requests
        (run (prfPlusCreate prf key counter seed) requests) ↔
      counter = false ∨ requested requests ≤ 255 * prf.blockSize := by
  set origin := prfPlusCreate prf key counter seed with horigin
  have hbuffer : origin.buffer.length = origin.prf.blockSize := prf.length_bytes _ _
  obtain ⟨hbytes, hsome⟩ := run_spec hbuffer (at_create prf key counter seed) requests
  constructor
  · intro hwell
    by_contra hnot
    rw [not_or, Bool.not_eq_false, not_le] at hnot
    obtain ⟨hcounter, hlt⟩ := hnot
    have hne : 0 < requests.length := by
      rw [List.length_pos_iff]
      rintro rfl
      simp [requested] at hlt
    refine hsome (requests.length - 1) (hwell.fails hcounter (requests.length - 1) (by omega) ?_)
    rw [List.take_of_length_le (by omega)]
    exact hlt
  · intro hcondition
    -- enough blocks of the stream for all requests
    obtain ⟨blocks, hle, hblocks⟩ : ∃ blocks, requested requests ≤ blocks * prf.blockSize ∧
        (counter = true → blocks ≤ 255) := by
      rcases hcondition with hcounter | hle
      · refine ⟨requested requests, Nat.le_mul_of_pos_right _ prf.blockSize_pos, fun h => ?_⟩
        rw [hcounter] at h
        cases h
      · exact ⟨255, hle, fun _ => le_rfl⟩
    refine ⟨⟨blocks, ?_⟩, fun hcounter i hi hlt => ?_⟩
    · have hstream : stream prf key counter seed blocks =
          origin.slice 0 (blocks * prf.blockSize) := by
        have hslice := slice_blocks hbuffer blocks
        refine Eq.trans ?_ hslice.symm
        refine List.flatMap_congr fun n hn => ?_
        rw [List.mem_range] at hn
        exact (block_eq_streamBlock prf key counter seed fun h => by have := hblocks h; omega).symm
      rw [hbytes, hstream, ← Nat.add_sub_cancel' hle, slice_add]
      exact List.prefix_append _ _
    · exfalso
      rcases hcondition with hfalse | hle
      · rw [hcounter] at hfalse
        cases hfalse
      · have hsub : requested (requests.take (i + 1)) ≤ requested requests := by
          rw [requested, requested, List.map_take]
          exact List.Sublist.sum_le_sum (List.take_sublist _ _) fun _ _ => Nat.zero_le _
        omega

/-- The 256th block is returned, although there is no counter for it. -/
theorem not_wellDefined :
    ¬WellDefined prefixPrf [1] true [2] [.getBytes 1021]
      (run (prfPlusCreate prefixPrf [1] true [2]) [.getBytes 1021]) := by
  intro h
  have hnone := h.fails rfl 0 (by decide) (by decide)
  simp [run, Request.run] at hnone

end PrfPlus

end StrongSwan
