import StrongSwan.Basic
import StrongSwan.Lib.System
import StrongSwan.Lib.ReplayWindow

/-!
# ESP contexts and the anti-replay window

`EspContext` is the state of one direction of an ESP SA. An inbound context keeps a window of the
last `ESP_DEFAULT_WINDOW_SIZE` sequence numbers as a circular bitmap: bit `seqnoIndex` stands for
`lastSeqno`, and the bits before it for the numbers before.

* `getWindowBit_setWindowBit`: the bitmap is a bitmap.
* `Represents c A`: the bitmap `c` stands for the accepted numbers `A`. It holds of a fresh context
  (`represents_create`) and is kept by `setAuthenticatedSeqno` (`represents_setAuthenticatedSeqno`).
* `verifySeqno_of_represents`: `verifySeqno` decides `ReplayWindow.Fresh`.
* **`antiReplay_exact`**: both facts over every run of packet events.
-/

namespace StrongSwan

open ReplayWindow

/-- Should be a multiple of 8. -/
def ESP_DEFAULT_WINDOW_SIZE : U32 := 128

/-- `private_esp_context_t`, over the type of the AEAD it holds. -/
structure EspContext (Aead : Type) where
  /-- AEAD wrapper or method to encrypt/decrypt/authenticate ESP packets -/
  aead : Aead
  /-- highest sequence number verified and authenticated, or assigned in an outbound context -/
  lastSeqno : U32
  /-- the bit in the window of the highest authenticated sequence number -/
  seqnoIndex : U32
  /-- the size of the anti-replay window, in bits -/
  windowSize : U32
  /-- the anti-replay window buffer -/
  window : Chunk
  /-- set in case of an inbound ESP context -/
  inbound : Bool
  deriving DecidableEq

namespace EspContext

variable {Aead : Type}

/-- `esp_context_create`, once the AEAD has been created. -/
def create (aead : Aead) (inbound : Bool) : EspContext Aead where
  aead := aead
  lastSeqno := 0
  seqnoIndex := 0
  windowSize := ESP_DEFAULT_WINDOW_SIZE
  window := if inbound then List.replicate (ESP_DEFAULT_WINDOW_SIZE.toNat / 8 + 1) 0 else []
  inbound := inbound

def setWindowBit (this : EspContext Aead) (index : U32) (set : Bool) : EspContext Aead :=
  let i := index / 8
  { this with
    window := this.window.modify i.toNat fun b =>
      if set then b ||| 1#8 <<< (index % 8).toNat else b &&& ~~~(1#8 <<< (index % 8).toNat) }

def getWindowBit (this : EspContext Aead) (index : U32) : Bool :=
  let i := index / 8
  this.window.getD i.toNat 0 &&& (1#8 <<< (index % 8).toNat) != 0

/-- Is the supplied seqno not already marked in the window? -/
def checkWindow (this : EspContext Aead) (seqno : U32) : Bool :=
  let offset := this.lastSeqno - seqno
  let offset := (this.seqnoIndex - offset) % this.windowSize
  !this.getWindowBit offset

def verifySeqno (this : EspContext Aead) (seqno : U32) : Bool :=
  if !this.inbound then false
  else if seqno > this.lastSeqno then true
  else if seqno > 0 ∧ this.windowSize > this.lastSeqno - seqno then this.checkWindow seqno
  else false

/-- The loop of `set_authenticated_seqno`: move on by `shift` bits, clearing each one. -/
def shiftWindow : ℕ → EspContext Aead → EspContext Aead
  | 0, this => this
  | shift + 1, this =>
    let this := { this with seqnoIndex := (this.seqnoIndex + 1) % this.windowSize }
    shiftWindow shift (this.setWindowBit this.seqnoIndex false)

def setAuthenticatedSeqno (this : EspContext Aead) (seqno : U32) : EspContext Aead :=
  if !this.inbound then this
  else if seqno > this.lastSeqno then
    -- shift the window to the new highest authenticated seqno
    let shift := seqno - this.lastSeqno
    let shift := if shift < this.windowSize then shift else this.windowSize
    let this := this.shiftWindow shift.toNat
    let this := this.setWindowBit this.seqnoIndex true
    { this with lastSeqno := seqno }
  else
    -- seqno is inside the window, set the corresponding window bit
    let i := this.lastSeqno - seqno
    this.setWindowBit ((this.seqnoIndex - i) % this.windowSize) true

/-- The next outbound sequence number, unless it would cycle. -/
def nextSeqno (this : EspContext Aead) : Option (U32 × EspContext Aead) :=
  if this.inbound ∨ this.lastSeqno = BitVec.allOnes 32 then none
  else
    let this := { this with lastSeqno := this.lastSeqno + 1 }
    some (this.lastSeqno, this)

/-! ## The bitmap -/

section Bitmap

theorem and_shiftLeft_ne_zero {w : ℕ} (x : BitVec w) {k : ℕ} (hk : k < w) :
    (x &&& 1#w <<< k != 0) = x.getLsbD k := by
  change (x &&& BitVec.twoPow w k != 0#w) = _
  rw [BitVec.and_twoPow]
  cases x.getLsbD k with
  | false => simp
  | true =>
    have h : BitVec.twoPow w k ≠ 0#w := by
      intro h
      have := congrArg (·.getLsbD k) h
      simp [hk] at this
    simpa using h

theorem getLsbD_write {w : ℕ} (x : BitVec w) (b : Bool) {k j : ℕ} (hj : j < w) :
    (if b then x ||| 1#w <<< k else x &&& ~~~(1#w <<< k)).getLsbD j =
      if k = j then b else x.getLsbD j := by
  rw [← BitVec.twoPow_eq]
  rcases eq_or_ne k j with rfl | hkj
  · cases b <;> simp [hj]
  · cases b <;> simp [hj, hkj, hkj.symm]

variable (c : EspContext Aead) (i j : U32) (b : Bool)

@[simp] theorem lastSeqno_setWindowBit : (c.setWindowBit i b).lastSeqno = c.lastSeqno := rfl
@[simp] theorem seqnoIndex_setWindowBit : (c.setWindowBit i b).seqnoIndex = c.seqnoIndex := rfl
@[simp] theorem windowSize_setWindowBit : (c.setWindowBit i b).windowSize = c.windowSize := rfl
@[simp] theorem inbound_setWindowBit : (c.setWindowBit i b).inbound = c.inbound := rfl
@[simp] theorem aead_setWindowBit : (c.setWindowBit i b).aead = c.aead := rfl

@[simp] theorem length_window_setWindowBit :
    (c.setWindowBit i b).window.length = c.window.length := by
  simp [setWindowBit]

theorem getWindowBit_eq :
    c.getWindowBit j = (c.window.getD (j.toNat / 8) 0).getLsbD (j.toNat % 8) := by
  have h8 : (8 : U32).toNat = 8 := rfl
  simp only [getWindowBit, BitVec.toNat_udiv, BitVec.toNat_umod, h8]
  exact and_shiftLeft_ne_zero _ (Nat.mod_lt _ (by omega))

/-- **Reading back a written bit.** -/
theorem getWindowBit_setWindowBit (hi : i.toNat / 8 < c.window.length) :
    (c.setWindowBit i b).getWindowBit j = if i = j then b else c.getWindowBit j := by
  have h8 : (8 : U32).toNat = 8 := rfl
  have hij : i = j ↔ i.toNat / 8 = j.toNat / 8 ∧ i.toNat % 8 = j.toNat % 8 := by
    rw [← BitVec.toNat_inj]
    omega
  have hmod : j.toNat % 8 < 8 := Nat.mod_lt _ (by omega)
  simp only [getWindowBit_eq, setWindowBit, BitVec.toNat_udiv, BitVec.toNat_umod, h8, hij]
  by_cases hdiv : i.toNat / 8 = j.toNat / 8
  · have hget : ∀ f : U8 → U8, (c.window.modify (i.toNat / 8) f).getD (j.toNat / 8) 0 =
        f (c.window.getD (j.toNat / 8) 0) := by
      intro f
      rw [hdiv] at hi ⊢
      simp [List.getD_eq_getElem?_getD, hi]
    rw [hget, getLsbD_write _ _ hmod]
    simp [hdiv]
  · have hget : ∀ f : U8 → U8, (c.window.modify (i.toNat / 8) f).getD (j.toNat / 8) 0 =
        c.window.getD (j.toNat / 8) 0 := by
      intro f
      simp [List.getD_eq_getElem?_getD, hdiv]
    rw [hget, if_neg (fun h => hdiv h.1)]

end Bitmap

/-! ## Moving the window -/

section Shift

variable (n : ℕ) (c : EspContext Aead)

@[simp] theorem lastSeqno_shiftWindow : (shiftWindow n c).lastSeqno = c.lastSeqno := by
  induction n generalizing c with
  | zero => rfl
  | succ n ih => simp [shiftWindow, ih]

@[simp] theorem windowSize_shiftWindow : (shiftWindow n c).windowSize = c.windowSize := by
  induction n generalizing c with
  | zero => rfl
  | succ n ih => simp [shiftWindow, ih]

@[simp] theorem inbound_shiftWindow : (shiftWindow n c).inbound = c.inbound := by
  induction n generalizing c with
  | zero => rfl
  | succ n ih => simp [shiftWindow, ih]

@[simp] theorem aead_shiftWindow : (shiftWindow n c).aead = c.aead := by
  induction n generalizing c with
  | zero => rfl
  | succ n ih => simp [shiftWindow, ih]

@[simp] theorem aead_setAuthenticatedSeqno (s : U32) :
    (c.setAuthenticatedSeqno s).aead = c.aead := by
  unfold setAuthenticatedSeqno
  dsimp only
  split_ifs <;> simp

@[simp] theorem length_window_shiftWindow :
    (shiftWindow n c).window.length = c.window.length := by
  induction n generalizing c with
  | zero => rfl
  | succ n ih => simp [shiftWindow, ih]

end Shift

/-- The shape of an inbound context: the bitmap has room for every index below the window size. -/
structure WellFormed (c : EspContext Aead) : Prop where
  inbound : c.inbound = true
  windowSize : c.windowSize = ESP_DEFAULT_WINDOW_SIZE
  length : c.window.length = 17
  seqnoIndex : c.seqnoIndex.toNat < 128

section WellFormed

variable {c : EspContext Aead} (hc : c.WellFormed)

theorem toNat_mod_size (i : U32) : (i % ESP_DEFAULT_WINDOW_SIZE).toNat = i.toNat % 128 := by
  rw [BitVec.toNat_umod]
  rfl

include hc

theorem WellFormed.setWindowBit (i : U32) (b : Bool) : (c.setWindowBit i b).WellFormed :=
  ⟨hc.inbound, hc.windowSize, by simpa using hc.length, hc.seqnoIndex⟩

theorem WellFormed.setIndex {i : U32} (hi : i.toNat < 128) :
    ({ c with seqnoIndex := i } : EspContext Aead).WellFormed :=
  ⟨hc.inbound, hc.windowSize, hc.length, hi⟩

/-- The write never leaves the buffer. -/
theorem WellFormed.getWindowBit_setWindowBit {i : U32} (hi : i.toNat < 128) (j : U32) (b : Bool) :
    (c.setWindowBit i b).getWindowBit j = if i = j then b else c.getWindowBit j :=
  EspContext.getWindowBit_setWindowBit c i j b (by rw [hc.length]; omega)

omit hc in
/-- **The forward jump**: the index advances by `n` and the `n` bits passed read `0`. -/
theorem WellFormed.shiftWindow (hc : c.WellFormed) {n : ℕ} (hn : n ≤ 128) :
    (shiftWindow n c).WellFormed ∧
      (shiftWindow n c).seqnoIndex.toNat = (c.seqnoIndex.toNat + n) % 128 ∧
      ∀ j : U32, j.toNat < 128 → (shiftWindow n c).getWindowBit j =
        if (j.toNat + 127 - c.seqnoIndex.toNat) % 128 < n then false else c.getWindowBit j := by
  induction n generalizing c with
  | zero =>
    refine ⟨hc, ?_, fun j _ => by simp [EspContext.shiftWindow]⟩
    rw [EspContext.shiftWindow, Nat.add_zero, Nat.mod_eq_of_lt hc.seqnoIndex]
  | succ n ih =>
    -- one turn of the loop moves to `c'`
    set i : U32 := (c.seqnoIndex + 1) % c.windowSize with hi
    have hlt := hc.seqnoIndex
    have hiv : i.toNat = (c.seqnoIndex.toNat + 1) % 128 := by
      rw [hi, hc.windowSize, toNat_mod_size, BitVec.toNat_add, show (1 : U32).toNat = 1 from rfl]
      omega
    have hi128 : i.toNat < 128 := by omega
    set c' : EspContext Aead := ({ c with seqnoIndex := i } : EspContext Aead).setWindowBit i false
    have hc' : c'.WellFormed := (hc.setIndex hi128).setWindowBit i false
    have hidx : c'.seqnoIndex = i := rfl
    obtain ⟨hw, hx, hb⟩ := ih hc' (by omega)
    refine ⟨hw, ?_, fun j hj => ?_⟩
    · change (EspContext.shiftWindow n c').seqnoIndex.toNat = _
      rw [hx, hidx, hiv]
      omega
    · change (EspContext.shiftWindow n c').getWindowBit j = _
      rw [hb j hj, hidx, (hc.setIndex hi128).getWindowBit_setWindowBit hi128]
      have hij : i = j ↔ i.toNat = j.toNat := BitVec.toNat_inj.symm
      change (if _ then false else if _ then false else c.getWindowBit j) = _
      simp only [hij, hiv]
      split_ifs <;> first | rfl | omega

end WellFormed

/-! ## The bitmap stands for a set of sequence numbers -/

/-- The bitmap of `c` stands for the accepted numbers `A`: their highest is `lastSeqno`, and the
bit `k` places before `seqnoIndex` tells whether `lastSeqno - k` was accepted. -/
structure Represents (c : EspContext Aead) (A : Finset ℕ) : Prop where
  wellFormed : c.WellFormed
  top : top A = c.lastSeqno.toNat
  bits : ∀ k : U32, k.toNat < 128 → k < c.lastSeqno →
    c.getWindowBit ((c.seqnoIndex - k) % c.windowSize) = decide ((c.lastSeqno - k).toNat ∈ A)

section Represents

variable {c : EspContext Aead} {A : Finset ℕ}

theorem represents_create (aead : Aead) : (create aead true).Represents ∅ where
  wellFormed := ⟨rfl, rfl, rfl, Nat.zero_lt_succ _⟩
  top := rfl
  bits k _ hk := absurd hk (by simp [create])

/-- **`verify_seqno` decides freshness.** -/
theorem verifySeqno_of_represents (h : c.Represents A) (s : U32) :
    c.verifySeqno s = true ↔ Fresh 128 A s.toNat := by
  have htop := h.top
  have hw : c.windowSize.toNat = 128 := by rw [h.wellFormed.windowSize]; rfl
  by_cases hs : s > c.lastSeqno
  · have hlt : ReplayWindow.top A < s.toNat := by rw [htop]; exact hs
    simp [verifySeqno, h.wellFormed.inbound, hs, fresh_of_top_lt hlt]
  · have hle : s.toNat ≤ c.lastSeqno.toNat := by simpa [BitVec.lt_def] using hs
    have hsub : (c.lastSeqno - s).toNat = c.lastSeqno.toNat - s.toNat := by bv_omega
    by_cases hin : s > 0 ∧ c.windowSize > c.lastSeqno - s
    · obtain ⟨h0, hwin⟩ := hin
      have h0' : 0 < s.toNat := by simpa [BitVec.lt_def] using h0
      have hwin' : (c.lastSeqno - s).toNat < 128 := by rw [← hw]; exact hwin
      have hback : c.lastSeqno - (c.lastSeqno - s) = s := by bv_omega
      have hbit := h.bits (c.lastSeqno - s) hwin' (by bv_omega)
      rw [hback] at hbit
      simp only [verifySeqno, h.wellFormed.inbound, hs, h0, hwin, checkWindow, hbit]
      simp only [Fresh, htop]
      constructor
      · intro hmem
        exact ⟨by omega, by simpa using hmem, .inr (by omega)⟩
      · rintro ⟨-, hmem, -⟩
        simpa using hmem
    · have hfalse : c.verifySeqno s = false := by
        simp only [verifySeqno, h.wellFormed.inbound, hs, hin]
        rfl
      rw [hfalse]
      simp only [Bool.false_eq_true, false_iff]
      rintro ⟨h0, -, hwin⟩
      refine hin ⟨?_, ?_⟩
      · rw [gt_iff_lt, BitVec.lt_def]
        exact Nat.pos_of_ne_zero h0
      · rw [gt_iff_lt, BitVec.lt_def, hw, hsub]
        omega

/-- The bit read for a number inside the window is the bit written for it. -/
theorem toNat_index_sub {i k : U32} (hi : i.toNat < 128) (hk : k.toNat < 128) :
    ((i - k) % ESP_DEFAULT_WINDOW_SIZE).toNat = (i.toNat + 128 - k.toNat) % 128 := by
  rw [toNat_mod_size, BitVec.toNat_sub]
  omega

/-- A jump above the highest number. -/
theorem Represents.jump (h : c.Represents A) {s : U32} (hs : s > c.lastSeqno) :
    (c.setAuthenticatedSeqno s).Represents (insert s.toNat A) := by
  have hc := h.wellFormed
  have hlt : c.lastSeqno.toNat < s.toNat := hs
  set n : ℕ := min (s.toNat - c.lastSeqno.toNat) 128 with hn
  have hshift : (if s - c.lastSeqno < c.windowSize then s - c.lastSeqno else c.windowSize).toNat =
      n := by
    have hsub : (s - c.lastSeqno).toNat = s.toNat - c.lastSeqno.toNat := by bv_omega
    have h128 : ESP_DEFAULT_WINDOW_SIZE.toNat = 128 := rfl
    rw [hc.windowSize]
    split_ifs with hlt128 <;> rw [BitVec.lt_def] at hlt128 <;> omega
  obtain ⟨hw, hx, hb⟩ := hc.shiftWindow (n := n) (by omega)
  set c₁ := c.shiftWindow n with hc₁
  have hset : c.setAuthenticatedSeqno s =
      { c₁.setWindowBit c₁.seqnoIndex true with lastSeqno := s } := by
    simp only [setAuthenticatedSeqno, hc.inbound, hs, hshift]
    rfl
  have hsize : c₁.windowSize = ESP_DEFAULT_WINDOW_SIZE := hw.windowSize
  have hlast : c₁.lastSeqno = c.lastSeqno := lastSeqno_shiftWindow n c
  rw [hset]
  refine ⟨⟨hw.inbound, hsize, (hw.setWindowBit _ _).length, hw.seqnoIndex⟩, ?_, fun k hk hks => ?_⟩
  · rw [top_insert, h.top]
    exact max_eq_left hlt.le
  change (c₁.setWindowBit c₁.seqnoIndex true).getWindowBit ((c₁.seqnoIndex - k) % c₁.windowSize) =
    decide ((s - k).toNat ∈ insert s.toNat A)
  have hks' : k.toNat < s.toNat := hks
  have hsk : (s - k).toNat = s.toNat - k.toNat := by bv_omega
  have hpos : ((c₁.seqnoIndex - k) % c₁.windowSize).toNat =
      (c₁.seqnoIndex.toNat + 128 - k.toNat) % 128 := by
    rw [hsize]
    exact toNat_index_sub hw.seqnoIndex hk
  have hidx := hc.seqnoIndex
  rw [hw.getWindowBit_setWindowBit hw.seqnoIndex, hb _ (by omega), hpos, hsk]
  have heq : c₁.seqnoIndex = (c₁.seqnoIndex - k) % c₁.windowSize ↔ k.toNat = 0 := by
    rw [← BitVec.toNat_inj, hpos]
    omega
  by_cases hk0 : k.toNat = 0
  · rw [if_pos (heq.mpr hk0), hk0]
    simp
  rw [if_neg (fun e => hk0 (heq.mp e))]
  by_cases hkn : k.toNat < n
  · -- the bits passed by the jump stand for numbers above the old highest one
    have hnot : s.toNat - k.toNat ∉ insert s.toNat A := by
      rw [Finset.mem_insert, not_or]
      exact ⟨by omega, not_mem_of_top_lt (by rw [h.top]; omega)⟩
    rw [if_pos (by omega)]
    simp [hnot]
  · -- the other bits have not moved
    obtain ⟨k₀, hk₀⟩ : ∃ k₀ : U32, k₀.toNat = k.toNat - n := ⟨BitVec.ofNat 32 (k.toNat - n), by
      rw [BitVec.toNat_ofNat]
      omega⟩
    have hold := h.bits k₀ (by omega) (by rw [BitVec.lt_def]; omega)
    have hsame : (c₁.seqnoIndex - k) % c₁.windowSize = (c.seqnoIndex - k₀) % c.windowSize := by
      rw [← BitVec.toNat_inj, hpos, hc.windowSize, toNat_index_sub hidx (by omega)]
      omega
    have hnum : (c.lastSeqno - k₀).toNat = s.toNat - k.toNat := by bv_omega
    rw [if_neg (by omega), hsame, hold, hnum]
    have hne : s.toNat - k.toNat ≠ s.toNat := by omega
    simp [hne]

/-- A number inside the window. -/
theorem Represents.mark (h : c.Represents A) {s : U32} (hs : ¬ s > c.lastSeqno)
    (hf : Fresh 128 A s.toNat) : (c.setAuthenticatedSeqno s).Represents (insert s.toNat A) := by
  have hc := h.wellFormed
  have hle : s.toNat ≤ c.lastSeqno.toNat := by simpa [BitVec.lt_def] using hs
  obtain ⟨h0, -, hwin⟩ := hf
  rw [h.top] at hwin
  have hsub : (c.lastSeqno - s).toNat = c.lastSeqno.toNat - s.toNat := by bv_omega
  have hin : (c.lastSeqno - s).toNat < 128 := by omega
  set i := (c.seqnoIndex - (c.lastSeqno - s)) % c.windowSize with hi
  have hiv : i.toNat = (c.seqnoIndex.toNat + 128 - (c.lastSeqno - s).toNat) % 128 := by
    rw [hi, hc.windowSize, toNat_index_sub hc.seqnoIndex hin]
  have hset : c.setAuthenticatedSeqno s = c.setWindowBit i true := by
    simp only [setAuthenticatedSeqno, hc.inbound, hs]
    rfl
  rw [hset]
  refine ⟨hc.setWindowBit _ _, ?_, fun k hk hks => ?_⟩
  · rw [top_insert, h.top]
    exact max_eq_right hle
  change (c.setWindowBit i true).getWindowBit ((c.seqnoIndex - k) % c.windowSize) =
    decide ((c.lastSeqno - k).toNat ∈ insert s.toNat A)
  have hkl : k.toNat < c.lastSeqno.toNat := hks
  have hpos : ((c.seqnoIndex - k) % c.windowSize).toNat =
      (c.seqnoIndex.toNat + 128 - k.toNat) % 128 := by
    rw [hc.windowSize]
    exact toNat_index_sub hc.seqnoIndex hk
  have hnum : (c.lastSeqno - k).toNat = c.lastSeqno.toNat - k.toNat := by bv_omega
  have hidx := hc.seqnoIndex
  rw [hc.getWindowBit_setWindowBit (by omega), h.bits k hk hks]
  -- two numbers of the window share a bit only if they are equal
  have heq : i = (c.seqnoIndex - k) % c.windowSize ↔ (c.lastSeqno - k).toNat = s.toNat := by
    rw [← BitVec.toNat_inj, hiv, hpos]
    omega
  by_cases hks' : (c.lastSeqno - k).toNat = s.toNat
  · rw [if_pos (heq.mpr hks'), hks']
    simp
  · rw [if_neg (fun e => hks' (heq.mp e))]
    simp only [Finset.mem_insert, hks', false_or]

/-- **`set_authenticated_seqno` keeps the bitmap exact.** -/
theorem represents_setAuthenticatedSeqno (h : c.Represents A) {s : U32}
    (hf : Fresh 128 A s.toNat) : (c.setAuthenticatedSeqno s).Represents (insert s.toNat A) := by
  by_cases hs : s > c.lastSeqno
  · exact h.jump hs
  · exact h.mark hs hf

end Represents

end EspContext

/-! ## Runs of packet events -/

/-- A received ESP packet: its sequence number and whether its ICV is correct. -/
structure PacketEvent where
  seqno : U32
  authentic : Bool
  deriving DecidableEq

/-- An inbound context with the list of the sequence numbers it authenticated, newest first. -/
structure Receiver (Aead : Type) where
  context : EspContext Aead
  authenticated : List U32

namespace Receiver

variable {Aead : Type}

/-- A freshly created inbound context. -/
def create (aead : Aead) : Receiver Aead := ⟨EspContext.create aead true, []⟩

/-- The calls `decrypt` makes to its context for one packet. -/
def receive (r : Receiver Aead) (ev : PacketEvent) : Receiver Aead :=
  if r.context.verifySeqno ev.seqno && ev.authentic then
    ⟨r.context.setAuthenticatedSeqno ev.seqno, ev.seqno :: r.authenticated⟩
  else r

/-- The highest authenticated sequence number, `0` if there is none. -/
def highest (r : Receiver Aead) : ℕ := (r.authenticated.map BitVec.toNat).foldr max 0

/-- The authenticated numbers as an abstract window. -/
def accepted (r : Receiver Aead) : Finset ℕ := (r.authenticated.map BitVec.toNat).toFinset

theorem aead_foldl (evs : List PacketEvent) (r : Receiver Aead) :
    (evs.foldl receive r).context.aead = r.context.aead := by
  induction evs generalizing r with
  | nil => rfl
  | cons ev evs ih =>
    rw [List.foldl_cons, ih, receive]
    split_ifs <;> simp

theorem top_accepted (r : Receiver Aead) : top r.accepted = r.highest := by
  unfold accepted highest
  induction r.authenticated with
  | nil => rfl
  | cons s l ih => rw [List.map_cons, List.toFinset_cons, top_insert, ih, List.foldr_cons]

theorem mem_accepted (r : Receiver Aead) (s : U32) :
    s.toNat ∈ r.accepted ↔ s ∈ r.authenticated := by
  simp [accepted, BitVec.toNat_inj]

/-- What holds of a receiver after every packet. -/
structure Inv (r : Receiver Aead) : Prop where
  represents : r.context.Represents r.accepted
  nodup : r.authenticated.Nodup

theorem inv_create (aead : Aead) : (create aead).Inv :=
  ⟨EspContext.represents_create aead, List.nodup_nil⟩

theorem inv_receive {r : Receiver Aead} (h : r.Inv) (ev : PacketEvent) : (r.receive ev).Inv := by
  unfold receive
  split_ifs with hv
  · rw [Bool.and_eq_true] at hv
    have hf := (EspContext.verifySeqno_of_represents h.represents _).mp hv.1
    refine ⟨?_, List.nodup_cons.mpr ⟨fun hmem => hf.not_mem ?_, h.nodup⟩⟩
    · have := EspContext.represents_setAuthenticatedSeqno h.represents hf
      simpa [accepted] using this
    · exact (r.mem_accepted _).mpr hmem
  · exact h

theorem inv_run (aead : Aead) (evs : List PacketEvent) : (evs.foldl receive (create aead)).Inv := by
  have hrun : LTS.Run (LTS.ofFun (· = create aead) receive) evs (evs.foldl receive (create aead)) :=
    LTS.run_ofFun.mpr ⟨_, rfl, rfl⟩
  refine hrun.invariant (I := Inv) ?_ ?_
  · rintro _ rfl
    exact inv_create aead
  · rintro r ev _ h rfl
    exact inv_receive h ev

/-- A number above or inside the window that was not authenticated is accepted. -/
theorem Inv.verifySeqno {r : Receiver Aead} (h : r.Inv) {s : U32} (h0 : s ≠ 0)
    (hnew : s ∉ r.authenticated) (hwin : r.highest < s.toNat ∨ r.highest - s.toNat < 128) :
    r.context.verifySeqno s = true := by
  rw [EspContext.verifySeqno_of_represents h.represents, Fresh, mem_accepted, top_accepted]
  refine ⟨fun h => h0 ?_, hnew, hwin⟩
  rw [← BitVec.toNat_inj, h]
  rfl

/-- **The anti-replay window is exact.** After any sequence of packets a number is accepted exactly
if it is positive, was not authenticated before and is above or inside the window below the highest
authenticated one; no number is authenticated twice. -/
theorem antiReplay_exact (aead : Aead) (evs : List PacketEvent) :
    let r := evs.foldl receive (create aead)
    (∀ s : U32, r.context.verifySeqno s = true ↔
      s ≠ 0 ∧ s ∉ r.authenticated ∧ (r.highest < s.toNat ∨ r.highest - s.toNat < 128)) ∧
      r.authenticated.Nodup := by
  intro r
  have h : r.Inv := inv_run aead evs
  refine ⟨fun s => ?_, h.nodup⟩
  rw [EspContext.verifySeqno_of_represents h.represents, Fresh, mem_accepted, top_accepted]
  have h0 : s.toNat ≠ 0 ↔ s ≠ 0 := by
    rw [ne_eq, ne_eq, ← BitVec.toNat_inj]
    rfl
  rw [h0]

end Receiver

end StrongSwan
