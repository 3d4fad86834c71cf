import StrongSwan.Basic
import StrongSwan.Lib.Tracks

/-!
# Sequential IVs

`iv_gen_seq` makes IVs from sequence numbers. A number at or below an earlier one is moved to the
upper half of the 64-bit numbers, once, so that both peers of an exchange may use it.

* `getIv`, `allocateIv`: the generator with its two previous numbers.
* `marks`: the two numbers as the marks of two tracks; **`getIv_spec`**: what a call issues.
* **`ivs_unique`**: no IV is issued twice if numbers given in the upper half increase, and
  `ivs_repeated`: otherwise one is.
* **`ikeIvs_available`**: two increasing streams of IKE messages get all their IVs.
-/

namespace StrongSwan

/-- Magic value for the initial IV state -/
def SEQ_IV_INIT_STATE : U64 := ~~~0

def SEQ_IV_HIGH_MASK : U64 := 1 <<< 63

structure IvGen where
  /-- previously passed sequence number in lower space to enforce uniqueness -/
  prevl : U64
  /-- previously passed sequence number in upper space to enforce uniqueness -/
  prevh : U64
  /-- salt to mask counter, if there was randomness for one -/
  salt : Option {salt : Chunk // salt.length = 8}

namespace IvGen

def create (salt : Option {salt : Chunk // salt.length = 8}) : IvGen where
  prevl := SEQ_IV_INIT_STATE
  prevh := SEQ_IV_INIT_STATE
  salt := salt

def ivBuffer (salt : {salt : Chunk // salt.length = 8}) (seq : U64) (size : ℕ) : Chunk :=
  let len := if size > 8 then 8 else size
  let iv := memxor (htoun64 seq) salt
  List.replicate (size - len) 0 ++ iv.drop (8 - len)

/-- Remember the sequence number. -/
def setPrev (this : IvGen) (seq : U64) : IvGen :=
  if seq &&& SEQ_IV_HIGH_MASK ≠ 0 then { this with prevh := seq } else { this with prevl := seq }

def getIv (this : IvGen) (seq : U64) (size : ℕ) : Option Chunk × IvGen :=
  match this.salt with
  | none => (none, this)
  | some salt =>
    if size < 8 then (none, this)
    else
      let passed := this.prevl ≠ SEQ_IV_INIT_STATE ∧ seq ≤ this.prevl
      let seq := if passed then seq ||| SEQ_IV_HIGH_MASK else seq
      if passed ∧ this.prevh ≠ SEQ_IV_INIT_STATE ∧ seq ≤ this.prevh then (none, this)
      else if seq ||| SEQ_IV_HIGH_MASK = SEQ_IV_INIT_STATE then (none, this)
      else (some (ivBuffer salt seq size), this.setPrev seq)

def allocateIv (this : IvGen) (seq : U64) (size : ℕ) : Option Chunk × IvGen := this.getIv seq size

inductive Call
  | getIv (seq : U64) (size : ℕ)
  | allocateIv (seq : U64) (size : ℕ)

def Call.seq : Call → U64
  | .getIv seq _ | .allocateIv seq _ => seq

def Call.size : Call → ℕ
  | .getIv _ size | .allocateIv _ size => size

def call (this : IvGen) : Call → Option Chunk × IvGen
  | .getIv seq size => this.getIv seq size
  | .allocateIv seq size => this.allocateIv seq size

theorem call_eq (this : IvGen) (c : Call) : this.call c = this.getIv c.seq c.size := by
  cases c <;> rfl

/-- What the calls of a sequence return. -/
def ivs (this : IvGen) : List Call → List (Option Chunk)
  | [] => []
  | c :: calls => (this.call c).1 :: (this.call c).2.ivs calls

/-- The generator after a sequence of calls. -/
def after (this : IvGen) (calls : List Call) : IvGen := calls.foldl (fun this c => (this.call c).2) this

def lastEight (iv : Chunk) : Chunk := iv.drop (iv.length - 8)

/-! ## The halves of the sequence numbers -/

/-- The half of a sequence number. -/
def half (seq : U64) : Track := if 2 ^ 63 ≤ seq.toNat then .upper else .lower

/-- The sequence number within its half. -/
def number (seq : U64) : ℕ := seq.toNat % 2 ^ 63

theorem toNat_or_high (seq : U64) :
    (seq ||| SEQ_IV_HIGH_MASK).toNat = 2 ^ 63 + number seq := by
  have hlt := seq.isLt
  have hmask : SEQ_IV_HIGH_MASK.toNat = 2 ^ 63 := by decide
  rw [BitVec.toNat_or, hmask]
  unfold number
  by_cases h : seq.toNat < 2 ^ 63
  · rw [Nat.or_two_pow_eq_add_of_lt h, Nat.mod_eq_of_lt h, Nat.add_comm]
  · have hsplit : seq.toNat = seq.toNat % 2 ^ 63 ||| 2 ^ 63 := by
      rw [Nat.or_two_pow_eq_add_of_lt (Nat.mod_lt _ (by norm_num))]
      omega
    rw [hsplit, Nat.or_assoc, Nat.or_self, ← hsplit]
    omega

theorem and_high_ne_zero_iff (seq : U64) : seq &&& SEQ_IV_HIGH_MASK ≠ 0 ↔ 2 ^ 63 ≤ seq.toNat := by
  have hmask : SEQ_IV_HIGH_MASK = BitVec.twoPow 64 63 := by decide
  have hmsb := BitVec.msb_eq_decide seq
  rw [BitVec.msb_eq_getLsbD_last] at hmsb
  rw [hmask, BitVec.and_twoPow, hmsb]
  split_ifs with h
  · exact iff_of_true (by decide) (of_decide_eq_true h)
  · exact iff_of_false (by simp) fun hle => h (decide_eq_true hle)

theorem or_high_eq_init_iff (seq : U64) :
    seq ||| SEQ_IV_HIGH_MASK = SEQ_IV_INIT_STATE ↔ number seq = 2 ^ 63 - 1 := by
  have hinit : SEQ_IV_INIT_STATE.toNat = 2 ^ 64 - 1 := by decide
  rw [← BitVec.toNat_inj, toNat_or_high, hinit]
  omega

theorem eq_of_half_number {seq seq' : U64} (hhalf : half seq = half seq')
    (hnumber : number seq = number seq') : seq = seq' := by
  have := seq.isLt
  have := seq'.isLt
  unfold half at hhalf
  unfold number at hnumber
  apply BitVec.eq_of_toNat_eq
  split_ifs at hhalf <;> omega

/-! ## What a call issues -/

/-- The previous sequence numbers as marks, and the initial state as empty tracks. -/
def marks (this : IvGen) : Tracks ℕ where
  lower := if this.prevl = SEQ_IV_INIT_STATE then ⊥ else WithBot.some (number this.prevl)
  upper := if this.prevh = SEQ_IV_INIT_STATE then ⊥ else WithBot.some (number this.prevh)

/-- Each previous sequence number is in its half. -/
structure Wf (this : IvGen) : Prop where
  lower : this.prevl = SEQ_IV_INIT_STATE ∨ half this.prevl = .lower
  upper : this.prevh = SEQ_IV_INIT_STATE ∨ half this.prevh = .upper

theorem wf_create (salt : Option {salt : Chunk // salt.length = 8}) : (create salt).Wf :=
  ⟨.inl rfl, .inl rfl⟩

theorem half_eq_upper_iff {seq : U64} : half seq = .upper ↔ 2 ^ 63 ≤ seq.toNat := by
  unfold half
  split_ifs with h
  · exact iff_of_true rfl h
  · exact iff_of_false nofun h

theorem half_eq_lower_iff {seq : U64} : half seq = .lower ↔ seq.toNat < 2 ^ 63 := by
  rw [← not_le, ← half_eq_upper_iff]
  cases half seq <;> simp

theorem half_or_high (seq : U64) : half (seq ||| SEQ_IV_HIGH_MASK) = .upper :=
  half_eq_upper_iff.mpr (by rw [toNat_or_high]; omega)

theorem number_or_high (seq : U64) : number (seq ||| SEQ_IV_HIGH_MASK) = number seq := by
  have hlt : number seq < 2 ^ 63 := Nat.mod_lt _ (by norm_num)
  unfold number at hlt ⊢
  rw [toNat_or_high]
  unfold number
  omega

@[simp] theorem salt_setPrev (this : IvGen) (seq : U64) : (this.setPrev seq).salt = this.salt := by
  unfold setPrev
  split_ifs <;> rfl

theorem ne_init {seq : U64} (h : seq ||| SEQ_IV_HIGH_MASK ≠ SEQ_IV_INIT_STATE) :
    seq ≠ SEQ_IV_INIT_STATE := by
  rintro rfl
  exact h (by decide)

theorem setPrev_spec {this : IvGen} (h : this.Wf) {seq : U64}
    (hseq : seq ||| SEQ_IV_HIGH_MASK ≠ SEQ_IV_INIT_STATE) :
    (this.setPrev seq).Wf ∧ (this.setPrev seq).marks = this.marks.put (number seq) (half seq) := by
  have hinit := ne_init hseq
  unfold setPrev
  simp only [and_high_ne_zero_iff]
  split_ifs with hhigh
  · have hhalf := half_eq_upper_iff.mpr hhigh
    refine ⟨⟨h.lower, .inr hhalf⟩, ?_⟩
    rw [hhalf]
    simp [marks, Tracks.put, hinit]
  · have hhalf := half_eq_lower_iff.mpr (not_le.mp hhigh)
    refine ⟨⟨.inr hhalf, h.upper⟩, ?_⟩
    rw [hhalf]
    simp [marks, Tracks.put, hinit]

theorem passed_iff {this : IvGen} (h : this.Wf) (seq : U64) :
    (this.prevl ≠ SEQ_IV_INIT_STATE ∧ seq ≤ this.prevl) ↔
      half seq = .lower ∧ ¬this.marks.lower < WithBot.some (number seq) := by
  rw [half_eq_lower_iff]
  by_cases hinit : this.prevl = SEQ_IV_INIT_STATE
  · simp [marks, hinit]
  · have hlower := half_eq_lower_iff.mp (h.lower.resolve_left hinit)
    have hnumber : number this.prevl = this.prevl.toNat := Nat.mod_eq_of_lt hlower
    simp only [marks, hinit, if_false, ne_eq, not_false_eq_true, true_and, not_lt, BitVec.le_def,
      hnumber, WithBot.coe_le_coe]
    unfold number
    omega

theorem repeated_iff {this : IvGen} (h : this.Wf) {seq : U64} (hseq : half seq = .upper) :
    (this.prevh ≠ SEQ_IV_INIT_STATE ∧ seq ≤ this.prevh) ↔
      ¬this.marks.upper < WithBot.some (number seq) := by
  rw [half_eq_upper_iff] at hseq
  by_cases hinit : this.prevh = SEQ_IV_INIT_STATE
  · simp [marks, hinit]
  · have hupper := half_eq_upper_iff.mp (h.upper.resolve_left hinit)
    have hlt := this.prevh.isLt
    have hlt' := seq.isLt
    simp only [marks, hinit, if_false, ne_eq, not_false_eq_true, true_and, not_lt, BitVec.le_def,
      WithBot.coe_le_coe]
    unfold number
    omega

/-- The track of what a call issues. Numbers given in the upper half are not compared. -/
def track (this : IvGen) (seq : U64) : Option Track :=
  if seq ||| SEQ_IV_HIGH_MASK = SEQ_IV_INIT_STATE then none
  else if half seq = .upper then some .upper
  else this.marks.place (number seq)

/-- The sequence number that is issued on a track. -/
def onTrack (seq : U64) : Track → U64
  | .lower => seq
  | .upper => seq ||| SEQ_IV_HIGH_MASK

theorem number_onTrack (seq : U64) (k : Track) : number (onTrack seq k) = number seq := by
  cases k
  · rfl
  · exact number_or_high seq

theorem half_onTrack {this : IvGen} {seq : U64} {k : Track} (h : this.track seq = some k) :
    half (onTrack seq k) = k := by
  cases k with
  | lower =>
    unfold track at h
    cases hhalf : half seq with
    | lower => exact hhalf
    | upper => simp [hhalf] at h
  | upper => exact half_or_high seq

theorem or_high_or_high (seq : U64) :
    seq ||| SEQ_IV_HIGH_MASK ||| SEQ_IV_HIGH_MASK = seq ||| SEQ_IV_HIGH_MASK := by
  rw [BitVec.or_assoc, BitVec.or_self]

/-- **What a call issues.** -/
theorem getIv_spec {this : IvGen} (h : this.Wf) {salt : {salt : Chunk // salt.length = 8}}
    (hsalt : this.salt = some salt) (seq : U64) {size : ℕ} (hsize : 8 ≤ size) :
    this.getIv seq size = match this.track seq with
      | none => (none, this)
      | some k => (some (ivBuffer salt (onTrack seq k) size), this.setPrev (onTrack seq k)) := by
  unfold getIv track
  simp only [hsalt, not_lt.mpr hsize, if_false, passed_iff h]
  by_cases hinit : seq ||| SEQ_IV_HIGH_MASK = SEQ_IV_INIT_STATE
  · by_cases hpassed : half seq = .lower ∧ ¬this.marks.lower < WithBot.some (number seq)
    · have hsame : SEQ_IV_INIT_STATE ||| SEQ_IV_HIGH_MASK = SEQ_IV_INIT_STATE := by decide
      simp only [eq_true hpassed, if_true, hinit, hsame, ite_self]
    · simp only [eq_false hpassed, if_false, false_and, hinit, if_true]
  by_cases hpassed : half seq = .lower ∧ ¬this.marks.lower < WithBot.some (number seq)
  · have hrepeated := repeated_iff h (half_or_high seq)
    rw [number_or_high] at hrepeated
    by_cases hupper : this.marks.upper < WithBot.some (number seq)
    · simp [hpassed, hrepeated, hupper, or_high_or_high, hinit, Tracks.place, onTrack]
    · simp [hpassed, hrepeated, hupper, hinit, Tracks.place]
  · cases hhalf : half seq with
    | upper =>
      have hor : seq ||| SEQ_IV_HIGH_MASK = seq := eq_of_half_number
        ((half_or_high seq).trans hhalf.symm) (number_or_high seq)
      rw [hor] at hinit
      simp [hor, hinit, onTrack]
    | lower =>
      have hlower : this.marks.lower < WithBot.some (number seq) := by
        by_contra hle
        exact hpassed ⟨hhalf, hle⟩
      simp [hinit, onTrack, Tracks.place, hlower]

theorem lastEight_ivBuffer (salt : {salt : Chunk // salt.length = 8}) (seq : U64) {size : ℕ}
    (hsize : 8 ≤ size) : lastEight (ivBuffer salt seq size) = memxor (htoun64 seq) salt := by
  have hlen : (if size > 8 then 8 else size) = 8 := by
    split_ifs <;> omega
  have hiv : (memxor (htoun64 seq) salt).length = 8 := by
    rw [memxor, List.length_zipWith, length_htoun64, salt.2]
    rfl
  unfold lastEight ivBuffer
  simp only [hlen, Nat.sub_self, List.drop_zero, List.length_append, List.length_replicate, hiv]
  rw [Nat.add_sub_cancel]
  exact List.drop_left' List.length_replicate

theorem eq_of_masked {salt : {salt : Chunk // salt.length = 8}} {seq seq' : U64}
    (h : memxor (htoun64 seq) salt = memxor (htoun64 seq') salt) : seq = seq' :=
  htoun64_inj (memxor_inj (by rw [length_htoun64, salt.2]) (by rw [length_htoun64, salt.2]) h)

/-! ## Runs -/

/-- The number was not given in the upper half, or is above the previous one there. -/
def Above (this : IvGen) (seq : U64) : Prop :=
  seq < SEQ_IV_HIGH_MASK ∨ this.prevh = SEQ_IV_INIT_STATE ∨ this.prevh < seq

instance (this : IvGen) (seq : U64) : Decidable (this.Above seq) := by
  unfold Above
  infer_instance

/-- Every call of the sequence has such a number. -/
def Ordered (this : IvGen) : List Call → Prop
  | [] => True
  | c :: calls => this.Above c.seq ∧ (this.call c).2.Ordered calls

theorem lt_of_track {this : IvGen} (h : this.Wf) {seq : U64} (habove : this.Above seq) {k : Track}
    (hk : this.track seq = some k) : this.marks.mark k < WithBot.some (number seq) := by
  unfold track at hk
  split_ifs at hk with hinit hhalf
  · cases hk
    have hnot : ¬(this.prevh ≠ SEQ_IV_INIT_STATE ∧ seq ≤ this.prevh) := by
      rintro ⟨hne, hle⟩
      obtain hlow | heq | hlt := habove
      · have hmask : SEQ_IV_HIGH_MASK.toNat = 2 ^ 63 := by decide
        have hhigh := half_eq_upper_iff.mp hhalf
        rw [BitVec.lt_def, hmask] at hlow
        omega
      · exact hne heq
      · exact absurd hle (BitVec.not_le.mpr hlt)
    exact not_not.mp fun hlt => hnot ((repeated_iff h hhalf).mpr hlt)
  · exact Tracks.lt_of_place hk

/-- **What one call returns**, and that it is new if its number is above the previous ones. -/
theorem call_spec {this : IvGen} (h : this.Wf) {salt : {salt : Chunk // salt.length = 8}}
    (hsalt : this.salt = some salt) (c : Call) :
    ((this.call c).1 = none ∧ (this.call c).2 = this) ∨
      ∃ k seq, 8 ≤ c.size ∧ this.track c.seq = some k ∧ half seq = k ∧ number seq = number c.seq ∧
        (this.call c).1 = some (ivBuffer salt seq c.size) ∧ (this.call c).2 = this.setPrev seq ∧
        seq ||| SEQ_IV_HIGH_MASK ≠ SEQ_IV_INIT_STATE := by
  rw [call_eq]
  by_cases hsize : 8 ≤ c.size
  · rw [getIv_spec h hsalt c.seq hsize]
    cases hk : this.track c.seq with
    | none => exact .inl ⟨rfl, rfl⟩
    | some k =>
      refine .inr ⟨k, onTrack c.seq k, hsize, rfl, half_onTrack hk, number_onTrack _ _, rfl, rfl, ?_⟩
      have hne : c.seq ||| SEQ_IV_HIGH_MASK ≠ SEQ_IV_INIT_STATE := by
        intro hinit
        simp [track, hinit] at hk
      cases k with
      | lower => exact hne
      | upper => exact (or_high_or_high c.seq).symm ▸ hne
  · refine .inl ?_
    simp [getIv, hsalt, not_le.mp hsize]

theorem nodup_ivs {salt : {salt : Chunk // salt.length = 8}} (calls : List Call) {this : IvGen}
    (h : this.Wf) (hsalt : this.salt = some salt) (hordered : this.Ordered calls)
    {issued : List U64} (hissued : issued.Nodup)
    (hbelow : this.marks.Below (issued.map fun seq => (half seq, number seq))) :
    (((this.ivs calls).reduceOption.map lastEight) ++
      issued.map fun seq => memxor (htoun64 seq) salt).Nodup := by
  induction calls generalizing this issued with
  | nil => exact hissued.map fun _ _ => eq_of_masked
  | cons c calls ih =>
    obtain ⟨habove, hordered⟩ := hordered
    obtain ⟨hnone, hsame⟩ | ⟨k, seq, hsize, hk, hhalf, hnumber, hiv, hnext, hinit⟩ :=
      call_spec h hsalt c
    · rw [hsame] at hordered
      rw [ivs, hnone, hsame, List.reduceOption_cons_of_none]
      exact ih h hsalt hordered hissued hbelow
    · have hlt := lt_of_track h habove hk
      obtain ⟨hwf, hmarks⟩ := setPrev_spec h hinit
      rw [hnext] at hordered
      have hfresh := hbelow.fresh hlt
      rw [← hhalf, ← hnumber] at hlt hfresh
      have hnew : seq ∉ issued := fun hmem =>
        hfresh (List.mem_map_of_mem (f := fun seq => (half seq, number seq)) hmem)
      have hnodup : (seq :: issued).Nodup := List.nodup_cons.mpr ⟨hnew, hissued⟩
      have hlater := ih hwf ((salt_setPrev this seq).trans hsalt) hordered hnodup
        (hmarks ▸ hbelow.put hlt)
      rw [ivs, hiv, hnext, List.reduceOption_cons_of_some, List.map_cons,
        lastEight_ivBuffer salt seq hsize]
      exact List.perm_middle.nodup hlater

theorem ivs_append (this : IvGen) (calls calls' : List Call) :
    this.ivs (calls ++ calls') = this.ivs calls ++ (this.after calls).ivs calls' := by
  induction calls generalizing this with
  | nil => rfl
  | cons c calls ih => exact congrArg _ (ih _)

theorem after_spec {salt : {salt : Chunk // salt.length = 8}} (calls : List Call) {this : IvGen}
    (h : this.Wf) (hsalt : this.salt = some salt) :
    (this.after calls).Wf ∧ (this.after calls).salt = some salt ∧
      ((this.after calls).prevh = this.prevh ∨ memxor (htoun64 (this.after calls).prevh) salt ∈
        (this.ivs calls).reduceOption.map lastEight) := by
  induction calls generalizing this with
  | nil => exact ⟨h, hsalt, .inl rfl⟩
  | cons c calls ih =>
    obtain ⟨hnone, hsame⟩ | ⟨k, seq, hsize, -, hhalf, -, hiv, hnext, hinit⟩ := call_spec h hsalt c
    · rw [after, List.foldl_cons, hsame, ivs, hnone, hsame, List.reduceOption_cons_of_none]
      exact ih h hsalt
    · obtain ⟨hwf, -⟩ := setPrev_spec h hinit
      obtain ⟨hwf', hsalt', hprevh⟩ := ih hwf ((salt_setPrev this seq).trans hsalt)
      rw [after, List.foldl_cons, hnext, ivs, hiv, hnext, List.reduceOption_cons_of_some,
        List.map_cons, lastEight_ivBuffer salt seq hsize]
      refine ⟨hwf', hsalt', ?_⟩
      obtain hsame | hmem := hprevh
      · change (after _ calls).prevh = this.prevh ∨ _
        rw [← after, hsame]
        unfold setPrev
        split_ifs
        · exact .inr List.mem_cons_self
        · exact .inl rfl
      · exact .inr (List.mem_cons_of_mem _ hmem)

theorem call_upper {this : IvGen} (h : this.Wf) {salt : {salt : Chunk // salt.length = 8}}
    (hsalt : this.salt = some salt) {c : Call} (hsize : 8 ≤ c.size) (hhalf : half c.seq = .upper)
    (hinit : c.seq ||| SEQ_IV_HIGH_MASK ≠ SEQ_IV_INIT_STATE) :
    this.call c = (some (ivBuffer salt c.seq c.size), this.setPrev c.seq) := by
  have hor : c.seq ||| SEQ_IV_HIGH_MASK = c.seq :=
    eq_of_half_number ((half_or_high _).trans hhalf.symm) (number_or_high _)
  have htrack : this.track c.seq = some .upper := by
    simp [track, hinit, hhalf]
  rw [call_eq, getIv_spec h hsalt c.seq hsize, htrack]
  dsimp only [onTrack]
  rw [hor]

/-- **A number that is not above the previous one of the upper half is issued**, and then the
previous one can be issued again. -/
theorem ivs_repeated {salt : {salt : Chunk // salt.length = 8}} (calls : List Call) {c : Call}
    (hbelow : ¬((create (some salt)).after calls).Above c.seq) (hsize : 8 ≤ c.size)
    (hinit : c.seq ||| SEQ_IV_HIGH_MASK ≠ SEQ_IV_INIT_STATE) :
    ∃ c', ¬(((create (some salt)).ivs (calls ++ [c, c'])).reduceOption.map lastEight).Nodup := by
  obtain ⟨hwf, hsalt, hprevh⟩ := after_spec calls (wf_create (some salt)) rfl
  rw [Above, not_or, not_or] at hbelow
  obtain ⟨hhigh, hne, -⟩ := hbelow
  have hmask : SEQ_IV_HIGH_MASK.toNat = 2 ^ 63 := by decide
  have hhalf : half c.seq = .upper := by
    rw [BitVec.lt_def, hmask] at hhigh
    exact half_eq_upper_iff.mpr (not_lt.mp hhigh)
  have hmem := hprevh.resolve_left hne
  have hupper := hwf.upper.resolve_left hne
  have hprev : ((create (some salt)).after calls).prevh ||| SEQ_IV_HIGH_MASK ≠ SEQ_IV_INIT_STATE := by
    intro heq
    have hor := eq_of_half_number ((half_or_high _).trans hupper.symm) (number_or_high _)
    exact hne (hor.symm.trans heq)
  refine ⟨.getIv ((create (some salt)).after calls).prevh 8, ?_⟩
  have hcall := call_upper hwf hsalt hsize hhalf hinit
  have hcall' := call_upper (setPrev_spec hwf hinit).1 ((salt_setPrev _ _).trans hsalt)
    (c := .getIv ((create (some salt)).after calls).prevh 8) le_rfl hupper hprev
  rw [ivs_append, ivs, ivs, ivs, hcall, hcall', List.reduceOption_append,
    List.reduceOption_cons_of_some, List.reduceOption_cons_of_some, List.map_append, List.map_cons,
    List.map_cons, List.nodup_append]
  rintro ⟨-, -, hdisjoint⟩
  have hlast := lastEight_ivBuffer salt ((create (some salt)).after calls).prevh (le_refl 8)
  exact hdisjoint _ hmem _ (List.mem_cons_of_mem _ (List.mem_cons.mpr (.inl hlast.symm))) rfl

theorem ivs_without_salt {this : IvGen} (h : this.salt = none) (calls : List Call) :
    (this.ivs calls).reduceOption = [] := by
  induction calls with
  | nil => rfl
  | cons c calls ih =>
    have hcall : this.call c = (none, this) := by
      rw [call_eq, getIv, h]
    rw [ivs, hcall, List.reduceOption_cons_of_none]
    exact ih

/-- **No IV is issued twice** in a sequence of calls whose numbers in the upper half increase, of
whatever sizes; and after such a sequence a call with another number leads to a repetition. -/
theorem ivs_unique (salt : Option {salt : Chunk // salt.length = 8}) (calls : List Call)
    (h : (create salt).Ordered calls) :
    (((create salt).ivs calls).reduceOption.map lastEight).Nodup ∧
      ∀ c : Call, salt.isSome → ¬((create salt).after calls).Above c.seq → 8 ≤ c.size →
        c.seq ||| SEQ_IV_HIGH_MASK ≠ SEQ_IV_INIT_STATE →
          ∃ c', ¬(((create salt).ivs (calls ++ [c, c'])).reduceOption.map lastEight).Nodup := by
  cases salt with
  | none =>
    have hnone : ((create none).ivs calls).reduceOption = [] := ivs_without_salt rfl calls
    exact ⟨by simp [hnone], nofun⟩
  | some salt =>
    refine ⟨?_, fun c _ hbelow hsize hinit => ivs_repeated calls hbelow hsize hinit⟩
    have hempty : ([] : List U64).Nodup := .nil
    have hnodup := nodup_ivs calls (wf_create (some salt)) rfl h hempty Tracks.below_nil
    simpa using hnodup

/-- Two calls with one number of the lower half, then one with the other half of it. -/
theorem ivs_unique_three :
    let salt : {salt : Chunk // salt.length = 8} := ⟨[1, 2, 3, 4, 5, 6, 7, 8], rfl⟩
    let calls : List Call := [.getIv 5 8, .allocateIv 5 12, .getIv (2 ^ 63 + 6) 8, .getIv 5 8]
    ((create (some salt)).ivs calls).map Option.isSome = [true, true, true, false] ∧
      (((create (some salt)).ivs calls).reduceOption.map lastEight).Nodup := by
  intro salt calls
  have hordered : (create (some salt)).Ordered calls :=
    ⟨by decide +kernel, by decide +kernel, by decide +kernel, by decide +kernel, trivial⟩
  exact ⟨by decide +kernel, (ivs_unique (some salt) calls hordered).1⟩

/-- One number of the upper half, twice. -/
theorem not_ivs_unique :
    ¬∀ (salt : Option {salt : Chunk // salt.length = 8}) (calls : List Call),
      (∀ c ∈ calls, 8 ≤ c.size) →
        (((create salt).ivs calls).reduceOption.map lastEight).Nodup := by
  intro h
  have hnodup := h (some ⟨[1, 2, 3, 4, 5, 6, 7, 8], rfl⟩) [.getIv (2 ^ 63) 8, .getIv (2 ^ 63) 8]
    (by decide)
  exact absurd hnodup (by decide +kernel)

/-! ## IKE messages -/

/-- The sequence number of `encrypt`; the lower bits are for fragment numbers. -/
def encryptSeq (mid : U64) : U64 := mid <<< 32

/-- The sequence number of `frag_encrypt`. -/
def fragEncryptSeq (mid : U64) (fragmentNumber : U16) : U64 :=
  mid <<< 32 ||| fragmentNumber.setWidth 64

/-- An encrypted message or fragment, which is a request or a response. -/
inductive IkeIv
  | encrypt (response : Bool) (mid : U64) (size : ℕ)
  | fragEncrypt (response : Bool) (mid : U64) (fragmentNumber : U16) (size : ℕ)

namespace IkeIv

def response : IkeIv → Bool
  | .encrypt response _ _ | .fragEncrypt response _ _ _ => response

def mid : IkeIv → U64
  | .encrypt _ mid _ | .fragEncrypt _ mid _ _ => mid

def size : IkeIv → ℕ
  | .encrypt _ _ size | .fragEncrypt _ _ _ size => size

def seq : IkeIv → U64
  | .encrypt _ mid _ => encryptSeq mid
  | .fragEncrypt _ mid fragmentNumber _ => fragEncryptSeq mid fragmentNumber

theorem toNat_seq_lt (m : IkeIv) (h : m.mid.toNat < 2 ^ 31 - 1) : m.seq.toNat < 2 ^ 63 - 1 := by
  have hshift : (m.mid <<< 32).toNat = m.mid.toNat * 2 ^ 32 := by
    rw [BitVec.toNat_shiftLeft, Nat.shiftLeft_eq, Nat.mod_eq_of_lt]
    omega
  cases m with
  | encrypt response mid size =>
    change (mid <<< 32).toNat < _
    change (mid <<< 32).toNat = mid.toNat * 2 ^ 32 at hshift
    change mid.toNat < _ at h
    omega
  | fragEncrypt response mid fragmentNumber size =>
    have hfrag := fragmentNumber.isLt
    change (mid <<< 32 ||| fragmentNumber.setWidth 64).toNat < _
    change (mid <<< 32).toNat = mid.toNat * 2 ^ 32 at hshift
    change mid.toNat < _ at h
    have hor := Nat.two_pow_add_eq_or_of_lt (show fragmentNumber.toNat < 2 ^ 32 by omega) mid.toNat
    rw [BitVec.toNat_or, hshift, BitVec.toNat_setWidth_of_le (by norm_num), mul_comm, ← hor]
    omega

end IkeIv

/-- The IVs of messages. -/
def ikeCalls (messages : List IkeIv) : List Call := messages.map fun m => .getIv m.seq m.size

theorem streams_ivs {salt : {salt : Chunk // salt.length = 8}} (messages : List IkeIv) {this : IvGen}
    {last : Bool → WithBot ℕ} (h : this.Wf) (hsalt : this.salt = some salt)
    (hstreams : this.marks.Streams last) (hmid : ∀ m ∈ messages, m.mid.toNat < 2 ^ 31 - 1)
    (hsize : ∀ m ∈ messages, 8 ≤ m.size)
    (hlast : ∀ m ∈ messages, last m.response < WithBot.some m.seq.toNat)
    (hsorted : ∀ response, ((messages.filter (·.response = response)).map IkeIv.seq).Pairwise
      (· < ·)) :
    ∃ ivs : List Chunk, this.ivs (ikeCalls messages) = ivs.map some := by
  induction messages generalizing this last with
  | nil => exact ⟨[], rfl⟩
  | cons m messages ih =>
    have hlt := m.toNat_seq_lt (hmid m List.mem_cons_self)
    have hnumber : number m.seq = m.seq.toNat := Nat.mod_eq_of_lt (by omega)
    have hhalf : half m.seq = .lower := half_eq_lower_iff.mpr (by omega)
    have hinit : m.seq ||| SEQ_IV_HIGH_MASK ≠ SEQ_IV_INIT_STATE := by
      rw [ne_eq, or_high_eq_init_iff]
      omega
    obtain ⟨k, hplace, hnext⟩ := Tracks.place_streams hstreams (hlast m List.mem_cons_self)
    have htrack : this.track m.seq = some k := by
      rw [track, if_neg hinit, hhalf, hnumber, if_neg nofun]
      exact hplace
    have hcall : this.call (.getIv m.seq m.size) =
        (some (ivBuffer salt (onTrack m.seq k) m.size), this.setPrev (onTrack m.seq k)) := by
      rw [call_eq]
      change this.getIv m.seq m.size = _
      rw [getIv_spec h hsalt m.seq (hsize m List.mem_cons_self), htrack]
    have hinit' : onTrack m.seq k ||| SEQ_IV_HIGH_MASK ≠ SEQ_IV_INIT_STATE := by
      cases k with
      | lower => exact hinit
      | upper => exact (or_high_or_high m.seq).symm ▸ hinit
    obtain ⟨hwf, hmarks⟩ := setPrev_spec h hinit'
    rw [half_onTrack htrack, number_onTrack, hnumber] at hmarks
    have hlater : ∀ response, ((messages.filter (·.response = response)).map IkeIv.seq).Pairwise
        (· < ·) := by
      intro response
      have := hsorted response
      rw [List.filter_cons] at this
      split_ifs at this
      · exact (List.pairwise_cons.mp this).2
      · exact this
    have hlast' : ∀ m' ∈ messages, Function.update last m.response (WithBot.some m.seq.toNat)
        m'.response < WithBot.some m'.seq.toNat := by
      intro m' hm'
      by_cases hsame : m'.response = m.response
      · rw [hsame, Function.update_self]
        have hfirst := hsorted m.response
        rw [List.filter_cons_of_pos (by simp), List.map_cons, List.pairwise_cons] at hfirst
        refine WithBot.coe_lt_coe.mpr (BitVec.lt_def.mp (hfirst.1 _ (List.mem_map_of_mem ?_)))
        exact List.mem_filter.mpr ⟨hm', decide_eq_true hsame⟩
      · rw [Function.update_of_ne hsame]
        exact hlast m' (List.mem_cons_of_mem _ hm')
    obtain ⟨ivs', hivs⟩ := ih hwf ((salt_setPrev _ _).trans hsalt) (hmarks ▸ hnext)
      (fun m' hm' => hmid m' (List.mem_cons_of_mem _ hm'))
      (fun m' hm' => hsize m' (List.mem_cons_of_mem _ hm')) hlast' hlater
    refine ⟨ivBuffer salt (onTrack m.seq k) m.size :: ivs', ?_⟩
    change (this.call _).1 :: (this.call _).2.ivs (ikeCalls messages) = _
    rw [hcall, hivs, List.map_cons]

theorem ordered_ikeCalls (messages : List IkeIv)
    (hmid : ∀ m ∈ messages, m.mid.toNat < 2 ^ 31 - 1) (this : IvGen) :
    this.Ordered (ikeCalls messages) := by
  induction messages generalizing this with
  | nil => trivial
  | cons m messages ih =>
    have hlt := m.toNat_seq_lt (hmid m List.mem_cons_self)
    have hmask : SEQ_IV_HIGH_MASK.toNat = 2 ^ 63 := by decide
    refine ⟨.inl ?_, ih (fun m' hm' => hmid m' (List.mem_cons_of_mem _ hm')) _⟩
    rw [BitVec.lt_def, hmask]
    exact hlt.trans (by norm_num)

/-- **IKE messages get their IVs.** If the numbers of the requests increase, and those of the
responses, then in any interleaving of the two every message gets an IV, and no two the same. -/
theorem ikeIvs_available (salt : {salt : Chunk // salt.length = 8}) (messages : List IkeIv)
    (hmid : ∀ m ∈ messages, m.mid.toNat < 2 ^ 31 - 1) (hsize : ∀ m ∈ messages, 8 ≤ m.size)
    (hsorted : ∀ response, ((messages.filter (·.response = response)).map IkeIv.seq).Pairwise
      (· < ·)) :
    ∃ ivs : List Chunk, (create (some salt)).ivs (ikeCalls messages) = ivs.map some ∧ ivs.Nodup := by
  obtain ⟨ivs, hivs⟩ := streams_ivs messages (wf_create (some salt)) rfl Tracks.streams_bot hmid
    hsize (fun m _ => WithBot.bot_lt_coe _) hsorted
  have hempty : ([] : List U64).Nodup := .nil
  have hnodup := nodup_ivs (ikeCalls messages) (wf_create (some salt)) rfl
    (ordered_ikeCalls messages hmid _) hempty Tracks.below_nil
  refine ⟨ivs, hivs, ?_⟩
  have hreduce : (ivs.map some).reduceOption = ivs := by simp [List.reduceOption]
  rw [hivs, hreduce, List.map_nil, List.append_nil] at hnodup
  exact hnodup.of_map _

/-- The responses start late, and use numbers of requests. -/
theorem ikeIvs_available_late :
    let salt : {salt : Chunk // salt.length = 8} := ⟨[1, 2, 3, 4, 5, 6, 7, 8], rfl⟩
    let messages : List IkeIv := [.encrypt false 0 8, .fragEncrypt false 1 1 8,
      .fragEncrypt false 1 2 8, .encrypt true 0 8, .fragEncrypt true 1 1 8, .encrypt true 7 8,
      .encrypt false 7 8]
    ∃ ivs : List Chunk, (create (some salt)).ivs (ikeCalls messages) = ivs.map some ∧ ivs.Nodup := by
  intro salt messages
  refine ikeIvs_available salt messages (by decide) (by decide) fun response => ?_
  cases response <;> decide

end IvGen

end StrongSwan
