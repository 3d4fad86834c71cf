import StrongSwan.Credentials.CertCache

/-!
# The cache of trusted relations is sound

* `Verifies`: certificates equal to these were verified, with this scheme.
* `PcOk`, `Inv`: what a thread knows where it is; `Grows`: what others may change.
* `slotIndex_bounds`: which random offsets give the index of a slot.
* **`along_after_iff_defined`**: relations and results are sound, flushes are complete and no thread fails, if and
  only if no slot becomes empty between the two looks for an older CRL, and no random offset makes
  the sum with the position of a slot exceed `2 ^ 31`.
-/

namespace StrongSwan

namespace CertCache

variable {Cert : Type} (ops : CertOps Cert)

def Verifies (subject issuer : Cert) (scheme : SignatureParams) : Prop :=
  ∃ s i, ops.equals s subject = true ∧ ops.equals i issuer = true ∧ ops.issuedBy s i = some scheme

/-- No relation that a flush concerns is left in slot `i` from before the stamp `start`. -/
def Flushed (this : CertCache Cert) (type : CertificateType) (start i : ℕ) : Prop :=
  ∀ rel, (this.relations i).relation = some rel → Flushes ops type rel.subject → start ≤ rel.stamp

/-- What is to hold after an event. -/
structure After (this : CertCache Cert) (event : Event Cert) : Prop where
  sound : ∀ i rel, ((this.step ops event).relations i).relation = some rel →
    Verifies ops rel.subject rel.issuer rel.scheme
  issued : ∀ t subject issuer scheme,
    (this.step ops event).pc t = .issued subject issuer (some scheme) →
      Verifies ops subject issuer scheme
  flushed : ∀ t type start, (this.step ops event).pc t = .flushed type start →
    ∀ i < cacheSize, Flushed ops (this.step ops event) type start i
  defined : ∀ t error, (this.step ops event).pc t ≠ .stuck error

/-- A slot that held a CRL is not empty when its lock is there, and the position of a slot and the random
offset add up to at most `2 ^ 31`. -/
def Defined (this : CertCache Cert) : Event Cert → Prop
  | .run t lockFree _ =>
    match this.pc t with
    | .crlLock _ i => this.tryWriteLock i lockFree = true → (this.relations i).relation.isSome = true
    | .replace _ _ offset i _ => i < cacheSize → i + offset.toNat ≤ 2 ^ 31
    | _ => True
  | _ => True

/-! ## Threads -/

/-- A relation that is to be cached was verified. -/
structure JobOk (job : Job Cert) : Prop where
  issued : ops.issuedBy job.subject job.issuer = some job.scheme
  target : ops.equals job.issuer job.target = true

/-- What a thread knows where it is. -/
def PcOk (this : CertCache Cert) : Pc Cert → Prop
  | .idle => True
  | .search _ issuer _ cachedIssuer => ∀ c, cachedIssuer = some c → ops.equals issuer c = true
  | .issued subject issuer result =>
    ∀ scheme, result = some scheme → Verifies ops subject issuer scheme
  | .crl job _ | .crlLock job _ | .free job _ _ | .freeLock job _ _ | .replaceStart job _ _
  | .replace job _ _ _ _ | .replaceLock job _ _ _ _ => JobOk ops job
  | .flush type i start | .flushWrite type i start =>
    start ≤ this.clock ∧ ∀ j < i, Flushed ops this type start j
  | .flushRead type i start =>
    type ≠ .any ∧ start ≤ this.clock ∧ ∀ j < i, Flushed ops this type start j
  | .flushed type start => start ≤ this.clock ∧ ∀ j < cacheSize, Flushed ops this type start j
  | .enumerating _ _ _ => True
  | .stuck _ => False

/-- The invariant: relations are sound, and threads know what they know. -/
structure Inv (this : CertCache Cert) : Prop where
  sound : ∀ i rel, (this.relations i).relation = some rel →
    Verifies ops rel.subject rel.issuer rel.scheme
  pcs : ∀ t, PcOk ops this (this.pc t)

/-- Slots get new sound relations, or lose theirs. -/
structure Grows (this this' : CertCache Cert) : Prop where
  pc : this'.pc = this.pc
  clock : this.clock ≤ this'.clock
  slots : ∀ i rel, (this'.relations i).relation = some rel →
    (this.relations i).relation = some rel ∨
      this.clock ≤ rel.stamp ∧ Verifies ops rel.subject rel.issuer rel.scheme

section Grows

variable {ops} {this this' : CertCache Cert} {t : ℕ} {pc : Pc Cert}

theorem Grows.refl (this : CertCache Cert) : Grows ops this this :=
  ⟨rfl, le_rfl, fun _ _ h => .inl h⟩

theorem Grows.trans {this'' : CertCache Cert} (h : Grows ops this this')
    (h' : Grows ops this' this'') : Grows ops this this'' := by
  refine ⟨h'.pc.trans h.pc, h.clock.trans h'.clock, fun i rel hrel => ?_⟩
  rcases h'.slots i rel hrel with hrel | ⟨hstamp, hsound⟩
  · exact h.slots i rel hrel
  · exact .inr ⟨h.clock.trans hstamp, hsound⟩

theorem Grows.flushed (h : Grows ops this this') {type : CertificateType} {start i : ℕ}
    (hstart : start ≤ this.clock) (hflushed : Flushed ops this type start i) :
    Flushed ops this' type start i := by
  intro rel hrel htype
  rcases h.slots i rel hrel with hrel | ⟨hstamp, -⟩
  · exact hflushed rel hrel htype
  · exact hstart.trans hstamp

theorem Grows.pcOk (h : Grows ops this this') (hpc : PcOk ops this pc) : PcOk ops this' pc := by
  cases pc with
  | flush | flushWrite | flushed =>
    exact ⟨hpc.1.trans h.clock, fun j hj => h.flushed hpc.1 (hpc.2 j hj)⟩
  | flushRead =>
    obtain ⟨htype, hstart, hflushed⟩ := hpc
    exact ⟨htype, hstart.trans h.clock, fun j hj => h.flushed hstart (hflushed j hj)⟩
  | _ => exact hpc

/-- **A section keeps the invariant**, if its thread knows what it is to know where it goes. -/
theorem Inv.goto (hinv : Inv ops this) (h : Grows ops this this') (hpc : PcOk ops this' pc) :
    Inv ops (this'.goto t pc) := by
  constructor
  · intro i rel hrel
    rcases h.slots i rel hrel with hrel | ⟨-, hsound⟩
    · exact hinv.sound i rel hrel
    · exact hsound
  · intro t'
    change PcOk ops this' (Function.update this'.pc t pc t')
    by_cases ht : t' = t
    · subst ht
      rwa [Function.update_self]
    · rw [Function.update_of_ne ht, h.pc]
      exact h.pcOk (hinv.pcs t')

theorem grows_setSlot {i : ℕ} {slot : Slot Cert}
    (h : ∀ rel, slot.relation = some rel → (this.relations i).relation = some rel) :
    Grows ops this (this.setSlot i slot) := by
  refine ⟨rfl, le_rfl, fun j rel hrel => .inl ?_⟩
  change (Function.update this.relations i slot j).relation = some rel at hrel
  by_cases hj : j = i
  · subst hj
    rw [Function.update_self] at hrel
    exact h rel hrel
  · rwa [Function.update_of_ne hj] at hrel

theorem grows_store {i : ℕ} {subject issuer : Cert} {scheme : SignatureParams} {hits : U32}
    (h : Verifies ops subject issuer scheme) :
    Grows ops this (this.store i subject issuer scheme hits) := by
  refine ⟨rfl, Nat.le_succ _, fun j rel hrel => ?_⟩
  change (Function.update this.relations i _ j).relation = some rel at hrel
  by_cases hj : j = i
  · subst hj
    rw [Function.update_self] at hrel
    cases hrel
    exact .inr ⟨le_rfl, h⟩
  · rw [Function.update_of_ne hj] at hrel
    exact .inl hrel

theorem grows_unlock (locked : Option ℕ) : Grows ops this (this.unlock locked) := by
  cases locked with
  | none => exact .refl this
  | some i => exact grows_setSlot fun _ h => h

end Grows

/-! ## The index of a random slot -/

theorem slotIndex_bounds {i : ℕ} (hi : i < cacheSize) (offset : BitVec 31) :
    (0 ≤ slotIndex i offset ∧ slotIndex i offset < cacheSize) ↔ i + offset.toNat ≤ 2 ^ 31 := by
  have hoffset := offset.isLt
  simp only [cacheSize] at hi
  have hsum : (BitVec.ofNat 32 i + offset.setWidth 32).toNat = i + offset.toNat := by
    rw [BitVec.toNat_add, BitVec.toNat_ofNat, BitVec.toNat_setWidth]
    omega
  rw [slotIndex, BitVec.toInt_eq_toNat_cond, hsum, cacheSize]
  split_ifs with hlt
  · rw [Int.tmod_eq_emod_of_nonneg (by omega)]
    omega
  · have hneg : ((i + offset.toNat : ℕ) : ℤ) - ((2 ^ 32 : ℕ) : ℤ) =
        -((2 ^ 32 - (i + offset.toNat) : ℕ) : ℤ) := by omega
    rw [hneg, Int.neg_tmod, Int.tmod_eq_emod_of_nonneg (by omega)]
    omega

/-! ## The sections -/

section Sections

variable {ops} (hcert : Equivalence fun a b => ops.equals a b = true) {this : CertCache Cert} {t i : ℕ}
  {job : Job Cert} {totalHits : U32} {lockFree : Bool} {random offset : BitVec 31}

include hcert

theorem JobOk.verifies (h : JobOk ops job) : Verifies ops job.subject job.target job.scheme :=
  ⟨job.subject, job.issuer, hcert.refl _, h.target, h.issued⟩

theorem JobOk.done (h : JobOk ops job) : PcOk ops this job.done := by
  intro scheme hscheme
  cases hscheme
  exact ⟨job.subject, job.issuer, hcert.refl _, hcert.refl _, h.issued⟩

theorem Inv.stored (hinv : Inv ops this) (hjob : JobOk ops job) {issuer : Cert} {hits : U32}
    (h : Verifies ops job.subject issuer job.scheme) :
    Inv ops ((this.store i job.subject issuer job.scheme hits).goto t job.done) :=
  hinv.goto (grows_store h) (hjob.done hcert)

theorem Inv.issuedBy (hinv : Inv ops this) {subject issuer : Cert} {cachedIssuer : Option Cert}
    (hpc : PcOk ops this (.search subject issuer i cachedIssuer)) :
    Inv ops (this.issuedBy ops t subject issuer i cachedIssuer) := by
  rw [CertCache.issuedBy]
  split_ifs with hi
  · cases hrel : (this.relations i).relation with
    | none => exact hinv.goto (.refl this) hpc
    | some current =>
      dsimp only
      split_ifs with hissuer hsubject
      · obtain ⟨s, c, hs, hc, hscheme⟩ := hinv.sound i current hrel
        refine hinv.goto (grows_setSlot fun rel h => h) fun scheme heq => ?_
        cases heq
        exact ⟨s, c, hcert.trans hs (hcert.symm hsubject), hcert.trans hc (hcert.symm hissuer),
          hscheme⟩
      · refine hinv.goto (.refl this) fun c hc => ?_
        cases hc
        cases cachedIssuer with
        | none => exact hissuer
        | some cached => exact hpc cached rfl
      · exact hinv.goto (.refl this) hpc
  · cases hverified : ops.issuedBy subject issuer with
    | none => exact hinv.goto (.refl this) fun scheme heq => by cases heq
    | some scheme =>
      have hjob : JobOk ops ⟨subject, issuer, cachedIssuer, scheme⟩ := by
        refine ⟨hverified, ?_⟩
        cases cachedIssuer with
        | none => exact hcert.refl issuer
        | some cached => exact hpc cached rfl
      refine hinv.goto (.refl this) ?_
      rw [cache]
      split_ifs <;> exact hjob

omit hcert in
theorem Inv.cacheCrl (hinv : Inv ops this) (hjob : JobOk ops job) :
    Inv ops (this.cacheCrl ops t job i) := by
  rw [CertCache.cacheCrl]
  split_ifs with hi
  · cases (this.relations i).relation with
    | none => exact hinv.goto (.refl this) hjob
    | some rel =>
      dsimp only
      split_ifs <;> exact hinv.goto (.refl this) hjob
  · exact hinv.goto (.refl this) hjob

theorem Inv.cacheCrlLock (hinv : Inv ops this) (hjob : JobOk ops job)
    (hsome : this.tryWriteLock i lockFree = true → (this.relations i).relation.isSome = true) :
    Inv ops (this.cacheCrlLock ops t job i lockFree) := by
  rw [CertCache.cacheCrlLock]
  split_ifs with hlock
  · cases hrel : (this.relations i).relation with
    | none =>
      have := hsome hlock
      rw [hrel] at this
      cases this
    | some rel =>
      dsimp only
      split_ifs with hreplace
      · -- the issuer stays, it equals the one of the new CRL
        obtain ⟨-, hissuer, -, -⟩ := hreplace
        exact hinv.stored hcert hjob ⟨job.subject, job.issuer, hcert.refl _,
          hcert.trans hjob.target (hcert.symm hissuer), hjob.issued⟩
      · exact hinv.goto (.refl this) hjob
  · exact hinv.goto (.refl this) hjob

omit hcert in
theorem Inv.cacheFree (hinv : Inv ops this) (hjob : JobOk ops job) :
    Inv ops (this.cacheFree t job i totalHits) := by
  rw [CertCache.cacheFree]
  split_ifs with hi
  · cases (this.relations i).relation <;> exact hinv.goto (.refl this) hjob
  · exact hinv.goto (.refl this) hjob

theorem Inv.cacheFreeLock (hinv : Inv ops this) (hjob : JobOk ops job) :
    Inv ops (this.cacheFreeLock t job i totalHits lockFree) := by
  rw [CertCache.cacheFreeLock]
  split_ifs
  · exact hinv.stored hcert hjob (hjob.verifies hcert)
  · exact hinv.goto (.refl this) hjob

theorem Inv.replaceStart (hinv : Inv ops this) (hjob : JobOk ops job) {attempt : ℕ} :
    Inv ops (this.replaceStart t job attempt totalHits random) := by
  rw [CertCache.replaceStart]
  split_ifs
  · exact hinv.goto (.refl this) hjob
  · exact hinv.goto (.refl this) (hjob.done hcert)

omit hcert in
theorem Inv.replace (hinv : Inv ops this) (hjob : JobOk ops job) {attempt : ℕ}
    (hbounds : i < cacheSize → i + offset.toNat ≤ 2 ^ 31) :
    Inv ops (this.replace t job attempt offset i totalHits) := by
  rw [CertCache.replace]
  dsimp only
  split_ifs with hi hindex hhits
  · exact hinv.goto (.refl this) hjob
  · exact hinv.goto (.refl this) hjob
  · exact absurd ((slotIndex_bounds hi offset).mpr (hbounds hi)) hindex
  · exact hinv.goto (.refl this) hjob

theorem Inv.replaceLock (hinv : Inv ops this) (hjob : JobOk ops job) {attempt : ℕ} :
    Inv ops (this.replaceLock t job attempt offset i totalHits lockFree) := by
  rw [CertCache.replaceLock]
  split_ifs
  · exact hinv.stored hcert hjob (hjob.verifies hcert)
  · exact hinv.goto (.refl this) hjob

end Sections

section Flush

variable {ops} {this : CertCache Cert} {t i start : ℕ} {type : CertificateType}

theorem flushed_succ (h : ∀ j < i, Flushed ops this type start j)
    (hi : Flushed ops this type start i) : ∀ j < i + 1, Flushed ops this type start j := by
  intro j hj
  rcases Nat.lt_succ_iff_lt_or_eq.mp hj with hj | rfl
  · exact h j hj
  · exact hi

theorem flushed_of_none (h : (this.relations i).relation = none) :
    Flushed ops this type start i := by
  intro rel hrel
  rw [h] at hrel
  cases hrel

theorem Inv.flush (hinv : Inv ops this) (hpc : PcOk ops this (.flush type i start)) :
    Inv ops (this.flush t type i start) := by
  rw [CertCache.flush]
  by_cases hi : i < cacheSize
  · rw [if_pos hi]
    cases hrel : (this.relations i).relation with
    | none =>
      exact hinv.goto (.refl this) ⟨hpc.1, flushed_succ hpc.2 (flushed_of_none hrel)⟩
    | some rel =>
      dsimp only
      split_ifs with htype
      · exact hinv.goto (.refl this) ⟨htype, hpc⟩
      · exact hinv.goto (.refl this) hpc
  · rw [if_neg hi]
    have hflushed : PcOk ops this (.flushed type start) := ⟨hpc.1, fun j hj => hpc.2 j (by omega)⟩
    exact hinv.goto (.refl this) hflushed

theorem Inv.flushRead (hinv : Inv ops this) (hpc : PcOk ops this (.flushRead type i start)) :
    Inv ops (this.flushRead ops t type i start) := by
  obtain ⟨htype, hstart, hflushed⟩ := hpc
  rw [CertCache.flushRead]
  cases hrel : (this.relations i).relation with
  | none =>
    exact hinv.goto (.refl this) ⟨hstart, flushed_succ hflushed (flushed_of_none hrel)⟩
  | some rel =>
    dsimp only
    split_ifs with heq
    · exact hinv.goto (.refl this) ⟨hstart, hflushed⟩
    · refine hinv.goto (.refl this) ⟨hstart, flushed_succ hflushed fun rel' hrel' hflushes => ?_⟩
      rw [hrel] at hrel'
      cases hrel'
      exact absurd hflushes (not_or.mpr ⟨htype, heq⟩)

theorem Inv.flushWrite (hinv : Inv ops this) (hpc : PcOk ops this (.flushWrite type i start)) :
    Inv ops (this.flushWrite ops t type i start) := by
  rw [CertCache.flushWrite]
  split_ifs with hreaders
  · cases hrel : (this.relations i).relation with
    | none => exact hinv.goto (.refl this) ⟨hpc.1, flushed_succ hpc.2 (flushed_of_none hrel)⟩
    | some rel =>
      dsimp only
      split_ifs with hflushes
      · have hgrows : Grows ops this
            (this.setSlot i { this.relations i with relation := none, hits := 0 }) :=
          grows_setSlot fun rel h => by cases h
        refine hinv.goto hgrows ⟨hpc.1, flushed_succ (fun j hj => hgrows.flushed hpc.1 (hpc.2 j hj))
          (flushed_of_none ?_)⟩
        change (Function.update this.relations i _ i).relation = none
        rw [Function.update_self]
      · refine hinv.goto (.refl this) ⟨hpc.1, flushed_succ hpc.2 fun rel' hrel' hflushes' => ?_⟩
        rw [hrel] at hrel'
        cases hrel'
        exact absurd hflushes' hflushes
  · exact hinv

theorem Inv.enumerate (hinv : Inv ops this) {p : Cert → Bool} {index : ℕ} {locked : Option ℕ} :
    Inv ops (this.enumerate t p index locked) := by
  have hgrows : Grows ops this (this.unlock locked) := grows_unlock locked
  rw [CertCache.enumerate]
  dsimp only
  split_ifs with hindex
  · cases hrel : ((this.unlock locked).relations index).relation with
    | none => exact hinv.goto hgrows trivial
    | some rel =>
      dsimp only
      split_ifs
      · exact hinv.goto (hgrows.trans (grows_setSlot fun _ h => hrel.trans h)) trivial
      · exact hinv.goto hgrows trivial
  · exact hinv.goto hgrows trivial

end Flush

/-! ## All events -/

section Step

variable {ops} {this : CertCache Cert}

theorem inv_create : Inv ops (create : CertCache Cert) :=
  ⟨fun _ _ h => (by cases h), fun _ => trivial⟩

theorem Inv.start (hinv : Inv ops this) (t : ℕ) (call : Call Cert) :
    Inv ops (this.start t call) := by
  cases call with
  | issuedBy subject issuer => exact hinv.goto (.refl this) fun c hc => by cases hc
  | flush type => exact hinv.goto (.refl this) ⟨le_rfl, fun j hj => absurd hj (by omega)⟩
  | createEnumerator p => exact hinv.goto (.refl this) trivial

theorem Inv.run (hinv : Inv ops this) (hcert : Equivalence fun a b => ops.equals a b = true) {t : ℕ}
    {lockFree : Bool} {random : BitVec 31} (hdefined : this.Defined (.run t lockFree random)) :
    Inv ops (this.run ops t lockFree random) := by
  have hpc := hinv.pcs t
  rw [Defined] at hdefined
  rw [CertCache.run]
  cases hthread : this.pc t with
  | search => rw [hthread] at hpc; exact hinv.issuedBy hcert hpc
  | crl => rw [hthread] at hpc; exact hinv.cacheCrl hpc
  | crlLock =>
    rw [hthread] at hpc hdefined
    exact hinv.cacheCrlLock hcert hpc hdefined
  | free => rw [hthread] at hpc; exact hinv.cacheFree hpc
  | freeLock => rw [hthread] at hpc; exact hinv.cacheFreeLock hcert hpc
  | replaceStart => rw [hthread] at hpc; exact hinv.replaceStart hcert hpc
  | replace =>
    rw [hthread] at hpc hdefined
    exact hinv.replace hpc hdefined
  | replaceLock => rw [hthread] at hpc; exact hinv.replaceLock hcert hpc
  | flush => rw [hthread] at hpc; exact hinv.flush hpc
  | flushRead => rw [hthread] at hpc; exact hinv.flushRead hpc
  | flushWrite => rw [hthread] at hpc; exact hinv.flushWrite hpc
  | enumerating => exact hinv.enumerate
  | idle | issued | flushed | stuck => exact hinv

variable {event : Event Cert}

/-- **Every event keeps the invariant.** -/
theorem Inv.step (hinv : Inv ops this) (hcert : Equivalence fun a b => ops.equals a b = true)
    (hdefined : this.Defined event) : Inv ops (this.step ops event) := by
  cases event with
  | run t lockFree random => exact hinv.run hcert hdefined
  | call t call =>
    rw [CertCache.step]
    cases this.pc t with
    | idle | issued | flushed => exact hinv.start t call
    | _ => exact hinv
  | destroy t =>
    rw [CertCache.step]
    cases this.pc t with
    | enumerating => exact hinv.goto (grows_unlock _) trivial
    | _ => exact hinv

theorem Inv.after (hinv : Inv ops (this.step ops event)) :
    After ops this event := by
  refine ⟨hinv.sound, fun t subject issuer scheme hpc => ?_, fun t type start hpc i hi => ?_,
    fun t error hpc => ?_⟩
  · have hknown := hinv.pcs t
    rw [hpc] at hknown
    exact hknown scheme rfl
  · have hknown := hinv.pcs t
    rw [hpc] at hknown
    exact hknown.2 i hi
  · have hknown := hinv.pcs t
    rw [hpc] at hknown
    exact hknown

theorem pc_goto_self (this : CertCache Cert) (t : ℕ) (pc : Pc Cert) : (this.goto t pc).pc t = pc :=
  Function.update_self ..

theorem defined_of_after (hafter : After ops this event) :
    this.Defined event := by
  cases event with
  | call | destroy => trivial
  | run t lockFree random =>
    have hnever := hafter.defined t
    change ∀ error, (this.run ops t lockFree random).pc t ≠ .stuck error at hnever
    rw [Defined]
    rw [CertCache.run] at hnever
    cases hthread : this.pc t with
    | crlLock job i =>
      rw [hthread] at hnever
      intro hlock
      rw [Option.isSome_iff_ne_none]
      intro hnone
      simp only [cacheCrlLock, hlock, if_true, hnone] at hnever
      exact hnever _ (pc_goto_self ..)
    | replace job attempt offset i totalHits =>
      rw [hthread] at hnever
      intro hi
      rw [← slotIndex_bounds hi]
      by_contra hindex
      simp only [CertCache.replace, hi, if_true, hindex, if_false] at hnever
      exact hnever _ (pc_goto_self ..)
    | _ => trivial

/-- **The cache is sound in every run, if and only if every event of it is defined.** -/
theorem along_after_iff_defined (hcert : Equivalence fun a b => ops.equals a b = true)
    (events : List (Event Cert)) :
    LTS.Along (step ops) (After ops) create events ↔ LTS.Along (step ops) Defined create events := by
  refine LTS.along_congr (I := Inv ops) ?_ ?_ inv_create
  · exact fun hinv hdefined => hinv.step hcert hdefined
  · exact fun hinv => ⟨defined_of_after, fun hdefined => (hinv.step hcert hdefined).after⟩

end Step

/-- CRLs that are numbers, newer ones have higher numbers. -/
def exampleOps : CertOps ℕ where
  equals a b := decide (a = b)
  getType _ := .x509Crl
  issuedBy _ _ := some (.plain 0)
  isDeltaCrl _ := false
  crlIsNewer a b := decide (b < a)

theorem exampleOps_equals : Equivalence fun a b => exampleOps.equals a b = true :=
  ⟨fun _ => decide_eq_true rfl, fun h => decide_eq_true (of_decide_eq_true h).symm,
    fun h h' => decide_eq_true ((of_decide_eq_true h).trans (of_decide_eq_true h'))⟩

/-- A thread verifies a CRL in an empty cache. -/
theorem along_after_iff_verified :
    LTS.Along (step exampleOps) (After exampleOps) create [.call 0 (.issuedBy 1 0)] ↔
      LTS.Along (step exampleOps) Defined create [.call 0 (.issuedBy 1 0)] :=
  along_after_iff_defined exampleOps_equals _

/-- The CRL 1 is cached in slot 0. A thread that verifies CRL 2 sees it there, the cache is flushed, and the
thread gets the lock of the slot. -/
def exampleEvents : List (Event ℕ) :=
  .call 0 (.issuedBy 1 0) :: List.replicate 68 (.run 0 true 0) ++
    .call 1 (.issuedBy 2 0) :: List.replicate 34 (.run 1 true 0) ++
      .call 2 (.flush .any) :: List.replicate 2 (.run 2 true 0)

/-- Did a thread read the subject of an empty slot? -/
def Pc.readsNull {Cert : Type} : Pc Cert → Bool
  | .stuck .nullDereference => true
  | _ => false

theorem not_along_after :
    ¬ LTS.Along (step exampleOps) (After exampleOps) create (exampleEvents ++ [.run 1 true 0]) := by
  intro h
  have hafter := h exampleEvents (.run 1 true 0) [] rfl
  have hnull : (((exampleEvents.foldl (step exampleOps) create).step exampleOps
      (.run 1 true 0)).pc 1).readsNull = true := by
    decide +kernel
  cases hpc : ((exampleEvents.foldl (step exampleOps) create).step exampleOps (.run 1 true 0)).pc 1
  case stuck error => exact hafter.defined 1 error hpc
  all_goals
    rw [hpc] at hnull
    cases hnull

end CertCache

end StrongSwan
