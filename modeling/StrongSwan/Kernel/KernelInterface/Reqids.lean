import StrongSwan.Kernel.KernelInterface

/-!
# Reqids identify policies

* `ReqidCall`, `reqidSystem`: the calls made to a new kernel interface.
* `allocated`, `released`: how often a reference was taken and given back.
* `allocReqid_cases`, `releaseReqid_cases`: what a call does.
* `Registered`: the entries of the two tables and the calls so far; `registered_run`.
* **`reqids_unique`**: every reqid is for one policy, and counts its references.
-/

namespace StrongSwan

/-! ## Calls -/

/-- A call, and the reqid the caller has when `alloc_reqid` returns. -/
inductive ReqidCall
  | alloc (args : AllocReqid) (reqid : U32)
  | release (ref : ReqidRef)
  deriving DecidableEq

/-- A kernel interface and the calls made to it. -/
def reqidSystem (key : Chunk) : LTS.System KernelInterface ReqidCall where
  init this := this = kernelInterfaceCreate key
  step this call this' := match call with
    | .alloc args reqid => this.allocReqid args = (.success, reqid, this')
    | .release ref => (this.releaseReqid ref).2 = this'

namespace ReqidCall

/-- The reference a call takes. -/
def taken : ReqidCall → Option ReqidRef
  | alloc args reqid => some ⟨reqid, args.markIn, args.markOut⟩
  | release _ => none

/-- The reference a call gives back. -/
def given : ReqidCall → Option ReqidRef
  | alloc _ _ => none
  | release ref => some ref

end ReqidCall

/-- How many references were taken. -/
def allocations (calls : List ReqidCall) : ℕ := calls.countP (·.taken.isSome)

/-- How often a reference was taken. -/
def allocated (calls : List ReqidCall) (ref : ReqidRef) : ℕ := calls.countP (·.taken = some ref)

/-- How often a reference was given back. -/
def released (calls : List ReqidCall) (ref : ReqidRef) : ℕ := calls.countP (·.given = some ref)

/-- Every release matches an earlier allocation. -/
def Matched (calls : List ReqidCall) : Prop :=
  ∀ before ref after, calls = before ++ .release ref :: after →
    released before ref < allocated before ref

theorem matched_snoc {calls : List ReqidCall} {call : ReqidCall} : Matched (calls ++ [call]) ↔
    Matched calls ∧ ∀ ref, call = .release ref → released calls ref < allocated calls ref := by
  constructor
  · intro h
    refine ⟨fun before ref after heq => h before ref (after ++ [call]) (by rw [heq]; simp), ?_⟩
    rintro ref rfl
    exact h calls ref [] rfl
  · rintro ⟨h, hlast⟩ before ref after heq
    obtain rfl | ⟨after, last, rfl⟩ := List.eq_nil_or_concat after
    · obtain ⟨rfl, hcall⟩ := List.append_inj' heq rfl
      exact hlast ref (List.cons.inj hcall).1
    · rw [List.concat_eq_append, ← List.cons_append, ← List.append_assoc] at heq
      exact h before ref after (List.append_inj' heq rfl).1

theorem allocated_le (calls : List ReqidCall) (ref : ReqidRef) :
    allocated calls ref ≤ allocations calls :=
  List.countP_mono_left fun call _ h => by simp_all

section Counts

variable (calls : List ReqidCall) (args : AllocReqid) (reqid : U32) (ref : ReqidRef)

theorem allocations_alloc : allocations (calls ++ [.alloc args reqid]) = allocations calls + 1 := by
  simp [allocations, ReqidCall.taken]

theorem allocations_release : allocations (calls ++ [.release ref]) = allocations calls := by
  simp [allocations, ReqidCall.taken]

theorem allocated_alloc : allocated (calls ++ [.alloc args reqid]) ref =
    allocated calls ref + if ⟨reqid, args.markIn, args.markOut⟩ = ref then 1 else 0 := by
  simp [allocated, ReqidCall.taken, List.countP_singleton]

theorem released_alloc : released (calls ++ [.alloc args reqid]) ref = released calls ref := by
  simp [released, ReqidCall.given]

theorem allocated_release (ref' : ReqidRef) :
    allocated (calls ++ [.release ref']) ref = allocated calls ref := by
  simp [allocated, ReqidCall.taken]

theorem released_release (ref' : ReqidRef) : released (calls ++ [.release ref']) ref =
    released calls ref + if ref' = ref then 1 else 0 := by
  simp [released, ReqidCall.given, List.countP_singleton]

end Counts

/-! ## The invariant -/

namespace KernelInterface

/-- The entries in the table by reqid. -/
def live (this : KernelInterface) : Multiset ReqidEntry := this.reqids.entries.map Pair.value

/-- The entries in the table by traffic selectors. -/
def liveByTs (this : KernelInterface) : Multiset ReqidEntry :=
  this.reqidsByTs.entries.map Pair.value

/-- From `this` to `this'` one reference was taken: to an entry of both, or to a new one. -/
def Took (entry : ReqidEntry) (this this' : KernelInterface) : Prop :=
  (entry ∈ this.live ∧ this'.live = this.live ∧
      this'.refs entry.address = this.refs entry.address + 1 ∨
    entry ∉ this.live ∧ this'.live = entry ::ₘ this.live ∧ this'.refs entry.address = 1) ∧
  ∀ other ∈ this.live, other ≠ entry → this'.refs other.address = this.refs other.address

variable {this : KernelInterface} {calls : List ReqidCall} {live : Multiset ReqidEntry}

/-- The two tables have the entries of `live`. -/
structure Tabled (this : KernelInterface) (live : Multiset ReqidEntry) : Prop where
  reqids : this.reqids.Index live
  reqidsByTs : this.reqidsByTs.Index live
  equals : this.reqids.equals = equalsReqid
  equalsByTs : this.reqidsByTs.equals = equalsReqidByTs

/-- The entries of both tables after the calls so far: they lie at different addresses and have
different reqids the counter has passed. -/
structure Registered (calls : List ReqidCall) (this : KernelInterface)
    (live : Multiset ReqidEntry) : Prop extends Tabled this live where
  copied : ∀ entry ∈ live, entry.Copied
  address_lt : ∀ entry ∈ live, entry.address < this.next
  address_inj : ∀ entry ∈ live, ∀ entry' ∈ live, entry.address = entry'.address → entry = entry'
  reqid_pos : ∀ entry ∈ live, 0 < entry.reqid.toNat
  reqid_le : ∀ entry ∈ live, entry.reqid.toNat ≤ this.counter.toNat
  reqid_inj : ∀ entry ∈ live, ∀ entry' ∈ live, entry.reqid = entry'.reqid → entry = entry'
  counter_le : this.counter.toNat ≤ allocations calls
  refs : ∀ entry ∈ live,
    (this.refs entry.address).toNat + released calls entry.ref = allocated calls entry.ref
  refs_pos : ∀ entry ∈ live, 0 < (this.refs entry.address).toNat
  balanced : ∀ ref, (∀ entry ∈ live, entry.ref ≠ ref) → allocated calls ref = released calls ref

theorem registered_create (key : Chunk) : Registered [] (kernelInterfaceCreate key) 0 where
  reqids := Hashtable.index_create (consistent_reqid key) 8
  reqidsByTs := Hashtable.index_create (consistent_reqidByTs key) 8
  equals := rfl
  equalsByTs := rfl
  copied := by simp
  address_lt := by simp
  address_inj := by simp
  reqid_pos := by simp
  reqid_le := by simp
  reqid_inj := by simp
  counter_le := Nat.zero_le _
  refs := by simp
  refs_pos := by simp
  balanced := fun _ _ => rfl

theorem Tabled.getReqid (h : Tabled this live) {tmpl entry : ReqidEntry} :
    this.reqids.get tmpl = some entry ↔ entry ∈ live ∧ tmpl.ref = entry.ref := by
  rw [h.reqids.get_eq_some_iff, h.equals, equalsReqid_iff]

variable {entry : ReqidEntry}

theorem Registered.getByTs (h : Registered calls this live) {args : AllocReqid}
    (address : ℕ) :
    this.reqidsByTs.get (template address args) = some entry ↔
      entry ∈ live ∧ entry.policy = args.policy := by
  rw [h.reqidsByTs.get_eq_some_iff, h.equalsByTs]
  refine and_congr_right fun hentry => ?_
  rw [equalsReqidByTs_copied (copied_template address args) (h.copied entry hentry),
    policy_template, eq_comm]

/-! ## Taking a reference -/

/-- The entry is new, for the policy of the arguments. -/
structure New (this : KernelInterface) (args : AllocReqid) (entry : ReqidEntry) : Prop where
  address : entry.address = this.next
  reqid : entry.reqid = this.counter + 1
  ref : entry.ref = ⟨entry.reqid, args.markIn, args.markOut⟩
  policy : entry.policy = args.policy
  copied : entry.Copied

theorem new_template (this : KernelInterface) (args : AllocReqid) :
    this.New args { template this.next args with reqid := this.counter + 1 } where
  address := rfl
  reqid := rfl
  ref := rfl
  policy := policy_template this.next args
  copied := ⟨(copied_template this.next args).local_, (copied_template this.next args).remote⟩

theorem Registered.allocReqid_cases (h : Registered calls this live) (args : AllocReqid) :
    (∃ entry ∈ live, this.allocReqid args =
        (.success, entry.reqid, this.allocate.addRef entry) ∧
      entry.markIn = args.markIn ∧ entry.markOut = args.markOut ∧
      (args.reqid = 0 → entry.policy = args.policy)) ∨
    ((∀ entry ∈ live, entry.policy ≠ args.policy) ∧
      ∃ entry, this.New args entry ∧ this.allocReqid args = (.success, entry.reqid,
        ({ this.allocate with counter := this.counter + 1 }.putEntry entry).addRef entry)) := by
  unfold allocReqid
  dsimp only
  cases hexplicit : if (template this.next args).reqid ≠ 0 then
      this.allocate.reqids.get (template this.next args) else none with
  | some entry =>
    left
    split_ifs at hexplicit with hreqid
    obtain ⟨hentry, href⟩ := h.getReqid.mp hexplicit
    obtain ⟨hsame, hin, hout⟩ := ReqidRef.mk.inj href
    refine ⟨entry, hentry, ?_, hin.symm, hout.symm, fun hzero => absurd hzero hreqid⟩
    rw [← hsame]
    rfl
  | none =>
    cases hts : this.allocate.reqidsByTs.get (template this.next args) with
    | some entry =>
      obtain ⟨hentry, hpolicy⟩ := (h.getByTs _).mp hts
      obtain ⟨-, -, hin, hout⟩ := ReqidPolicy.mk.inj hpolicy
      exact .inl ⟨entry, hentry, rfl, hin, hout, fun _ => hpolicy⟩
    | none =>
      refine .inr ⟨fun entry hentry hpolicy => ?_, _, this.new_template args, rfl⟩
      have hsome := (h.getByTs this.next).mpr ⟨hentry, hpolicy⟩
      change this.reqidsByTs.get _ = none at hts
      rw [hts] at hsome
      cases hsome

theorem Registered.refs_allocate (h : Registered calls this live)
    (hentry : entry ∈ live) : this.allocate.refs entry.address = this.refs entry.address :=
  Function.update_of_ne (h.address_lt entry hentry).ne _ _

theorem refs_addRef_of_ne {entry entry' : ReqidEntry} (hne : entry'.address ≠ entry.address) :
    (this.addRef entry).refs entry'.address = this.refs entry'.address :=
  Function.update_of_ne hne _ _

@[simp] theorem refs_addRef (this : KernelInterface) (entry : ReqidEntry) :
    (this.addRef entry).refs entry.address = this.refs entry.address + 1 :=
  Function.update_self _ _ _

theorem Registered.addRef (h : Registered calls this live)
    (hentry : entry ∈ live) {args : AllocReqid} (hin : entry.markIn = args.markIn)
    (hout : entry.markOut = args.markOut) (hfew : allocations calls + 1 < 2 ^ 32) :
    Registered (calls ++ [.alloc args entry.reqid]) (this.allocate.addRef entry) live := by
  have href : (⟨entry.reqid, args.markIn, args.markOut⟩ : ReqidRef) = entry.ref := by
    rw [← hin, ← hout]
    rfl
  have hrefs := h.refs entry hentry
  have hle := allocated_le calls entry.ref
  have hadded : (this.refs entry.address + 1).toNat = (this.refs entry.address).toNat + 1 := by
    rw [BitVec.toNat_add_of_lt (by simp; omega)]
    rfl
  refine
    { reqids := h.reqids
      reqidsByTs := h.reqidsByTs
      equals := h.equals
      equalsByTs := h.equalsByTs
      copied := h.copied
      address_lt := fun e he => (h.address_lt e he).trans (Nat.lt_succ_self _)
      address_inj := h.address_inj
      reqid_pos := h.reqid_pos
      reqid_le := h.reqid_le
      reqid_inj := h.reqid_inj
      counter_le := ?_
      refs := fun e he => ?_
      refs_pos := fun e he => ?_
      balanced := fun ref hnone => ?_ }
  · rw [allocations_alloc]
    exact h.counter_le.trans (Nat.le_succ _)
  · rw [released_alloc, allocated_alloc, href]
    by_cases hsame : e = entry
    · subst hsame
      rw [refs_addRef, h.refs_allocate he, hadded, if_pos rfl]
      omega
    · have hne : entry.ref ≠ e.ref := fun heq =>
        hsame (h.reqid_inj e he entry hentry (ReqidRef.mk.inj heq).1.symm)
      rw [refs_addRef_of_ne fun heq => hsame (h.address_inj e he entry hentry heq),
        h.refs_allocate he, if_neg hne]
      exact h.refs e he
  · by_cases hsame : e = entry
    · subst hsame
      rw [refs_addRef, h.refs_allocate he, hadded]
      omega
    · rw [refs_addRef_of_ne fun heq => hsame (h.address_inj e he entry hentry heq),
        h.refs_allocate he]
      exact h.refs_pos e he
  · rw [allocated_alloc, released_alloc, href, if_neg (hnone entry hentry)]
    exact h.balanced ref hnone

theorem Registered.tabled_put (h : Registered calls this live)
    (hcopied : entry.Copied) (hpolicy : ∀ entry' ∈ live, entry'.policy ≠ entry.policy)
    (href : ∀ entry' ∈ live, entry'.ref ≠ entry.ref) :
    (this.reqids.put entry entry).2.Index (entry ::ₘ live) ∧
      (this.reqids.put entry entry).2.equals = equalsReqid ∧
      (this.reqidsByTs.put entry entry).2.Index (entry ::ₘ live) ∧
      (this.reqidsByTs.put entry entry).2.equals = equalsReqidByTs := by
  have hget : this.reqids.get entry = none := by
    refine h.reqids.get_eq_none_iff.mpr fun entry' hentry' => ?_
    rw [← Bool.not_eq_true, h.equals, equalsReqid_iff]
    exact (href entry' hentry').symm
  have hgetByTs : this.reqidsByTs.get entry = none := by
    refine h.reqidsByTs.get_eq_none_iff.mpr fun entry' hentry' => ?_
    rw [← Bool.not_eq_true, h.equalsByTs, equalsReqidByTs_copied hcopied (h.copied entry' hentry')]
    exact (hpolicy entry' hentry').symm
  obtain ⟨hindex, hequals⟩ := h.reqids.put hget
  obtain ⟨hindexByTs, hequalsByTs⟩ := h.reqidsByTs.put hgetByTs
  exact ⟨hindex, hequals.trans h.equals, hindexByTs, hequalsByTs.trans h.equalsByTs⟩

theorem Registered.putEntry (h : Registered calls this live) {args : AllocReqid}
    (hpolicy : ∀ entry ∈ live, entry.policy ≠ args.policy)
    (hnew : this.New args entry) (hfew : allocations calls + 1 < 2 ^ 32) :
    Registered (calls ++ [.alloc args entry.reqid])
      (({ this.allocate with counter := this.counter + 1 }.putEntry entry).addRef entry)
      (entry ::ₘ live) := by
  set this' := ({ this.allocate with counter := this.counter + 1 }.putEntry entry).addRef entry
  have hcounter := h.counter_le
  have hnext : (this.counter + 1).toNat = this.counter.toNat + 1 := by
    rw [BitVec.toNat_add_of_lt (by simp; omega)]
    rfl
  have hreqid : entry.reqid.toNat = this.counter.toNat + 1 := by rw [hnew.reqid, hnext]
  have hunused : ∀ e ∈ live, e.reqid ≠ entry.reqid := fun e he heq => by
    have hle := h.reqid_le e he
    rw [heq] at hle
    omega
  have hothers : ∀ e ∈ live, e.ref ≠ entry.ref := fun e he heq =>
    hunused e he (ReqidRef.mk.inj heq).1
  have hfar : ∀ e ∈ live, e.address ≠ entry.address := fun e he => by
    rw [hnew.address]
    exact (h.address_lt e he).ne
  have hfirst : this'.refs entry.address = 1 := by
    rw [refs_addRef, hnew.address]
    change Function.update this.refs this.next 0 this.next + 1 = 1
    rw [Function.update_self]
    rfl
  have hkept : ∀ e ∈ live, this'.refs e.address = this.refs e.address := fun e he => by
    rw [refs_addRef_of_ne (hfar e he)]
    exact h.refs_allocate he
  have hbalanced := h.balanced entry.ref hothers
  obtain ⟨hindex, hequals, hindexByTs, hequalsByTs⟩ :=
    h.tabled_put hnew.copied (hnew.policy ▸ hpolicy) hothers
  refine
    { reqids := hindex
      reqidsByTs := hindexByTs
      equals := hequals
      equalsByTs := hequalsByTs
      copied := Multiset.forall_mem_cons.mpr ⟨hnew.copied, h.copied⟩
      address_lt := Multiset.forall_mem_cons.mpr
        ⟨hnew.address ▸ Nat.lt_succ_self _, fun e he => (h.address_lt e he).trans (Nat.lt_succ_self _)⟩
      address_inj := Multiset.forall_mem_cons.mpr
        ⟨Multiset.forall_mem_cons.mpr ⟨fun _ => rfl, fun e he heq => absurd heq.symm (hfar e he)⟩,
          fun e he => Multiset.forall_mem_cons.mpr
            ⟨fun heq => absurd heq (hfar e he), h.address_inj e he⟩⟩
      reqid_pos := Multiset.forall_mem_cons.mpr ⟨by omega, h.reqid_pos⟩
      reqid_le := Multiset.forall_mem_cons.mpr ⟨?_, fun e he => ?_⟩
      reqid_inj := Multiset.forall_mem_cons.mpr
        ⟨Multiset.forall_mem_cons.mpr ⟨fun _ => rfl, fun e he heq => absurd heq.symm (hunused e he)⟩,
          fun e he => Multiset.forall_mem_cons.mpr
            ⟨fun heq => absurd heq (hunused e he), h.reqid_inj e he⟩⟩
      counter_le := ?_
      refs := Multiset.forall_mem_cons.mpr ⟨?_, fun e he => ?_⟩
      refs_pos := Multiset.forall_mem_cons.mpr ⟨?_, fun e he => ?_⟩
      balanced := fun ref hnone => ?_ }
  · exact (congrArg BitVec.toNat hnew.reqid).le
  · have hle := h.reqid_le e he
    change e.reqid.toNat ≤ (this.counter + 1).toNat
    omega
  · rw [allocations_alloc]
    change (this.counter + 1).toNat ≤ _
    omega
  · rw [hfirst, released_alloc, allocated_alloc, ← hnew.ref, if_pos rfl, hbalanced, add_comm]
    rfl
  · rw [hkept e he, released_alloc, allocated_alloc, ← hnew.ref, if_neg (hothers e he).symm]
    exact h.refs e he
  · rw [hfirst]
    decide
  · rw [hkept e he]
    exact h.refs_pos e he
  · obtain ⟨hne, hnone⟩ := Multiset.forall_mem_cons.mp hnone
    rw [allocated_alloc, released_alloc, ← hnew.ref, if_neg hne]
    exact h.balanced ref hnone

/-! ## Giving a reference back -/

theorem Registered.releaseReqid_cases (h : Registered calls this live) {ref : ReqidRef}
    (hentry : entry ∈ live) (href : entry.ref = ref) :
    ∃ live', live = entry ::ₘ live' ∧
      (this.releaseReqid ref).2.refs =
        Function.update this.refs entry.address (this.refs entry.address - 1) ∧
      (this.releaseReqid ref).2.counter = this.counter ∧
      (this.releaseReqid ref).2.next = this.next ∧
      (this.releaseReqid ref).2.Tabled
        (if this.refs entry.address - 1 = 0 then live' else live) := by
  set tmpl : ReqidEntry := ⟨this.next, ref.reqid, ref.markIn, ref.markOut, [], []⟩ with htmpl
  have hget : this.reqids.get tmpl = some entry := h.getReqid.mpr ⟨hentry, href.symm⟩
  obtain ⟨hfst, hequals, live', rfl, hindex⟩ := h.reqids.remove hget
  have hremoved : this.reqids.remove tmpl = (some entry, (this.reqids.remove tmpl).2) :=
    Prod.ext hfst rfl
  unfold releaseReqid
  dsimp only
  rw [← htmpl, hremoved]
  dsimp only
  by_cases hlast : this.refs entry.address - 1 = 0
  · -- the last reference: the entry leaves the other table as well
    have hgetByTs : this.reqidsByTs.get entry = some entry := by
      rw [h.reqidsByTs.get_eq_some_iff]
      exact ⟨hentry, h.reqidsByTs.wf.consistent.refl entry⟩
    obtain ⟨hfst', hequals', rest, hcons, hindex'⟩ := h.reqidsByTs.remove hgetByTs
    have hremoved' : this.reqidsByTs.remove entry =
        (some entry, (this.reqidsByTs.remove entry).2) := Prod.ext hfst' rfl
    obtain rfl : live' = rest := Multiset.cons_inj_right entry |>.mp hcons
    rw [if_pos hlast, hremoved']
    refine ⟨live', rfl, rfl, rfl, rfl, ?_⟩
    rw [if_pos hlast]
    exact ⟨hindex, hindex', hequals.trans h.equals, hequals'.trans h.equalsByTs⟩
  · have hgone := h.reqids.get_removed hindex hequals
    obtain ⟨hindex', hequals'⟩ := hindex.put hgone
    rw [if_neg hlast]
    refine ⟨live', rfl, rfl, rfl, rfl, ?_⟩
    rw [if_neg hlast]
    exact ⟨hindex', h.reqidsByTs, hequals'.trans (hequals.trans h.equals), h.equalsByTs⟩

theorem Registered.releaseReqid (h : Registered calls this live) {ref : ReqidRef}
    (hmatched : released calls ref < allocated calls ref) :
    ∃ live', Registered (calls ++ [.release ref]) (this.releaseReqid ref).2 live' := by
  obtain ⟨entry, hentry, rfl⟩ : ∃ entry ∈ live, entry.ref = ref := by
    by_contra hnone
    push Not at hnone
    exact hmatched.ne' (h.balanced ref hnone)
  obtain ⟨rest, hlive, hrefs, hcounter, hnext, htabled⟩ := h.releaseReqid_cases hentry rfl
  have hpos := h.refs_pos entry hentry
  have hsum := h.refs entry hentry
  have hdropped : (this.refs entry.address - 1).toNat = (this.refs entry.address).toNat - 1 := by
    bv_omega
  have hnodup : entry ∉ rest := by
    have hnodup := h.reqids.nodup
    rw [hlive] at hnodup
    exact (Multiset.nodup_cons.mp hnodup).1
  set live' := if this.refs entry.address - 1 = 0 then rest else live with hlive'
  have hsub : ∀ e ∈ live', e ∈ live := by
    rw [hlive']
    split_ifs
    · exact fun e he => hlive ▸ Multiset.mem_cons_of_mem he
    · exact fun e he => he
  have hfar : ∀ e ∈ live, e ≠ entry → (this.releaseReqid entry.ref).2.refs e.address =
      this.refs e.address := fun e he hne => by
    rw [hrefs, Function.update_of_ne fun heq => hne (h.address_inj e he entry hentry heq)]
  have hself : (this.releaseReqid entry.ref).2.refs entry.address = this.refs entry.address - 1 := by
    rw [hrefs, Function.update_self]
  -- an entry that stays has references left
  have hleft : entry ∈ live' → 0 < (this.refs entry.address - 1).toNat := by
    rw [hlive']
    split_ifs with hlast
    · exact fun he => absurd he hnodup
    · exact fun _ => by bv_omega
  refine ⟨live',
    { toTabled := htabled
      copied := fun e he => h.copied e (hsub e he)
      address_lt := fun e he => hnext ▸ h.address_lt e (hsub e he)
      address_inj := fun e he e' he' => h.address_inj e (hsub e he) e' (hsub e' he')
      reqid_pos := fun e he => h.reqid_pos e (hsub e he)
      reqid_le := fun e he => hcounter ▸ h.reqid_le e (hsub e he)
      reqid_inj := fun e he e' he' => h.reqid_inj e (hsub e he) e' (hsub e' he')
      counter_le := ?_
      refs := fun e he => ?_
      refs_pos := fun e he => ?_
      balanced := fun ref' hnone => ?_ }⟩
  · rw [hcounter, allocations_release]
    exact h.counter_le
  · rw [released_release, allocated_release]
    by_cases hsame : e = entry
    · subst hsame
      rw [hself, hdropped, if_pos rfl]
      omega
    · have hne : entry.ref ≠ e.ref := fun heq =>
        hsame (h.reqid_inj e (hsub e he) entry hentry (ReqidRef.mk.inj heq).1.symm)
      rw [hfar e (hsub e he) hsame, if_neg hne]
      exact h.refs e (hsub e he)
  · by_cases hsame : e = entry
    · subst hsame
      rw [hself]
      exact hleft he
    · rw [hfar e (hsub e he) hsame]
      exact h.refs_pos e (hsub e he)
  · rw [allocated_release, released_release]
    by_cases hsame : entry.ref = ref'
    · -- no entry has the reference any more: it was the last one
      subst hsame
      have hlast : this.refs entry.address - 1 = 0 := by
        by_contra hmore
        rw [hlive', if_neg hmore] at hnone
        exact hnone entry hentry rfl
      have hzero : (this.refs entry.address).toNat - 1 = 0 := by
        rw [← hdropped, hlast]
        rfl
      rw [if_pos rfl]
      omega
    · rw [if_neg hsame]
      refine h.balanced ref' fun e he heq => ?_
      have hne : e ≠ entry := fun hee => hsame (by rw [← hee, heq])
      refine hnone e ?_ heq
      rw [hlive']
      split_ifs
      · rw [hlive] at he
        exact (Multiset.mem_cons.mp he).resolve_left hne
      · exact he

/-! ## Runs -/

theorem registered_run {key : Chunk} {calls : List ReqidCall} {this : KernelInterface}
    (h : LTS.Run (reqidSystem key) calls this) (hmatched : Matched calls)
    (hfew : allocations calls < 2 ^ 32) : ∃ live, Registered calls this live := by
  revert hmatched hfew
  refine h.history (I := fun calls this => Matched calls → allocations calls < 2 ^ 32 →
    ∃ live, Registered calls this live) ?_ ?_
  · rintro _ rfl - -
    exact ⟨0, registered_create key⟩
  · rintro calls this call this' ih hstep hmatched hfew
    cases call with
    | alloc args reqid =>
      rw [allocations_alloc] at hfew
      obtain ⟨live, h⟩ := ih (matched_snoc.mp hmatched).1 (by omega)
      change this.allocReqid args = _ at hstep
      obtain ⟨entry, hentry, hresult, hin, hout, -⟩ | ⟨hpolicy, entry, hnew, hresult⟩ :=
        h.allocReqid_cases args
      · rw [hresult] at hstep
        cases hstep
        exact ⟨live, h.addRef hentry hin hout hfew⟩
      · rw [hresult] at hstep
        cases hstep
        exact ⟨_, h.putEntry hpolicy hnew hfew⟩
    | release ref =>
      rw [allocations_release] at hfew
      obtain ⟨hmatched, hlast⟩ := matched_snoc.mp hmatched
      obtain ⟨live, h⟩ := ih hmatched hfew
      change (this.releaseReqid ref).2 = _ at hstep
      rw [← hstep]
      exact h.releaseReqid (hlast ref rfl)

theorem Registered.live_eq (h : Registered calls this live) : this.live = live := h.reqids.values

theorem Registered.took (h : Registered calls this live) (args : AllocReqid) :
    ∃ entry, entry.ref = ⟨(this.allocReqid args).2.1, args.markIn, args.markOut⟩ ∧
      Took entry this (this.allocReqid args).2.2 := by
  have hlive := h.live_eq
  obtain ⟨entry, hentry, hresult, hin, hout, -⟩ | ⟨hpolicy, entry, hnew, hresult⟩ :=
    h.allocReqid_cases args
  · refine ⟨entry, ?_, .inl ⟨hlive.symm ▸ hentry, ?_, ?_⟩, fun other hother hne => ?_⟩
    · rw [hresult, ← hin, ← hout]
      rfl
    · rw [hresult]
      rfl
    · rw [hresult, refs_addRef, h.refs_allocate hentry]
    · rw [hlive] at hother
      rw [hresult, refs_addRef_of_ne fun heq => hne (h.address_inj other hother entry hentry heq),
        h.refs_allocate hother]
  · have hfar : ∀ other ∈ live, other.address ≠ entry.address := fun other hother => by
      rw [hnew.address]
      exact (h.address_lt other hother).ne
    have habsent : entry ∉ live := fun hentry => hfar entry hentry rfl
    have hothers : ∀ other ∈ live, other.ref ≠ entry.ref := fun other hother heq => by
      have hpos := h.reqid_pos other hother
      have hle := h.reqid_le other hother
      rw [(ReqidRef.mk.inj heq).1, hnew.reqid] at hpos hle
      bv_omega
    obtain ⟨hindex, -⟩ := h.tabled_put hnew.copied (hnew.policy ▸ hpolicy) hothers
    refine ⟨entry, ?_, .inr ⟨hlive.symm ▸ habsent, ?_, ?_⟩, fun other hother hne => ?_⟩
    · rw [hresult]
      exact hnew.ref
    · rw [hresult, hlive]
      exact hindex.values
    · rw [hresult, refs_addRef, hnew.address]
      change Function.update this.refs this.next 0 this.next + 1 = 1
      rw [Function.update_self]
      rfl
    · rw [hlive] at hother
      rw [hresult, refs_addRef_of_ne (hfar other hother)]
      exact h.refs_allocate hother

/-- **Reqids identify policies.** In every state with fewer than `2 ^ 32` allocations the tables have
the same entries, an entry counts the references that were taken and not given back, no two entries
have one reqid, and `alloc_reqid` returns the reqid of the entry it takes a reference to: without a
given reqid that of the entry for the policy, or an unused one. -/
theorem reqids_unique {key : Chunk} {calls : List ReqidCall} {this : KernelInterface}
    (h : LTS.Run (reqidSystem key) calls this) (hmatched : Matched calls)
    (hfew : allocations calls < 2 ^ 32) :
    this.liveByTs = this.live ∧
    (∀ entry ∈ this.live,
      (this.refs entry.address).toNat = allocated calls entry.ref - released calls entry.ref ∧
        1 ≤ (this.refs entry.address).toNat) ∧
    (∀ entry ∈ this.live, ∀ entry' ∈ this.live, entry.reqid = entry'.reqid →
      entry.policy = entry'.policy ∧ entry = entry') ∧
    (∀ args : AllocReqid, args.reqid = 0 →
      (∀ entry ∈ this.live, entry.policy = args.policy →
        (this.allocReqid args).2.1 = entry.reqid) ∧
      ((∀ entry ∈ this.live, entry.policy ≠ args.policy) →
        ∀ entry ∈ this.live, (this.allocReqid args).2.1 ≠ entry.reqid)) ∧
    ∀ args : AllocReqid, ∃ entry,
      entry.ref = ⟨(this.allocReqid args).2.1, args.markIn, args.markOut⟩ ∧
        Took entry this (this.allocReqid args).2.2 := by
  obtain ⟨live, h⟩ := registered_run h hmatched hfew
  rw [h.live_eq]
  refine ⟨h.reqidsByTs.values, fun entry hentry => ⟨?_, h.refs_pos entry hentry⟩,
    fun entry hentry entry' hentry' heq => ?_, fun args hzero => ⟨fun entry hentry hsame => ?_,
    fun hnone entry hentry heq => ?_⟩, h.took⟩
  · have hrefs := h.refs entry hentry
    omega
  · have hsame := h.reqid_inj entry hentry entry' hentry' heq
    exact ⟨congrArg ReqidEntry.policy hsame, hsame⟩
  · obtain ⟨found, hfound, hresult, -, -, hpolicy⟩ | ⟨hpolicy, -⟩ := h.allocReqid_cases args
    · have hequal : this.reqidsByTs.equals found entry = true := by
        rw [h.equalsByTs, equalsReqidByTs_copied (h.copied found hfound) (h.copied entry hentry),
          hpolicy hzero, hsame]
      rw [hresult, h.reqidsByTs.eq_of_equals hfound hentry hequal]
    · exact absurd hsame (hpolicy entry hentry)
  · obtain ⟨found, hfound, -, -, -, hpolicy⟩ | ⟨-, new, hnew, hresult⟩ := h.allocReqid_cases args
    · exact hnone found hfound (hpolicy hzero)
    · have hpos := h.reqid_pos entry hentry
      have hle := h.reqid_le entry hentry
      rw [← heq, hresult] at hpos hle
      dsimp only at hpos hle
      rw [hnew.reqid] at hpos hle
      bv_omega

/-- A reference is taken, for a policy without selectors, and given back. -/
theorem reqids_unique_two :
    let args : AllocReqid := ⟨[], [], ⟨0, 0⟩, ⟨0, 0⟩, 0⟩
    let calls : List ReqidCall := [.alloc args 1, .release ⟨1, ⟨0, 0⟩, ⟨0, 0⟩⟩]
    ∃ this, LTS.Run (reqidSystem []) calls this ∧ Matched calls ∧ allocations calls < 2 ^ 32 ∧
      this.liveByTs = this.live := by
  intro args calls
  let this : KernelInterface := ((kernelInterfaceCreate []).allocReqid args).2.2
  have hrun : LTS.Run (reqidSystem []) calls (this.releaseReqid ⟨1, ⟨0, 0⟩, ⟨0, 0⟩⟩).2 := by
    refine ⟨kernelInterfaceCreate [], rfl, ?_⟩
    have halloc : LTS.Steps (reqidSystem []) (kernelInterfaceCreate []) [ReqidCall.alloc args 1] this :=
      LTS.Steps.snoc .refl rfl
    exact halloc.snoc rfl
  have hmatched : Matched calls := by
    have hnil : Matched [] := fun before ref after heq => by simp at heq
    have halloc : Matched [ReqidCall.alloc args 1] := matched_snoc.mpr ⟨hnil, fun ref heq => by cases heq⟩
    refine matched_snoc.mpr ⟨halloc, fun ref heq => ?_⟩
    cases heq
    decide
  exact ⟨_, hrun, hmatched, by decide, (reqids_unique hrun hmatched (by decide)).1⟩

end KernelInterface

end StrongSwan
