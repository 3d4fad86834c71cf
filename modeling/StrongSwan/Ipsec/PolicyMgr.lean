import StrongSwan.Collections.LinkedList
import StrongSwan.Ipsec.Policy
import StrongSwan.Lib.RankedList
import StrongSwan.Lib.System

/-!
# The policy table

`PolicyMgr` keeps the installed policies in the order of their priority values, and answers with the
first one that matches.

* `toNat_calculatePriority`: the priority value as a number, without underflow.
* `Rank`, **`calculatePriority_lt_iff`**: the values encode a lexicographic order.
* `Inv`: what holds of the table after every call, `inv_step` and `inv_run`.
* **`policyTable_best`**: the table is sorted, and `findByPacket` returns the best policy.
-/

namespace StrongSwan

def PRIO_BASE : U32 := 384

/-- The pseudo-priority to sort policies (high priority -> low value). -/
def calculatePriority (policyPriority : PolicyPriority) (src dst : TrafficSelector) : U32 :=
  let priority := match policyPriority with
    | .fallback => PRIO_BASE <<< 1 <<< 1 <<< 1
    | .routed => PRIO_BASE <<< 1 <<< 1
    | .default => PRIO_BASE <<< 1
    | .pass => PRIO_BASE
  -- calculate priority based on selector size, small size = high prio
  let (_, net, mask) := src.toSubnet
  let priority := priority - mask.setWidth 32
  let proto := src.protocol
  let port := net.port
  let (_, net, mask) := dst.toSubnet
  let priority := priority - mask.setWidth 32
  let proto := umax proto dst.protocol
  let port := umax port net.port
  -- make some room for the two flags
  let priority := priority <<< 2
  let priority := priority + if port ≠ 0 then 0 else 2
  priority + if proto ≠ 0 then 0 else 1

structure PolicyEntry where
  /-- priority used to sort policies -/
  priority : U32
  policy : Policy
  deriving DecidableEq

def policyEntryCreate (policy : Policy) : PolicyEntry :=
  ⟨calculatePriority policy.priority policy.srcTs policy.dstTs, policy⟩

structure PolicyMgr where
  policies : List PolicyEntry
  deriving DecidableEq

namespace PolicyMgr

def create : PolicyMgr := ⟨[]⟩

/-- `add_policy`, with the policy allocated as `object`. -/
def addPolicy (this : PolicyMgr) (object : ℕ) (args : PolicyArgs) : Status × PolicyMgr :=
  if args.type ≠ .ipsec ∨ args.direction = .fwd then
    -- we ignore these policies as we currently have no use for them
    (.success, this)
  else
    let entry := policyEntryCreate (Policy.create object args)
    let enumerator := LinkedList.enumerateUntil
      (fun current : PolicyEntry => decide (entry.priority.toNat ≤ current.priority.toNat))
      this.policies
    (.success, { this with policies := LinkedList.insertBefore this.policies enumerator entry })

def delPolicy (this : PolicyMgr) (args : PolicyArgs) : Status × PolicyMgr :=
  if args.type ≠ .ipsec ∨ args.direction = .fwd then (.success, this)
  else
    let priority := calculatePriority args.priority args.srcTs args.dstTs
    let found := fun current : PolicyEntry =>
      current.priority = priority && current.policy.matchArgs args
    if this.policies.any found then (.success, { this with policies := this.policies.eraseP found })
    else (.failed, this)

def flushPolicies (this : PolicyMgr) : Status × PolicyMgr := (.success, { this with policies := [] })

def applies (packet : IpPacket) (inbound : Bool) (reqid : U32) (policy : Policy) : Bool :=
  inbound = decide (policy.direction = .in) && policy.matchPacket packet &&
    (reqid = 0 || reqid = policy.reqid)

def findByPacket (this : PolicyMgr) (packet : IpPacket) (inbound : Bool) (reqid : U32) :
    Option Policy :=
  (this.policies.find? fun current => applies packet inbound reqid current.policy).map
    PolicyEntry.policy

/-! ## The order of policies -/

/-- The prefix lengths of both selectors together. -/
def prefixLen (src dst : TrafficSelector) : ℕ := src.mask.toNat + dst.mask.toNat

/-- One of the selectors is for a single port. -/
def portSpecific (src dst : TrafficSelector) : Bool :=
  (src.fromPort = src.toPort && src.toPort ≠ 0) || (dst.fromPort = dst.toPort && dst.toPort ≠ 0)

def protocolSpecific (src dst : TrafficSelector) : Bool := src.protocol ≠ 0 || dst.protocol ≠ 0

/-- Pass policies come first, then default, routed and fallback ones. -/
def classRank : PolicyPriority → ℕ
  | .pass => 0
  | .default => 1
  | .routed => 2
  | .fallback => 3

/-- The order of policies: by class, then long prefixes before short ones, then specific ports
before others, then specific protocols before any. -/
abbrev Rank : Type := ℕ ×ₗ ℕᵒᵈ ×ₗ Bool ×ₗ Bool

def rank (priority : PolicyPriority) (src dst : TrafficSelector) : Rank :=
  toLex (classRank priority, toLex (OrderDual.toDual (prefixLen src dst),
    toLex (!portSpecific src dst, !protocolSpecific src dst)))

theorem prefixLen_le (src dst : TrafficSelector) : prefixLen src dst ≤ 256 := by
  have hsrc := src.mask_toSubnet_le
  have hdst := dst.mask_toSubnet_le
  change src.mask.toNat ≤ 128 at hsrc
  change dst.mask.toNat ≤ 128 at hdst
  unfold prefixLen
  omega

theorem port_ne_zero_iff (ts : TrafficSelector) :
    ts.port ≠ 0 ↔ ts.fromPort = ts.toPort ∧ ts.toPort ≠ 0 := by
  unfold TrafficSelector.port
  split_ifs with h
  · simp [h]
  · exact ⟨fun h => absurd rfl h, fun h' => absurd h'.1.symm h⟩

theorem umax_ne_zero_iff {w : ℕ} (x y : BitVec w) : umax x y ≠ 0 ↔ x ≠ 0 ∨ y ≠ 0 := by
  rw [ne_eq, ne_eq, ne_eq, ← BitVec.toNat_inj, ← BitVec.toNat_inj, ← BitVec.toNat_inj, toNat_umax]
  simp
  omega

/-- **The priority value as a number**: nothing underflows, and the flags have room of their own. -/
theorem toNat_calculatePriority (priority : PolicyPriority) (src dst : TrafficSelector) :
    (calculatePriority priority src dst).toNat =
      4 * (384 * 2 ^ classRank priority - prefixLen src dst) +
        (if portSpecific src dst then 0 else 2) + if protocolSpecific src dst then 0 else 1 := by
  obtain ⟨base, hbase, hvalue⟩ : ∃ base : U32, base.toNat = 384 * 2 ^ classRank priority ∧
      calculatePriority priority src dst =
        (base - src.mask.setWidth 32 - dst.mask.setWidth 32) <<< 2 +
          (if umax src.port dst.port ≠ 0 then 0 else 2) +
          if umax src.protocol dst.protocol ≠ 0 then 0 else 1 := by
    cases priority <;> exact ⟨_, by decide, rfl⟩
  have hle := prefixLen_le src dst
  have hclass : 384 ≤ base.toNat ∧ base.toNat ≤ 3072 := by
    rw [hbase]
    cases priority <;> decide
  have hport : umax src.port dst.port ≠ 0 ↔ portSpecific src dst = true := by
    rw [umax_ne_zero_iff, port_ne_zero_iff, port_ne_zero_iff]
    simp [portSpecific]
  have hproto : umax src.protocol dst.protocol ≠ 0 ↔ protocolSpecific src dst = true := by
    rw [umax_ne_zero_iff]
    simp [protocolSpecific]
  have hsrc : (src.mask.setWidth 32).toNat = src.mask.toNat :=
    BitVec.toNat_setWidth_of_le (by norm_num)
  have hdst : (dst.mask.setWidth 32).toNat = dst.mask.toNat :=
    BitVec.toNat_setWidth_of_le (by norm_num)
  have hsub : (base - src.mask.setWidth 32 - dst.mask.setWidth 32).toNat =
      base.toNat - prefixLen src dst := by
    unfold prefixLen at hle ⊢
    bv_omega
  have hshift : ((base - src.mask.setWidth 32 - dst.mask.setWidth 32) <<< 2).toNat =
      4 * (base.toNat - prefixLen src dst) := by
    rw [BitVec.toNat_shiftLeft, hsub, Nat.shiftLeft_eq, Nat.mod_eq_of_lt] <;> omega
  have htwo : (if umax src.port dst.port ≠ 0 then (0 : U32) else 2).toNat =
      if portSpecific src dst then 0 else 2 := by
    simp only [hport]
    split_ifs <;> rfl
  have hone : (if umax src.protocol dst.protocol ≠ 0 then (0 : U32) else 1).toNat =
      if protocolSpecific src dst then 0 else 1 := by
    simp only [hproto]
    split_ifs <;> rfl
  rw [hvalue, BitVec.toNat_add, BitVec.toNat_add, hshift, htwo, hone, ← hbase]
  split_ifs <;> omega

theorem class_room (p p' : PolicyPriority) :
    384 ≤ 384 * 2 ^ classRank p ∧ (classRank p < classRank p' →
      2 * (384 * 2 ^ classRank p) ≤ 384 * 2 ^ classRank p') := by
  cases p <;> cases p' <;> decide

/-- **The values encode the order of policies.** -/
theorem calculatePriority_lt_iff (p p' : PolicyPriority) (src dst src' dst' : TrafficSelector) :
    calculatePriority p src dst < calculatePriority p' src' dst' ↔
      rank p src dst < rank p' src' dst' := by
  have hle := prefixLen_le src dst
  have hle' := prefixLen_le src' dst'
  have hroom := class_room p p'
  have hroom' := class_room p' p
  have heq : classRank p = classRank p' → 384 * 2 ^ classRank p = 384 * 2 ^ classRank p' :=
    fun h => by rw [h]
  rw [BitVec.lt_def, toNat_calculatePriority, toNat_calculatePriority]
  rw [rank, rank, Prod.Lex.toLex_lt_toLex, Prod.Lex.toLex_lt_toLex, Prod.Lex.toLex_lt_toLex,
    OrderDual.toDual_lt_toDual, OrderDual.toDual_inj]
  generalize 384 * 2 ^ classRank p = base at *
  generalize 384 * 2 ^ classRank p' = base' at *
  cases portSpecific src dst <;> cases portSpecific src' dst' <;>
    cases protocolSpecific src dst <;> cases protocolSpecific src' dst' <;>
    simp [Bool.lt_iff] <;> omega

/-- The order of policies among themselves. -/
def policyRank (policy : Policy) : Rank := rank policy.priority policy.srcTs policy.dstTs

/-! ## Runs -/

inductive Event
  | add (args : PolicyArgs)
  | del (args : PolicyArgs)
  | flush

/-- The table and the number of calls so far, from which policies are numbered. -/
structure State where
  mgr : PolicyMgr
  calls : ℕ

def step (s : State) (event : Event) : State where
  mgr := match event with
    | .add args => (s.mgr.addPolicy s.calls args).2
    | .del args => (s.mgr.delPolicy args).2
    | .flush => s.mgr.flushPolicies.2
  calls := s.calls + 1

/-- The new table and the calls made to it under its lock. -/
def system : LTS.System State Event := LTS.ofFun (· = ⟨create, 0⟩) step

/-- The policies were created by the calls with their numbers, and lower values come first and, among
equal ones, newer policies. -/
structure Inv (events : List Event) (s : State) : Prop where
  calls : s.calls = events.length
  created : ∀ e ∈ s.mgr.policies, ∃ args, events[e.policy.object]? = some (.add args) ∧
    e = policyEntryCreate (Policy.create e.policy.object args)
  ordered : s.mgr.policies.Pairwise
    (RankedList.Before (fun e => e.priority.toNat) fun e => e.policy.object)

theorem inv_create : Inv [] ⟨create, 0⟩ := ⟨rfl, by simp [create], .nil⟩

variable {events : List Event}

theorem Inv.sublist {s : State} (h : Inv events s) (event : Event)
    {policies : List PolicyEntry} (hsub : policies.Sublist s.mgr.policies) :
    Inv (events ++ [event]) ⟨⟨policies⟩, s.calls + 1⟩ := by
  refine ⟨by simp [h.calls], fun e he => ?_, h.ordered.sublist hsub⟩
  obtain ⟨args, hargs, heq⟩ := h.created e (hsub.subset he)
  exact ⟨args, by rw [List.getElem?_append_left (List.getElem?_eq_some_iff.mp hargs).1, hargs], heq⟩

/-- **One call keeps the order.** -/
theorem inv_step {s : State} (h : Inv events s) (event : Event) :
    Inv (events ++ [event]) (step s event) := by
  cases event with
  | add args =>
    unfold step addPolicy
    dsimp only
    split_ifs
    · exact h.sublist _ (.refl _)
    have hinsert := LinkedList.insertBefore_enumerateUntil
      (fun a b : PolicyEntry => a.priority.toNat ≤ b.priority.toNat) s.mgr.policies
      (policyEntryCreate (Policy.create s.calls args))
    dsimp only at hinsert ⊢
    rw [hinsert]
    have hold := h.sublist (.add args) (.refl s.mgr.policies)
    refine ⟨hold.calls, fun e he => ?_, RankedList.pairwise_orderedInsert h.ordered fun e he => ?_⟩
    · obtain rfl | he := List.mem_cons.mp (List.perm_orderedInsert _ _ _ |>.subset he)
      · refine ⟨args, ?_, rfl⟩
        change (events ++ [Event.add args])[s.calls]? = _
        simp [h.calls]
      · exact hold.created e he
    · obtain ⟨args', hargs, -⟩ := h.created e he
      have := (List.getElem?_eq_some_iff.mp hargs).1
      rw [← h.calls] at this
      exact this
  | del args =>
    unfold step delPolicy
    dsimp only
    split_ifs
    · exact h.sublist _ (.refl _)
    · exact h.sublist _ (List.eraseP_sublist)
    · exact h.sublist _ (.refl _)
  | flush => exact h.sublist _ (List.nil_sublist _)

theorem inv_run {s : State} (h : LTS.Run system events s) :
    Inv events s := by
  refine h.history (I := Inv) ?_ ?_
  · rintro _ rfl
    exact inv_create
  · rintro events s event _ hinv rfl
    exact inv_step hinv event

def Installed (s : State) (policy : Policy) : Prop := ∃ e ∈ s.mgr.policies, e.policy = policy

/-- **The table answers with the best policy.** After any sequence of calls the table is sorted by
priority values, which do not underflow and encode the order of policies; every policy was added by
the call with its number; and `find_by_packet` finds a policy if one applies, and then one that no
other one precedes in the order, nor follows with the same rank and a later number. -/
theorem policyTable_best {events : List Event} {s : State} (h : LTS.Run system events s) :
    s.mgr.policies.Pairwise (fun a b => a.priority ≤ b.priority) ∧
      (∀ priority src dst, prefixLen src dst ≤ 384 * 2 ^ classRank priority ∧
        (calculatePriority priority src dst).toNat =
          4 * (384 * 2 ^ classRank priority - prefixLen src dst) +
            (if portSpecific src dst then 0 else 2) + if protocolSpecific src dst then 0 else 1) ∧
      (∀ priority src dst priority' src' dst',
        calculatePriority priority src dst < calculatePriority priority' src' dst' ↔
          rank priority src dst < rank priority' src' dst') ∧
      (∀ policy, Installed s policy → ∃ args, events[policy.object]? = some (.add args) ∧
        policy = Policy.create policy.object args) ∧
      ∀ packet inbound reqid,
        (s.mgr.findByPacket packet inbound reqid = none ↔
          ∀ policy, Installed s policy → applies packet inbound reqid policy = false) ∧
        ∀ policy, s.mgr.findByPacket packet inbound reqid = some policy →
          Installed s policy ∧ applies packet inbound reqid policy = true ∧
          ∀ other, Installed s other → applies packet inbound reqid other = true →
            other = policy ∨ policyRank policy < policyRank other ∨
              policyRank policy = policyRank other ∧ other.object < policy.object := by
  have hinv := inv_run h
  refine ⟨hinv.ordered.imp fun h => BitVec.le_def.mpr h.le, fun priority src dst =>
    ⟨?_, toNat_calculatePriority priority src dst⟩,
    fun _ _ _ _ _ _ => calculatePriority_lt_iff _ _ _ _ _ _, ?_,
    fun packet inbound reqid => ⟨?_, fun policy hfind => ?_⟩⟩
  · have := prefixLen_le src dst
    have := class_room priority priority
    omega
  · rintro policy ⟨e, he, rfl⟩
    obtain ⟨args, hargs, heq⟩ := hinv.created e he
    refine ⟨args, hargs, ?_⟩
    conv_lhs => rw [heq]
    rfl
  · rw [findByPacket, Option.map_eq_none_iff, List.find?_eq_none]
    constructor
    · rintro hnone _ ⟨e, he, rfl⟩
      exact Bool.eq_false_iff.mpr (hnone e he)
    · intro hall e he
      exact Bool.eq_false_iff.mp (hall e.policy ⟨e, he, rfl⟩)
  · obtain ⟨e, hfirst, rfl⟩ := Option.map_eq_some_iff.mp hfind
    have he := List.mem_of_find?_eq_some hfirst
    have happlied := List.find?_some hfirst
    refine ⟨⟨e, he, rfl⟩, happlied, ?_⟩
    rintro _ ⟨e', he', rfl⟩ happlies
    -- entries have the values of their policies
    have hvalue : ∀ {e}, e ∈ s.mgr.policies →
        e.priority = calculatePriority e.policy.priority e.policy.srcTs e.policy.dstTs := by
      intro e he
      obtain ⟨args, -, heq⟩ := hinv.created e he
      rw [heq]
      rfl
    have hlt := calculatePriority_lt_iff e.policy.priority e'.policy.priority e.policy.srcTs
      e.policy.dstTs e'.policy.srcTs e'.policy.dstTs
    have hgt := calculatePriority_lt_iff e'.policy.priority e.policy.priority e'.policy.srcTs
      e'.policy.dstTs e.policy.srcTs e.policy.dstTs
    rw [← hvalue he', ← hvalue he, BitVec.lt_def] at hlt hgt
    obtain rfl | hbefore | ⟨heq, hnewer⟩ := RankedList.find?_first hinv.ordered hfirst he' happlies
    · exact .inl rfl
    · exact .inr (.inl (hlt.mp hbefore))
    · dsimp only at heq
      refine .inr (.inr ⟨le_antisymm (not_lt.mp fun h => ?_) (not_lt.mp fun h => ?_), hnewer⟩)
      · exact absurd (hgt.mpr h) (by omega)
      · exact absurd (hlt.mpr h) (by omega)

/-- A policy for `10.0.0.0/8`, then one for `10.1.0.0/16`, and a packet between two of its hosts. -/
theorem policyTable_best_two :
    let ts := fun first last : U8 => TrafficSelector.create 0 .ipv4AddrRange [10, first, 0, 0] 0
      [10, last, 255, 255] 0xffff rfl rfl
    let host := fun last : U8 => (⟨.inet, [10, 1, 0, last], 0, rfl⟩ : Host)
    let args := fun first last : U8 => PolicyArgs.mk (host 1) (host 2) (ts first last)
      (ts first last) .in .ipsec 7 ⟨0, 0⟩ .default
    let s := step (step ⟨create, 0⟩ (.add (args 0 255))) (.add (args 1 1))
    let packet : IpPacket := ⟨host 1, host 2, [], [], 4, 59⟩
    s.mgr.findByPacket packet true 7 = some (Policy.create 1 (args 1 1)) ∧
      ∀ other, Installed s other → applies packet true 7 other = true →
        other = Policy.create 1 (args 1 1) ∨
          policyRank (Policy.create 1 (args 1 1)) < policyRank other ∨
          policyRank (Policy.create 1 (args 1 1)) = policyRank other ∧ other.object < 1 := by
  intro ts host args s packet
  have hrun : LTS.Run system [.add (args 0 255), .add (args 1 1)] s := LTS.run_ofFun.mpr ⟨_, rfl, rfl⟩
  have hfind : s.mgr.findByPacket packet true 7 = some (Policy.create 1 (args 1 1)) := by
    decide +kernel
  exact ⟨hfind, (((policyTable_best hrun).2.2.2.2 packet true 7).2 _ hfind).2.2⟩

end PolicyMgr

end StrongSwan
