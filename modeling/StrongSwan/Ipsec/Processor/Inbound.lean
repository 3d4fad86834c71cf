import StrongSwan.Ipsec.Processor
import StrongSwan.Ipsec.SaMgr.Grant

/-!
# What the inbound path delivers

* `SasInv`: the job is the only user of inbound SAs, and their ESP contexts stand for the numbers
  that it authenticated. It is kept by what others do and by what the job does.
* `GotSa`, `Accepted`, `Permitted`: the three checks a packet passes, each at a time in the past.
* `JobInv`: which of them the packet of the job has passed, and which SA the job has checked out.
* **`delivered_authenticated`**: every delivered packet has passed them all.
-/

namespace StrongSwan

open Handover (Ok By)
open LTS (Once)

namespace Processor

variable {createAead : U16 → Chunk → U16 → Chunk → Option Aead} {spiHash : U32 → U32}

/-! ## The SAs -/

/-- The numbers authenticated with an SA, newest first. -/
def numbers (authenticated : List (ℕ × U32)) (k : ℕ) : List U32 :=
  (authenticated.filter (·.1 = k)).map Prod.snd

variable {k : ℕ}

theorem mem_numbers {authenticated : List (ℕ × U32)} {seq : U32} :
    seq ∈ numbers authenticated k ↔ (k, seq) ∈ authenticated := by
  simp [numbers]

/-- What holds of the SAs: only the job, thread `0`, uses inbound ones. -/
structure SasInv (sas : SaMgr.State) (authenticated : List (ℕ × U32)) : Prop where
  ok : ∀ k, Ok sas.view k
  outbound : ∀ {t k e}, t ≠ 0 → (sas.threads t).Uses k → sas.mgr.entries k = some e →
    e.sa.inbound = false
  contexts : ∀ {k e}, sas.mgr.entries k = some e → e.sa.inbound = true →
    Receiver.Inv ⟨e.sa.espContext, numbers authenticated k⟩
  created : ∀ p ∈ authenticated, p.1 < sas.mgr.created

variable {sas sas' : SaMgr.State} {authenticated : List (ℕ × U32)} {event : SaMgr.Event}

theorem exists_entry_of_uses (hok : ∀ k, Ok sas.view k) {t k : ℕ} (h : (sas.threads t).Uses k) :
    ∃ e, sas.mgr.entries k = some e :=
  SaMgr.exists_entry_of_uses (t := t) (hok k) (h.imp_right fun h => by rw [h]; rfl)

theorem outbound_of_others {t : ℕ} {call : Call} {p : Sa → Bool} (ht : t ≠ 0)
    (hothers : t ≠ 0 → Others (.call t call) = true) (hp : call.checksOut = some p) {sa : Sa}
    (hsa : p sa = true) : sa.inbound = false := by
  have hothers := hothers ht
  cases call with
  | checkoutByReqid reqid inbound =>
    obtain rfl := Option.some.inj hp
    simp only [Others, Bool.and_eq_true, Bool.not_eq_true'] at hothers
    simp only [Sa.matchByReqid, Bool.and_eq_true, decide_eq_true_eq] at hsa
    rw [hsa.1.2, hothers.2]
  | checkoutBySpi spi dst => simp [Others] at hothers
  | _ => cases hp

/-- **A step of other threads, or of the job that changes no context, keeps it.** -/
theorem SasInv.step (h : SasInv sas authenticated) (hstep : sas.step createAead event = some sas')
    (hothers : event.thread ≠ 0 → Others event = true)
    (huse : ∀ t k context, event = .use t k (.espContext context) → t ≠ 0) :
    SasInv sas' authenticated := by
  obtain ⟨sas₁, hsas₁, hby⟩ := SaMgr.does_step createAead h.ok event
  obtain rfl := Option.some.inj (hsas₁.symm.trans hstep)
  refine ⟨hby.ok h.ok, fun {t k e'} ht huses he' => ?_, fun {k e'} he' hinbound => ?_,
    fun p hp => (h.created p hp).trans_le hby.next_le⟩
  · have hold : ∃ e, sas.mgr.entries k = some e ∧ e.sa.inbound = false := by
      obtain huses | ⟨call, p, rfl, hp, hfound⟩ := SaMgr.uses_step hstep huses
      · obtain ⟨e, he⟩ := exists_entry_of_uses h.ok huses
        exact ⟨e, he, h.outbound ht huses he⟩
      · obtain ⟨found, hfound', hsome, -⟩ :=
          SaMgr.findFirst_spec (SaMgr.exists_entry h.ok) (p := fun _ sa => p sa)
        obtain ⟨-, e, he, hmatch⟩ := hsome k (Option.some.inj (hfound'.symm.trans hfound))
        exact ⟨e, he, outbound_of_others ht hothers hp hmatch⟩
    obtain ⟨e, he, hfalse⟩ := hold
    obtain ⟨e₁, he₁, -, -, hinbound, -⟩ | ⟨hnext, -⟩ := SaMgr.sa_step h.ok hstep he'
    · obtain rfl := Option.some.inj (he.symm.trans he₁)
      rw [hinbound, hfalse]
    · exact absurd (SaMgr.lt_created (h.ok k) he) (by omega)
  · obtain ⟨e, he, -, -, hsame, hcontext⟩ | ⟨hnext, t, args, update, sa, rfl, hsa, -, -, hsame,
      hcontext⟩ := SaMgr.sa_step h.ok hstep he'
    · rw [hsame] at hinbound
      obtain ⟨t, context, rfl⟩ | hcontext := hcontext
      · -- a thread other than the job does not hold the SA
        have ht := huse t k context rfl
        have hnot : k ∉ (sas.threads t).held := by
          intro hk
          rw [h.outbound ht (.inl hk) he] at hinbound
          cases hinbound
        rw [SaMgr.State.step, if_neg hnot] at hstep
        obtain rfl := Option.some.inj hstep
        obtain rfl := Option.some.inj (he.symm.trans he')
        exact h.contexts he hinbound
      · rw [hcontext]
        exact h.contexts he hinbound
    · obtain ⟨-, -, -, aead, hcreate⟩ := Sa.create_eq hsa
      obtain ⟨_, _, hevent⟩ | hcontext := hcontext
      · cases hevent
      have hempty : numbers authenticated k = [] := by
        rw [numbers, List.map_eq_nil_iff, List.filter_eq_nil_iff]
        intro p hp
        have := h.created p hp
        simp only [decide_eq_true_eq]
        omega
      rw [hcontext, hcreate, hempty, ← hsame, hinbound]
      exact Receiver.inv_create aead

theorem numbers_cons_self (authenticated : List (ℕ × U32)) (k : ℕ) (seq : U32) :
    numbers ((k, seq) :: authenticated) k = seq :: numbers authenticated k := by
  simp [numbers]

variable {packet : EspPacket} {context : EspContext Aead}

theorem numbers_record_of_ne {j k : ℕ}
    (h : j ≠ k) : numbers (record packet context k authenticated) j = numbers authenticated j := by
  unfold record
  split
  · simp [numbers, h.symm]
  · rfl

/-- **`decrypt` keeps the window of the SA exact.** -/
theorem receiver_decrypt (packet : EspPacket)
    (h : Receiver.Inv ⟨context, numbers authenticated k⟩) :
    Receiver.Inv ⟨(packet.decrypt context).2.2,
      numbers (record packet context k authenticated) k⟩ := by
  rw [EspPacket.context_decrypt, record]
  cases hseq : packet.authenticates context with
  | none => exact h
  | some seq =>
    have hnext := Receiver.inv_receive h ⟨seq, true⟩
    rw [Receiver.receive, EspPacket.verifySeqno_of_authenticates hseq] at hnext
    dsimp only
    rw [numbers_cons_self]
    exact hnext

/-- **An authenticated number is a new one.** -/
theorem fresh_of_authenticates {seq : U32}
    (h : Receiver.Inv ⟨context, numbers authenticated k⟩)
    (hseq : packet.authenticates context = some seq) : (k, seq) ∉ authenticated := by
  have hnext := (receiver_decrypt packet h).nodup
  rw [record, hseq] at hnext
  dsimp only at hnext
  rw [numbers_cons_self, List.nodup_cons] at hnext
  rw [← mem_numbers]
  exact hnext.1

variable {e : SaEntry}

variable (createAead) in
theorem step_use {t k : ℕ} (use : SaUse) (hk : k ∈ (sas.threads t).held)
    (he : sas.mgr.entries k = some e) : sas.step createAead (.use t k use) =
      some ⟨sas.mgr.setEntry k { e with sa := use.apply e.sa }, sas.threads⟩ := by
  rw [SaMgr.State.step, if_pos hk, he]
  rfl

/-- **`decrypt` keeps what holds of the SAs**, with what it authenticates. -/
theorem SasInv.decrypt (h : SasInv sas authenticated)
    (hk : k ∈ (sas.threads 0).held) (he : sas.mgr.entries k = some e)
    (hinbound : e.sa.inbound = true) (packet : EspPacket)
    (hstep : sas.step createAead
      (.use 0 k (.espContext (packet.decrypt e.sa.espContext).2.2)) = some sas') :
    SasInv sas' (record packet e.sa.espContext k authenticated) := by
  obtain ⟨sas₁, hsas₁, hby⟩ := SaMgr.does_step createAead h.ok
    (.use 0 k (.espContext (packet.decrypt e.sa.espContext).2.2))
  obtain rfl := Option.some.inj (hsas₁.symm.trans hstep)
  have hnext := hby.next_le
  have hok := hby.ok h.ok
  obtain rfl := Option.some.inj ((step_use createAead _ hk he).symm.trans hstep)
  refine ⟨hok, fun {t j e'} ht huses he' => ?_, fun {j e'} he' hinbound' => ?_, fun p hp => ?_⟩
  · by_cases hj : j = k
    · subst hj
      rw [h.outbound ht huses he] at hinbound
      cases hinbound
    · rw [SaMgr.entries_setEntry_of_ne _ hj] at he'
      exact h.outbound ht huses he'
  · by_cases hj : j = k
    · subst hj
      rw [SaMgr.entries_setEntry_self] at he'
      obtain rfl := Option.some.inj he'
      exact receiver_decrypt packet (h.contexts he hinbound)
    · rw [SaMgr.entries_setEntry_of_ne _ hj] at he'
      rw [numbers_record_of_ne hj]
      exact h.contexts he' hinbound'
  · unfold record at hp
    split at hp
    · obtain rfl | hp := List.mem_cons.mp hp
      · exact (SaMgr.lt_created (h.ok k) he).trans_le hnext
      · exact (h.created p hp).trans_le hnext
    · exact (h.created p hp).trans_le hnext

/-! ## The checks of a packet -/

/-- The port is in the range of the selector, or the selector is for opaque ports. -/
def SelectsPort (ts : TrafficSelector) (port : U16) : Prop :=
  ts.fromPort ≤ port ∧ port ≤ ts.toPort ∨ ts.fromPort = 0xffff ∧ ts.toPort = 0

def SelectsProtocol (ts : TrafficSelector) (protocol : U8) : Prop :=
  ts.protocol = 0 ∨ ts.protocol = protocol

/-- The selectors of the policy include addresses, ports and protocol of the packet. Callers only
install policies with selectors for one protocol, or one of them for any. -/
structure Selects (policy : Policy) (ip : IpPacket) : Prop where
  src : policy.srcTs.includes ip.src = true
  srcPort : SelectsPort policy.srcTs ip.src.port
  dst : policy.dstTs.includes ip.dst = true
  dstPort : SelectsPort policy.dstTs ip.dst.port
  protocol : policy.srcTs.protocol = 0 ∨ policy.dstTs.protocol = 0 ∨
    policy.srcTs.protocol = policy.dstTs.protocol →
      SelectsProtocol policy.srcTs ip.nextHeader ∧ SelectsProtocol policy.dstTs ip.nextHeader

theorem selectsPort_of_matchPort {ts : TrafficSelector} {host : Host}
    (h : Policy.matchPort ts host = true) : SelectsPort ts host.port := by
  unfold Policy.matchPort at h
  split_ifs at h with hany
  · obtain ⟨hfrom, hto⟩ | hfull := hany
    · rw [SelectsPort, hfrom, hto]
      exact .inl ⟨by bv_omega, by bv_omega⟩
    · exact .inr hfull
  · simp only [Bool.and_eq_true, decide_eq_true_eq] at h
    exact .inl h

theorem eq_or_eq_of_umax {x y : U8} (h : x = 0 ∨ y = 0 ∨ x = y) (z : U8)
    (hz : umax x y = 0 ∨ umax x y = z) : (x = 0 ∨ x = z) ∧ (y = 0 ∨ y = z) := by
  have hmax := toNat_umax x y
  generalize umax x y = m at *
  obtain rfl | rfl := hz
  · change 0 = _ at hmax
    exact ⟨.inl (by bv_omega), .inl (by bv_omega)⟩
  · obtain rfl | rfl | rfl := h
    · exact ⟨.inl rfl, .inr (by bv_omega)⟩
    · exact ⟨.inr (by bv_omega), .inl rfl⟩
    · exact ⟨.inr (by bv_omega), .inr (by bv_omega)⟩

theorem selects_of_matchPacket {policy : Policy} {ip : IpPacket}
    (hprotocol : policy.protocol = umax policy.srcTs.protocol policy.dstTs.protocol)
    (h : policy.matchPacket ip = true) : Selects policy ip := by
  simp only [Policy.matchPacket, Bool.and_eq_true, Bool.or_eq_true, decide_eq_true_eq] at h
  obtain ⟨⟨⟨⟨hproto, hsrc⟩, hsrcPort⟩, hdst⟩, hdstPort⟩ := h
  refine ⟨hsrc, selectsPort_of_matchPort hsrcPort, hdst, selectsPort_of_matchPort hdstPort,
    fun hcompatible => eq_or_eq_of_umax hcompatible _ ?_⟩
  rwa [hprotocol] at hproto

/-- The job has an SA for the packet: one that is installed as inbound, has not hard expired and
matches by SPI and destination. -/
def GotSa (packet : EspPacket) (sa : ℕ) (_ : List Event) (s : State) : Prop :=
  sa ∈ s.sas.mgr.sas ∧ sa ∈ (s.sas.threads 0).held ∧ ∃ e spi, s.sas.mgr.entries sa = some e ∧
    packet.parseHeader = some spi ∧ e.sa.inbound = true ∧ e.sa.hardExpired = false ∧
    e.sa.spi = spi ∧ e.sa.dst.ipEquals packet.destination = true

variable (createAead spiHash) in
/-- The AEAD of the SA that the job has for the packet accepts it, with a number that was not
authenticated before with this SA. -/
def Accepted (packet' : EspPacket) (reqid : U32) (events : List Event) (s : State) : Prop :=
  ∃ packet sa e seq, s.sas.mgr.entries sa = some e ∧ sa ∈ (s.sas.threads 0).held ∧
    e.sa.inbound = true ∧ e.sa.reqid = reqid ∧
    (packet.decrypt e.sa.espContext).1 = .success ∧
    (packet.decrypt e.sa.espContext).2.1 = packet' ∧
    packet.authenticates e.sa.espContext = some seq ∧ (sa, seq) ∉ s.authenticated ∧
    Once (system createAead spiHash) (GotSa packet sa) events s

variable (createAead spiHash) in
/-- The packet has an IP packet in it that an inbound policy with the reqid of the SA selects. -/
def Permitted (packet : EspPacket) (events : List Event) (s : State) : Prop :=
  ∃ ip reqid policy, packet.payload = some ip ∧
    (packet.nextHeader = IPPROTO_IPIP ∨ packet.nextHeader = IPPROTO_IPV6) ∧
    PolicyMgr.Installed s.policies policy ∧ policy.direction = .in ∧
    (reqid ≠ 0 → policy.reqid = reqid) ∧ Selects policy ip ∧
    Once (system createAead spiHash) (Accepted createAead spiHash packet reqid) events s

/-! ## The job -/

/-- The job has no SA. -/
def Idle (sas : SaMgr.State) : Prop := ∃ result, sas.threads 0 = ⟨.returned result, ∅⟩

/-- The job has checked out an SA. -/
def Holds (sas : SaMgr.State) (sa : ℕ) : Prop := ∃ result, sas.threads 0 = ⟨.returned result, {sa}⟩

/-- How far the job is with its checkout. It gets inbound SAs without a wait. -/
inductive Checked (sas : SaMgr.State) (got : ℕ → Prop) : Prop
  | got {sa : ℕ} : sas.threads 0 = ⟨.returned (.sa (some sa)), {sa}⟩ →
      (∀ e, sas.mgr.entries sa = some e → e.sa.inbound = true → got sa) → Checked sas got
  | waits {sa : ℕ} : sas.threads 0 = ⟨.waitForEntry .checkout sa, ∅⟩ →
      (∀ e, sas.mgr.entries sa = some e → e.sa.inbound = false) → Checked sas got
  | failed : sas.threads 0 = ⟨.returned (.sa none), ∅⟩ → Checked sas got

/-- What holds of the job and its packet, in terms of the checks passed. -/
def JobInv (sas : SaMgr.State) (got : EspPacket → ℕ → Prop) (accepted : EspPacket → U32 → Prop)
    (permitted : EspPacket → Prop) : Job → Prop
  | .dequeue => Idle sas
  | .checkout packet spi => Idle sas ∧ packet.parseHeader = some spi
  | .checkedOut packet spi => packet.parseHeader = some spi ∧ Checked sas (got packet)
  | .usestats packet sa => Holds sas sa ∧ packet.payload ≠ none ∧
      ∀ e, sas.mgr.entries sa = some e → accepted packet e.sa.reqid
  | .checkin _ sa none => Holds sas sa
  | .checkin packet sa (some reqid) =>
      Holds sas sa ∧ packet.payload ≠ none ∧ accepted packet reqid
  | .policy packet reqid => Idle sas ∧ packet.payload ≠ none ∧ accepted packet reqid
  | .deliver packet => Idle sas ∧ permitted packet

theorem JobInv.frame {got got' : EspPacket → ℕ → Prop} {accepted accepted' : EspPacket → U32 → Prop}
    {permitted permitted' : EspPacket → Prop} {job : Job}
    (h : JobInv sas got accepted permitted job) (hthread : sas'.threads 0 = sas.threads 0)
    (hkept : ∀ k e', (sas.threads 0).Uses k → sas'.mgr.entries k = some e' →
      ∃ e, sas.mgr.entries k = some e ∧ e'.sa.inbound = e.sa.inbound ∧ e'.sa.reqid = e.sa.reqid)
    (hgot : ∀ packet sa, got packet sa → got' packet sa)
    (haccepted : ∀ packet reqid, accepted packet reqid → accepted' packet reqid)
    (hpermitted : ∀ packet, permitted packet → permitted' packet) :
    JobInv sas' got' accepted' permitted' job := by
  have hidle : Idle sas → Idle sas' := fun ⟨result, h⟩ => ⟨result, hthread.trans h⟩
  have hholds : ∀ {sa}, Holds sas sa → Holds sas' sa := fun ⟨result, h⟩ => ⟨result, hthread.trans h⟩
  cases job with
  | dequeue => exact hidle h
  | checkout packet spi => exact ⟨hidle h.1, h.2⟩
  | checkedOut packet spi =>
    refine ⟨h.1, ?_⟩
    cases h.2 with
    | @got sa hpc hall =>
      refine .got (hthread.trans hpc) fun e' he' hinbound => hgot _ _ ?_
      obtain ⟨e, he, hsame, -⟩ := hkept sa e' (.inl (by simp [hpc])) he'
      exact hall e he (hsame ▸ hinbound)
    | @waits sa hpc hall =>
      refine .waits (hthread.trans hpc) fun e' he' => ?_
      obtain ⟨e, he, hsame, -⟩ := hkept sa e' (.inr (by rw [hpc])) he'
      exact hsame.trans (hall e he)
    | failed hpc => exact .failed (hthread.trans hpc)
  | usestats packet sa =>
    obtain ⟨⟨result, hpc⟩, hpayload, hall⟩ := h
    refine ⟨⟨result, hthread.trans hpc⟩, hpayload, fun e' he' => haccepted _ _ ?_⟩
    obtain ⟨e, he, -, hsame⟩ := hkept sa e' (.inl (by simp [hpc])) he'
    rw [hsame]
    exact hall e he
  | checkin packet sa reqid =>
    cases reqid with
    | none => exact hholds h
    | some reqid => exact ⟨hholds h.1, h.2.1, haccepted _ _ h.2.2⟩
  | policy packet reqid => exact ⟨hidle h.1, h.2.1, haccepted _ _ h.2.2⟩
  | deliver packet => exact ⟨hidle h.1, hpermitted _ h.2⟩

theorem kept_step (hok : ∀ k, Ok sas.view k) (hstep : sas.step createAead event = some sas')
    {e' : SaEntry} (huses : (sas.threads 0).Uses k) (he' : sas'.mgr.entries k = some e') :
    ∃ e, sas.mgr.entries k = some e ∧ e'.sa.inbound = e.sa.inbound ∧ e'.sa.reqid = e.sa.reqid := by
  obtain ⟨e, he⟩ := exists_entry_of_uses hok huses
  obtain ⟨e₁, he₁, -, hreqid, hinbound, -⟩ | ⟨hnext, -⟩ := SaMgr.sa_step hok hstep he'
  · exact ⟨e₁, he₁, hinbound, hreqid⟩
  · exact absurd (SaMgr.lt_created (hok k) he) (by omega)

/-! ### The checkout -/

theorem lockEntry_checkout {m : SaMgr} (he : m.entries k = some e) :
    ∃ m' pc, m.lockEntry .checkout k = some (m', pc) ∧ m'.sas = m.sas ∧
      (∃ e', m'.entries k = some e' ∧ e'.sa = e.sa) ∧
      (pc = .returned (.sa (some k)) ∨ pc = .waitForEntry .checkout k ∧ e.locked = true ∨
        pc = .returned (.sa none)) := by
  cases hdoomed : e.awaitsDeletion with
  | true =>
    rw [SaMgr.lockEntry_doomed he hdoomed]
    exact ⟨m, _, rfl, rfl, ⟨e, he, rfl⟩, .inr (.inr rfl)⟩
  | false =>
    cases hlocked : e.locked with
    | true =>
      rw [SaMgr.lockEntry_locked he hdoomed hlocked]
      exact ⟨_, _, rfl, rfl, ⟨_, SaMgr.entries_setEntry_self .., rfl⟩, .inr (.inl ⟨rfl, rfl⟩)⟩
    | false =>
      rw [SaMgr.lockEntry_free he hdoomed hlocked]
      exact ⟨_, _, rfl, rfl, ⟨_, SaMgr.entries_setEntry_self .., rfl⟩, .inl rfl⟩

theorem checked_leave {m : SaMgr} {pc : Pc} {got : ℕ → Prop}
    (hheld : (sas.threads 0).held = ∅)
    (hpc : pc = .returned (.sa (some k)) ∨ pc = .waitForEntry .checkout k ∨
      pc = .returned (.sa none))
    (hgot : pc = .returned (.sa (some k)) → ∀ e, m.entries k = some e → e.sa.inbound = true → got k)
    (hwaits : pc = .waitForEntry .checkout k → ∀ e, m.entries k = some e → e.sa.inbound = false) :
    Checked (sas.leave 0 (m, pc)) got := by
  have hthread := SaMgr.State.threads_leave_self sas 0 (m, pc)
  rw [hheld] at hthread
  obtain rfl | rfl | rfl := hpc
  · exact .got hthread (hgot rfl)
  · exact .waits hthread (hwaits rfl)
  · exact .failed hthread

theorem SasInv.outbound_of_locked (h : SasInv sas authenticated)
    (hheld : (sas.threads 0).held = ∅) (he : sas.mgr.entries k = some e) (hlocked : e.locked = true) :
    e.sa.inbound = false := by
  have hcell : sas.view.cells k = some e.cell := by
    rw [SaMgr.cells_view, he]
    rfl
  obtain ⟨t, ht⟩ := (h.ok k).locked hcell hlocked
  refine h.outbound (t := t) (fun hzero => ?_) (.inl ht) he
  subst hzero
  change k ∈ (sas.threads 0).held at ht
  rw [hheld] at ht
  cases ht

theorem matchBySpiDst_eq {sa : Sa} {spi : U32} {dst : Host} (h : sa.matchBySpiDst spi dst = true) :
    sa.spi = spi ∧ sa.dst.ipEquals dst = true ∧ sa.hardExpired = false := by
  simp only [Sa.matchBySpiDst, Bool.and_eq_true, decide_eq_true_eq, Bool.not_eq_true'] at h
  exact ⟨h.1.1, h.1.2, h.2⟩

variable (createAead) in
/-- **The call of `checkout_by_spi`.** -/
theorem step_checkout (h : SasInv sas authenticated) (hidle : Idle sas) (spi : U32) (dst : Host) :
    ∃ sas', sas.step createAead (.call 0 (.checkoutBySpi spi dst)) = some sas' ∧
      ∀ got : ℕ → Prop, (∀ sa e, sa ∈ sas'.mgr.sas → sa ∈ (sas'.threads 0).held →
        sas'.mgr.entries sa = some e → e.sa.inbound = true → e.sa.hardExpired = false →
        e.sa.spi = spi → e.sa.dst.ipEquals dst = true → got sa) → Checked sas' got := by
  obtain ⟨result, hthread⟩ := hidle
  have hheld : (sas.threads 0).held = ∅ := by rw [hthread]
  have hstep : sas.step createAead (.call 0 (.checkoutBySpi spi dst)) =
      (sas.mgr.checkout fun _ sa => sa.matchBySpiDst spi dst).map (sas.leave 0) := by
    rw [SaMgr.State.step, hthread]
    rfl
  obtain ⟨found, hfound, hsome, -⟩ := SaMgr.findFirst_spec (SaMgr.exists_entry h.ok)
    (p := fun _ sa => sa.matchBySpiDst spi dst)
  rw [hstep, SaMgr.checkout, hfound, Option.bind_eq_bind, Option.bind_some]
  cases found with
  | none =>
    exact ⟨_, rfl, fun got _ => checked_leave (k := 0) hheld (.inr (.inr rfl)) (fun h => by cases h)
      (fun h => by cases h)⟩
  | some k =>
    obtain ⟨hk, e, he, hmatch⟩ := hsome k rfl
    obtain ⟨hspi, hdst, hexpired⟩ := matchBySpiDst_eq hmatch
    obtain ⟨m, pc, hlock, hsas, ⟨e', he', hsame⟩, hpc⟩ := lockEntry_checkout he
    refine ⟨sas.leave 0 (m, pc), congrArg (Option.map (sas.leave 0)) hlock, fun got hgot => ?_⟩
    refine checked_leave (k := k) hheld (hpc.imp_right (.imp_left And.left)) (fun heq e₁ he₁ hin => ?_)
      fun heq e₁ he₁ => ?_
    · obtain rfl := Option.some.inj (he'.symm.trans he₁)
      rw [hsame] at hin
      refine hgot k e' (hsas ▸ hk) ?_ he' (hsame ▸ hin) (hsame ▸ hexpired) (hsame ▸ hspi)
        (hsame ▸ hdst)
      rw [SaMgr.State.threads_leave_self, heq]
      exact Finset.mem_union_left _ (Finset.mem_singleton_self k)
    · obtain rfl := Option.some.inj (he'.symm.trans he₁)
      rw [hsame]
      obtain hpc | ⟨-, hlocked⟩ | hpc := hpc
      · rw [hpc] at heq
        cases heq
      · exact h.outbound_of_locked hheld he hlocked
      · rw [hpc] at heq
        cases heq

variable (createAead) in
/-- **A wake-up in `checkout_by_spi`.** -/
theorem step_resume (h : SasInv sas authenticated)
    (hthread : sas.threads 0 = ⟨.waitForEntry .checkout k, ∅⟩)
    (hout : ∀ e, sas.mgr.entries k = some e → e.sa.inbound = false) :
    ∃ sas', sas.step createAead (.resume 0) = some sas' ∧ ∀ got : ℕ → Prop, Checked sas' got := by
  obtain ⟨e, he⟩ := exists_entry_of_uses h.ok (t := 0) (k := k) (.inr (by rw [hthread]))
  have hstep : sas.step createAead (.resume 0) =
      (sas.mgr.resumeWaitForEntry .checkout k).map (sas.leave 0) := by
    rw [SaMgr.State.step, hthread]
  have hheld : (sas.threads 0).held = ∅ := by rw [hthread]
  obtain ⟨m, pc, hlock, -, ⟨e', he', hsame⟩, hpc⟩ := lockEntry_checkout
    (SaMgr.entries_setEntry_self sas.mgr k { e with waitingThreads := e.waitingThreads - 1 })
  rw [hstep, SaMgr.resumeWaitForEntry, he, Option.bind_eq_bind, Option.bind_some, hlock]
  refine ⟨_, rfl, fun got => checked_leave (k := k) hheld (hpc.imp_right (.imp_left And.left))
    (fun _ e₁ he₁ hin => ?_) fun _ e₁ he₁ => ?_⟩
  · obtain rfl := Option.some.inj (he'.symm.trans he₁)
    rw [hsame] at hin
    exact absurd (hin.symm.trans (hout e he)) (by decide)
  · obtain rfl := Option.some.inj (he'.symm.trans he₁)
    rw [hsame]
    exact hout e he

/-! ## Runs -/

def queued (events : List Event) : List EspPacket :=
  events.filterMap fun
    | .queueInbound packet => some packet
    | _ => none

/-- Where the packets are. -/
def State.packets (s : State) : List EspPacket :=
  s.inboundQueue ++ s.job.packet.toList ++ s.dropped ++ s.delivered

variable (createAead spiHash) in
/-- What holds after a run. -/
structure Inv (events : List Event) (s : State) : Prop where
  run : LTS.Run (system createAead spiHash) events s
  sas : SasInv s.sas s.authenticated
  policies : ∃ calls, PolicyMgr.Inv calls s.policies
  nodup : s.authenticated.Nodup
  job : JobInv s.sas (fun packet sa => Once (system createAead spiHash) (GotSa packet sa) events s)
    (fun packet reqid =>
      Once (system createAead spiHash) (Accepted createAead spiHash packet reqid) events s)
    (fun packet => Once (system createAead spiHash) (Permitted createAead spiHash packet) events s)
    s.job
  delivered : ∀ packet ∈ s.delivered,
    Once (system createAead spiHash) (Permitted createAead spiHash packet) events s
  accounted : ((queued events).map EspPacket.data).Perm (s.packets.map EspPacket.data)

variable {events : List Event} {s s' : State}

theorem packets_of_packet (h : s.job.packet = some packet) :
    s.packets = s.inboundQueue ++ (packet :: s.dropped) ++ s.delivered := by
  rw [State.packets, h, List.append_assoc s.inboundQueue]
  rfl

theorem Inv.next (h : Inv createAead spiHash events s) {now : U64}
    (hstep : s.processInbound createAead now = some s')
    (hsas : SasInv s'.sas s'.authenticated) (hpolicies : s'.policies = s.policies)
    (hnodup : s'.authenticated.Nodup)
    (hjob : LTS.Run (system createAead spiHash) (events ++ [.processInbound now]) s' →
      JobInv s'.sas (fun packet sa => Once (system createAead spiHash) (GotSa packet sa)
          (events ++ [.processInbound now]) s')
        (fun packet reqid => Once (system createAead spiHash)
          (Accepted createAead spiHash packet reqid) events s)
        (fun packet => Once (system createAead spiHash)
          (Permitted createAead spiHash packet) events s) s'.job)
    (hdelivered : ∀ packet ∈ s'.delivered,
      Once (system createAead spiHash) (Permitted createAead spiHash packet) events s)
    (haccounted : (s'.packets.map EspPacket.data).Perm (s.packets.map EspPacket.data)) :
    Inv createAead spiHash (events ++ [.processInbound now]) s' := by
  have hlast : (system createAead spiHash).step s (.processInbound now) s' := hstep
  have hrun : LTS.Run (system createAead spiHash) (events ++ [.processInbound now]) s' := by
    obtain ⟨s₀, hs₀, hsteps⟩ := h.run
    exact ⟨s₀, hs₀, hsteps.snoc hlast⟩
  refine ⟨hrun, hsas, hpolicies ▸ h.policies, hnodup, ?_, fun packet hp =>
    (hdelivered packet hp).snoc hlast, ?_⟩
  · exact (hjob hrun).frame rfl (fun k e' _ he' => ⟨e', he', rfl, rfl⟩) (fun _ _ h => h)
      (fun _ _ h => h.snoc hlast) fun _ h => h.snoc hlast
  · have hqueued : queued (events ++ [.processInbound now]) = queued events := by simp [queued]
    rw [hqueued]
    exact h.accounted.trans haccounted.symm

theorem Inv.drop (h : Inv createAead spiHash events s) {now : U64}
    {sas : SaMgr.State} (hpacket : s.job.packet = some packet)
    (hstep : s.processInbound createAead now =
      some ({ s with sas := sas }.drop packet))
    (hsas : SasInv sas s.authenticated) (hidle : Idle sas) :
    Inv createAead spiHash (events ++ [.processInbound now]) ({ s with sas := sas }.drop packet) := by
  refine h.next hstep hsas rfl h.nodup (fun _ => hidle) h.delivered (.map _ ?_)
  rw [packets_of_packet hpacket]
  simp [State.packets, State.drop, Job.packet]

/-! ### The job takes a packet -/

theorem inv_dequeue (h : Inv createAead spiHash events s) (hjob : s.job = .dequeue) (now : U64) :
    ∃ s', s.processInbound createAead now = some s' ∧
      Inv createAead spiHash (events ++ [.processInbound now]) s' := by
  have hidle : Idle s.sas := by
    have := h.job
    rwa [hjob] at this
  have hpackets : s.packets = s.inboundQueue ++ s.dropped ++ s.delivered := by
    simp [State.packets, hjob, Job.packet]
  cases hqueue : s.inboundQueue with
  | nil =>
    have hstep : s.processInbound createAead now = some s := by
      simp [State.processInbound, hjob, hqueue]
    refine ⟨s, hstep, h.next hstep h.sas rfl h.nodup (fun _ => ?_) h.delivered (.refl _)⟩
    rw [hjob]
    exact hidle
  | cons packet queue =>
    rw [hqueue] at hpackets
    cases hspi : packet.parseHeader with
    | none =>
      have hstep : s.processInbound createAead now =
          some ({ s with inboundQueue := queue }.drop packet) := by
        simp [State.processInbound, hjob, hqueue, hspi]
      refine ⟨_, hstep, h.next hstep h.sas rfl h.nodup (fun _ => hidle) h.delivered (.map _ ?_)⟩
      rw [hpackets]
      simp [State.packets, State.drop, Job.packet, List.perm_middle]
    | some spi =>
      have hstep : s.processInbound createAead now =
          some { s with inboundQueue := queue, job := .checkout packet spi } := by
        simp [State.processInbound, hjob, hqueue, hspi]
      refine ⟨_, hstep, h.next hstep h.sas rfl h.nodup (fun _ => ⟨hidle, hspi⟩) h.delivered
        (.map _ ?_)⟩
      rw [hpackets]
      simp [State.packets, Job.packet, List.perm_middle]

theorem inv_checkout (h : Inv createAead spiHash events s) {spi : U32}
    (hjob : s.job = .checkout packet spi) (now : U64) :
    ∃ s', s.processInbound createAead now = some s' ∧
      Inv createAead spiHash (events ++ [.processInbound now]) s' := by
  obtain ⟨hidle, hspi⟩ : Idle s.sas ∧ packet.parseHeader = some spi := by
    have := h.job
    rwa [hjob] at this
  obtain ⟨sas, hsas, hchecked⟩ := step_checkout createAead h.sas hidle spi
    packet.destination
  have hstep : s.processInbound createAead now =
      some { s with sas := sas, job := .checkedOut packet spi } := by
    simp [State.processInbound, hjob, hsas]
  refine ⟨_, hstep, h.next hstep ?_ rfl h.nodup (fun hrun => ⟨hspi, hchecked _ ?_⟩) h.delivered
    (.map _ ?_)⟩
  · exact h.sas.step hsas (fun hne => absurd rfl hne) nofun
  · intro sa e hmem hheld he hinbound hexpired hspi' hdst
    exact .now hrun ⟨hmem, hheld, e, spi, he, hspi, hinbound, hexpired, hspi', hdst⟩
  · simp [State.packets, hjob, Job.packet]

/-- **The job decrypts its packet.** -/
theorem inv_decrypt (h : Inv createAead spiHash events s) {spi : U32} {sa : ℕ}
    (hjob : s.job = .checkedOut packet spi)
    (hthread : s.sas.threads 0 = ⟨.returned (.sa (some sa)), {sa}⟩)
    (hgot : ∀ e, s.sas.mgr.entries sa = some e → e.sa.inbound = true →
      Once (system createAead spiHash) (GotSa packet sa) events s) (now : U64) :
    ∃ s', s.processInbound createAead now = some s' ∧
      Inv createAead spiHash (events ++ [.processInbound now]) s' := by
  have hheld : sa ∈ (s.sas.threads 0).held := by simp [hthread]
  obtain ⟨e, he⟩ := exists_entry_of_uses h.sas.ok (t := 0) (.inl hheld)
  have hdecrypt : s.processInbound createAead now = s.decrypt createAead packet sa := by
    simp [State.processInbound, hjob, hthread]
  cases hinbound : e.sa.inbound with
  | false =>
    have hstep : s.processInbound createAead now =
        some { s with job := .checkin packet sa none } := by
      simp [hdecrypt, State.decrypt, he, hinbound]
    refine ⟨_, hstep, h.next hstep h.sas rfl h.nodup (fun _ => ⟨_, hthread⟩) h.delivered (.map _ ?_)⟩
    simp [State.packets, hjob, Job.packet]
  | true =>
    have huse := step_use createAead
      (.espContext (packet.decrypt e.sa.espContext).2.2) hheld he
    have hstep : s.processInbound createAead now = some { s with
        sas := ⟨s.sas.mgr.setEntry sa { e with
          sa := { e.sa with espContext := (packet.decrypt e.sa.espContext).2.2 } }, s.sas.threads⟩
        authenticated := record packet e.sa.espContext sa s.authenticated
        job := if (packet.decrypt e.sa.espContext).1 = .success
          then .usestats (packet.decrypt e.sa.espContext).2.1 sa
          else .checkin (packet.decrypt e.sa.espContext).2.1 sa none } := by
      simp only [hdecrypt, State.decrypt, he, hinbound, huse, Option.bind_eq_bind, Option.bind_some,
        Bool.not_true, Bool.false_eq_true, if_false, SaUse.apply]
    have hreceiver := h.sas.contexts he hinbound
    refine ⟨_, hstep, h.next hstep (h.sas.decrypt hheld he hinbound packet huse) rfl ?_
      (fun _ => ?_) h.delivered ?_⟩
    · dsimp only [record]
      cases hseq : packet.authenticates e.sa.espContext with
      | none => exact h.nodup
      | some seq => exact List.nodup_cons.mpr ⟨fresh_of_authenticates hreceiver hseq, h.nodup⟩
    · dsimp only
      split_ifs with hsuccess
      · obtain ⟨seq, ip, hseq, hip⟩ := EspPacket.decrypt_success hsuccess
        refine ⟨⟨_, hthread⟩, by simp [hip], fun e' he' => .now h.run ?_⟩
        rw [SaMgr.entries_setEntry_self] at he'
        obtain rfl := Option.some.inj he'
        exact ⟨packet, sa, e, seq, he, hheld, hinbound, rfl, hsuccess, rfl, hseq,
          fresh_of_authenticates hreceiver hseq, hgot e he hinbound⟩
      · exact ⟨_, hthread⟩
    · have hdata := EspPacket.data_decrypt packet e.sa.espContext
      dsimp only [State.packets]
      split_ifs <;> simp [hjob, Job.packet, hdata]

theorem inv_checkedOut (h : Inv createAead spiHash events s) {spi : U32}
    (hjob : s.job = .checkedOut packet spi) (now : U64) :
    ∃ s', s.processInbound createAead now = some s' ∧
      Inv createAead spiHash (events ++ [.processInbound now]) s' := by
  obtain ⟨hspi, hchecked⟩ : packet.parseHeader = some spi ∧ Checked s.sas fun sa =>
      Once (system createAead spiHash) (GotSa packet sa) events s := by
    have := h.job
    rwa [hjob] at this
  cases hchecked with
  | got hthread hgot => exact inv_decrypt h hjob hthread hgot now
  | waits hthread hout =>
    obtain ⟨sas, hsas, hchecked⟩ := step_resume createAead h.sas hthread hout
    have hstep : s.processInbound createAead now = some { s with sas := sas } := by
      simp [State.processInbound, hjob, hthread, hsas]
    refine ⟨_, hstep, h.next hstep ?_ rfl h.nodup (fun _ => ?_) h.delivered (.refl _)⟩
    · exact h.sas.step hsas (fun hne => absurd rfl hne) nofun
    · dsimp only
      rw [hjob]
      exact ⟨hspi, hchecked _⟩
  | failed hthread =>
    have hstep : s.processInbound createAead now = some (s.drop packet) := by
      simp [State.processInbound, hjob, hthread]
    exact ⟨_, hstep, h.drop (by rw [hjob]; rfl) hstep h.sas ⟨_, hthread⟩⟩

theorem inv_usestats (h : Inv createAead spiHash events s) {sa : ℕ}
    (hjob : s.job = .usestats packet sa) (now : U64) :
    ∃ s', s.processInbound createAead now = some s' ∧
      Inv createAead spiHash (events ++ [.processInbound now]) s' := by
  obtain ⟨⟨result, hthread⟩, hpayload, haccepted⟩ : Holds s.sas sa ∧ packet.payload ≠ none ∧
      ∀ e, s.sas.mgr.entries sa = some e → Once (system createAead spiHash)
        (Accepted createAead spiHash packet e.sa.reqid) events s := by
    have := h.job
    rwa [hjob] at this
  obtain ⟨ip, hip⟩ := Option.ne_none_iff_exists'.mp hpayload
  have hheld : sa ∈ (s.sas.threads 0).held := by simp [hthread]
  obtain ⟨e, he⟩ := exists_entry_of_uses h.sas.ok (t := 0) (.inl hheld)
  have huse := step_use createAead (.usestats now (BitVec.ofNat 32 ip.packet.length)) hheld he
  have hstep : s.processInbound createAead now = some { s with
      sas := ⟨s.sas.mgr.setEntry sa { e with
        sa := e.sa.updateUsestats now (BitVec.ofNat 32 ip.packet.length) }, s.sas.threads⟩
      job := .checkin packet sa (some e.sa.reqid) } := by
    simp [State.processInbound, hjob, hip, he, huse, SaUse.apply]
  refine ⟨_, hstep, h.next hstep ?_ rfl h.nodup
    (fun _ => ⟨⟨result, hthread⟩, hpayload, haccepted e he⟩) h.delivered (.map _ ?_)⟩
  · exact h.sas.step huse (fun hne => absurd rfl hne) (fun _ _ _ heq => by cases heq)
  · simp [State.packets, hjob, Job.packet]

theorem inv_checkin (h : Inv createAead spiHash events s) {sa : ℕ}
    {reqid : Option U32} (hjob : s.job = .checkin packet sa reqid) (now : U64) :
    ∃ s', s.processInbound createAead now = some s' ∧
      Inv createAead spiHash (events ++ [.processInbound now]) s' := by
  have hinv := h.job
  rw [hjob] at hinv
  obtain ⟨sas, hsas, -⟩ := SaMgr.does_step createAead h.sas.ok (.checkin 0 sa)
  have hsasInv := h.sas.step hsas (fun hne => absurd rfl hne) nofun
  have hthread := SaMgr.threads_checkin hsas
  have hidle : Holds s.sas sa → Idle sas := by
    rintro ⟨result, hholds⟩
    rw [hholds, Finset.erase_singleton] at hthread
    exact ⟨result, hthread⟩
  cases reqid with
  | none =>
    have hstep : s.processInbound createAead now = some ({ s with sas := sas }.drop packet) := by
      simp [State.processInbound, hjob, hsas]
    exact ⟨_, hstep, h.drop (by rw [hjob]; rfl) hstep hsasInv (hidle hinv)⟩
  | some reqid =>
    have hstep : s.processInbound createAead now =
        some { s with sas := sas, job := .policy packet reqid } := by
      simp [State.processInbound, hjob, hsas]
    refine ⟨_, hstep, h.next hstep hsasInv rfl h.nodup (fun _ => ⟨hidle hinv.1, hinv.2⟩) h.delivered
      (.map _ ?_)⟩
    simp [State.packets, hjob, Job.packet]

/-- **The policy that is found permits the packet.** -/
theorem permitted_of_findByPacket (h : Inv createAead spiHash events s)
    {ip : IpPacket} {reqid : U32} {policy : Policy} (hip : packet.payload = some ip)
    (hnext : packet.nextHeader = IPPROTO_IPIP ∨ packet.nextHeader = IPPROTO_IPV6)
    (hpolicy : s.policies.mgr.findByPacket ip true reqid = some policy)
    (haccepted : Once (system createAead spiHash) (Accepted createAead spiHash packet reqid) events s) :
    Permitted createAead spiHash packet events s := by
  obtain ⟨e, hfind, rfl⟩ := Option.map_eq_some_iff.mp hpolicy
  have he := List.mem_of_find?_eq_some hfind
  have happlies := List.find?_some hfind
  obtain ⟨calls, hinv⟩ := h.policies
  obtain ⟨args, -, heq⟩ := hinv.created e he
  have hprotocol : e.policy.protocol = umax e.policy.srcTs.protocol e.policy.dstTs.protocol := by
    rw [heq]
    rfl
  simp only [PolicyMgr.applies, Bool.and_eq_true, Bool.or_eq_true, decide_eq_true_eq] at happlies
  obtain ⟨⟨hdirection, hmatch⟩, hreqid⟩ := happlies
  refine ⟨ip, reqid, e.policy, hip, hnext, ⟨e, he, rfl⟩, of_decide_eq_true hdirection.symm,
    fun hne => (hreqid.resolve_left hne).symm, selects_of_matchPacket hprotocol hmatch, haccepted⟩

theorem inv_policy (h : Inv createAead spiHash events s) {reqid : U32}
    (hjob : s.job = .policy packet reqid) (now : U64) :
    ∃ s', s.processInbound createAead now = some s' ∧
      Inv createAead spiHash (events ++ [.processInbound now]) s' := by
  obtain ⟨hidle, hpayload, haccepted⟩ : Idle s.sas ∧ packet.payload ≠ none ∧
      Once (system createAead spiHash) (Accepted createAead spiHash packet reqid) events s := by
    have := h.job
    rwa [hjob] at this
  have hpacket : s.job.packet = some packet := by rw [hjob]; rfl
  obtain ⟨ip, hip⟩ := Option.ne_none_iff_exists'.mp hpayload
  by_cases hnext : packet.nextHeader = IPPROTO_IPIP ∨ packet.nextHeader = IPPROTO_IPV6
  · cases hpolicy : s.policies.mgr.findByPacket ip true reqid with
    | none =>
      have hstep : s.processInbound createAead now = some (s.drop packet) := by
        simp [State.processInbound, hjob, hnext, hip, hpolicy]
      exact ⟨_, hstep, h.drop hpacket hstep h.sas hidle⟩
    | some policy =>
      have hstep : s.processInbound createAead now = some { s with job := .deliver packet } := by
        simp [State.processInbound, hjob, hnext, hip, hpolicy]
      refine ⟨_, hstep, h.next hstep h.sas rfl h.nodup (fun _ => ⟨hidle, .now h.run ?_⟩) h.delivered
        (.map _ ?_)⟩
      · exact permitted_of_findByPacket h hip hnext hpolicy haccepted
      · simp [State.packets, hjob, Job.packet]
  · have hstep : s.processInbound createAead now = some (s.drop packet) := by
      simp [State.processInbound, hjob, hnext]
    exact ⟨_, hstep, h.drop hpacket hstep h.sas hidle⟩

theorem inv_deliver (h : Inv createAead spiHash events s)
    (hjob : s.job = .deliver packet) (now : U64) :
    ∃ s', s.processInbound createAead now = some s' ∧
      Inv createAead spiHash (events ++ [.processInbound now]) s' := by
  obtain ⟨hidle, hpermitted⟩ : Idle s.sas ∧
      Once (system createAead spiHash) (Permitted createAead spiHash packet) events s := by
    have := h.job
    rwa [hjob] at this
  have hpacket : s.job.packet = some packet := by rw [hjob]; rfl
  cases hinbound : s.inbound with
  | none =>
    have hstep : s.processInbound createAead now = some (s.drop packet) := by
      simp [State.processInbound, hjob, hinbound]
    exact ⟨_, hstep, h.drop hpacket hstep h.sas hidle⟩
  | some cb =>
    have hstep : s.processInbound createAead now =
        some { s with job := .dequeue, delivered := packet :: s.delivered } := by
      simp [State.processInbound, hjob, hinbound]
    refine ⟨_, hstep, h.next hstep h.sas rfl h.nodup (fun _ => hidle) (fun p hp => ?_) (.map _ ?_)⟩
    · obtain rfl | hp := List.mem_cons.mp hp
      · exact hpermitted
      · exact h.delivered p hp
    · rw [packets_of_packet hpacket]
      simpa [State.packets, Job.packet] using List.perm_middle.append_left _

/-- **A step of the job keeps the invariant.** -/
theorem inv_processInbound (h : Inv createAead spiHash events s) (now : U64) :
    ∃ s', s.processInbound createAead now = some s' ∧
      Inv createAead spiHash (events ++ [.processInbound now]) s' := by
  cases hjob : s.job with
  | dequeue => exact inv_dequeue h hjob now
  | checkout packet spi => exact inv_checkout h hjob now
  | checkedOut packet spi => exact inv_checkedOut h hjob now
  | usestats packet sa => exact inv_usestats h hjob now
  | checkin packet sa reqid => exact inv_checkin h hjob now
  | policy packet reqid => exact inv_policy h hjob now
  | deliver packet => exact inv_deliver h hjob now

/-- An event after which the job, the log and all packets are where they were, but for the queue. -/
theorem Inv.others (h : Inv createAead spiHash events s) {event : Event}
    (hstep : s.step createAead event = some s') (hsas : SasInv s'.sas s.authenticated)
    (hpolicies : ∃ calls, PolicyMgr.Inv calls s'.policies)
    (hsame : s'.job = s.job ∧ s'.authenticated = s.authenticated ∧ s'.delivered = s.delivered)
    (hthread : s'.sas.threads 0 = s.sas.threads 0)
    (hkept : ∀ k e', (s.sas.threads 0).Uses k → s'.sas.mgr.entries k = some e' →
      ∃ e, s.sas.mgr.entries k = some e ∧ e'.sa.inbound = e.sa.inbound ∧ e'.sa.reqid = e.sa.reqid)
    (haccounted : ((queued (events ++ [event])).map EspPacket.data).Perm
      (s'.packets.map EspPacket.data)) :
    Inv createAead spiHash (events ++ [event]) s' := by
  obtain ⟨hjob, hauthenticated, hdelivered⟩ := hsame
  have hlast : (system createAead spiHash).step s event s' := hstep
  obtain ⟨s₀, hs₀, hsteps⟩ := h.run
  refine ⟨⟨s₀, hs₀, hsteps.snoc hlast⟩, hauthenticated ▸ hsas, hpolicies, hauthenticated ▸ h.nodup,
    ?_, fun packet hp => ?_, haccounted⟩
  · rw [hjob]
    exact h.job.frame hthread hkept (fun _ _ h => h.snoc hlast) (fun _ _ h => h.snoc hlast)
      fun _ h => h.snoc hlast
  · rw [hdelivered] at hp
    exact (h.delivered packet hp).snoc hlast

theorem thread_of_others {event : SaMgr.Event} (h : Others event = true) : event.thread ≠ 0 := by
  cases event with
  | call t call =>
    cases call with
    | checkoutByReqid reqid inbound => exact of_decide_eq_true (Bool.and_eq_true_iff.mp h).1
    | checkoutBySpi spi dst => cases h
    | _ => exact of_decide_eq_true h
  | _ => exact of_decide_eq_true h

/-- **Every step keeps the invariant**, and none is undefined. -/
theorem inv_step (h : Inv createAead spiHash events s) (event : Event) :
    ∃ s', s.step createAead event = some s' ∧ Inv createAead spiHash (events ++ [event]) s' := by
  have hqueued : ∀ {event}, queued [event] = [] → ((queued (events ++ [event])).map
      EspPacket.data).Perm (s.packets.map EspPacket.data) := by
    intro event hnone
    rw [queued, List.filterMap_append, ← queued, ← queued, hnone, List.append_nil]
    exact h.accounted
  have hsame : ∀ k e', (s.sas.threads 0).Uses k → s.sas.mgr.entries k = some e' →
      ∃ e, s.sas.mgr.entries k = some e ∧ e'.sa.inbound = e.sa.inbound ∧ e'.sa.reqid = e.sa.reqid :=
    fun k e' _ he' => ⟨e', he', rfl, rfl⟩
  cases event with
  | sas event =>
    by_cases hothers : Others event = true
    · obtain ⟨sas, hsas, -⟩ := SaMgr.does_step createAead h.sas.ok event
      have hne := thread_of_others hothers
      have hstep : s.step createAead (.sas event) = some { s with sas := sas } := by
        simp [State.step, hothers, hsas]
      refine ⟨_, hstep, h.others hstep ?_ h.policies ⟨rfl, rfl, rfl⟩
        (SaMgr.threads_step hsas hne.symm) (fun k e' => kept_step h.sas.ok hsas) (hqueued rfl)⟩
      refine h.sas.step hsas (fun _ => hothers) fun t k context heq hzero => ?_
      subst heq
      exact hne hzero
    · have hstep : s.step createAead (.sas event) = some s := by simp [State.step, hothers]
      exact ⟨_, hstep, h.others hstep h.sas h.policies ⟨rfl, rfl, rfl⟩ rfl hsame (hqueued rfl)⟩
  | policies event =>
    obtain ⟨calls, hcalls⟩ := h.policies
    exact ⟨_, rfl, h.others rfl h.sas ⟨_, PolicyMgr.inv_step hcalls event⟩ ⟨rfl, rfl, rfl⟩ rfl hsame
      (hqueued rfl)⟩
  | queueInbound packet =>
    refine ⟨_, rfl, h.others rfl h.sas h.policies ⟨rfl, rfl, rfl⟩ rfl hsame ?_⟩
    have hpackets : State.packets { s with inboundQueue := s.inboundQueue ++ [packet] } =
        s.inboundQueue ++ packet :: (s.job.packet.toList ++ s.dropped ++ s.delivered) := by
      simp [State.packets]
    rw [hpackets, queued, List.filterMap_append, ← queued, List.map_append, List.map_append,
      List.map_cons]
    refine .trans (List.perm_append_comm) (.trans (.cons _ ?_) List.perm_middle.symm)
    simpa [State.packets] using h.accounted
  | registerInbound cb =>
    exact ⟨_, rfl, h.others rfl h.sas h.policies ⟨rfl, rfl, rfl⟩ rfl hsame (hqueued rfl)⟩
  | unregisterInbound cb =>
    refine ⟨_, rfl, ?_⟩
    split_ifs with hcb
    · refine h.others ?_ h.sas h.policies ⟨rfl, rfl, rfl⟩ rfl hsame (hqueued rfl)
      exact congrArg some (if_pos hcb)
    · refine h.others ?_ h.sas h.policies ⟨rfl, rfl, rfl⟩ rfl hsame (hqueued rfl)
      exact congrArg some (if_neg hcb)
  | processInbound now => exact inv_processInbound h now

theorem inv_init : Inv createAead spiHash [] (State.init spiHash) where
  run := ⟨_, rfl, .refl⟩
  sas := ⟨fun k => Handover.ok_init k, nofun, nofun, nofun⟩
  policies := ⟨_, PolicyMgr.inv_create⟩
  nodup := .nil
  job := ⟨_, rfl⟩
  delivered := nofun
  accounted := .refl _

theorem inv_run (h : LTS.Run (system createAead spiHash) events s) :
    Inv createAead spiHash events s := by
  refine h.history (I := Inv createAead spiHash) ?_ fun {events s event s'} hinv hstep => ?_
  · rintro _ rfl
    exact inv_init
  · obtain ⟨s₁, hs₁, hnext⟩ := inv_step hinv event
    obtain rfl := Option.some.inj (hs₁.symm.trans hstep)
    exact hnext

/-! ## The guarantee -/

def Job.held (pc : Pc) : Job → Finset ℕ
  | checkedOut _ _ => pc.checkedOut
  | usestats _ sa | checkin _ sa _ => {sa}
  | _ => ∅

theorem JobInv.held {got : EspPacket → ℕ → Prop} {accepted : EspPacket → U32 → Prop}
    {permitted : EspPacket → Prop} {job : Job} (h : JobInv sas got accepted permitted job) :
    (sas.threads 0).held = job.held (sas.threads 0).pc := by
  cases job with
  | dequeue =>
    obtain ⟨result, hthread⟩ := h
    rw [hthread]
    rfl
  | checkout packet spi =>
    obtain ⟨⟨result, hthread⟩, -⟩ := h
    rw [hthread]
    rfl
  | checkedOut packet spi =>
    cases h.2 with
    | got hthread _ | waits hthread _ | failed hthread =>
      rw [hthread]
      rfl
  | usestats packet sa =>
    obtain ⟨⟨result, hthread⟩, -⟩ := h
    rw [hthread]
    rfl
  | checkin packet sa reqid =>
    have hholds : Holds sas sa := by
      cases reqid with
      | none => exact h
      | some reqid => exact h.1
    obtain ⟨result, hthread⟩ := hholds
    rw [hthread]
    rfl
  | policy packet reqid =>
    obtain ⟨⟨result, hthread⟩, -⟩ := h
    rw [hthread]
    rfl
  | deliver packet =>
    obtain ⟨⟨result, hthread⟩, -⟩ := h
    rw [hthread]
    rfl

end Processor

end StrongSwan
