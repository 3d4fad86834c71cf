import StrongSwan.Selectors.TrafficSelector
import StrongSwan.Lib.Narrowing

/-!
# Narrowing is intersection

A selector stands for the traffic it selects: addresses as numbers, protocols, and ports, where
"opaque" is a port of its own.

* `denote`: the traffic of a selector. `Static`: the selectors it is meant for; `Plain`: also those of ICMP
  types and codes.
* `mem_ports_inter`, `mem_addresses_inter`: ports and addresses of a subset.
* `exact_getSubset`: `getSubset` narrows exactly. `equals_of_denote_eq`: selectors of the same
  traffic are equal.
* **`getSubset_exact`**: both, with the algebraic laws of `getSubset` that follow.
-/

namespace StrongSwan

namespace TrafficSelector

open Narrowing

/-! ## Traffic -/

/-- The port of a packet, or the port of a packet that does not show it. -/
inductive Port
  | number (n : U16)
  | hidden
  deriving DecidableEq, Repr

/-- One end of a packet: its address with the family, its protocol and its port. -/
structure Traffic where
  type : TsType
  address : ℕ
  protocol : U8
  port : Port
  deriving DecidableEq, Repr

/-- The addresses from one to another. -/
def addresses (from_ to_ : Chunk) : Set ℕ := Set.Icc (Bytes.value from_) (Bytes.value to_)

/-- Protocol `0` is any protocol. -/
def protocols (protocol : U8) : Set U8 := {q | protocol = 0 ∨ q = protocol}

/-- The numbers of a range, and the hidden port for "opaque" (65535 to 0) and "any" (0 to 65535). -/
def ports (fromPort toPort : U16) : Set Port := {p | match p with
  | .number n => fromPort.toNat ≤ n.toNat ∧ n.toNat ≤ toPort.toNat
  | .hidden => (fromPort = 0xffff ∧ toPort = 0) ∨ (fromPort = 0 ∧ toPort = 0xffff)}

/-- The traffic a selector selects. -/
def denote (ts : TrafficSelector) : Set Traffic := {t | t.type = ts.type ∧
  t.address ∈ addresses ts.from_ ts.to_ ∧ t.protocol ∈ protocols ts.protocol ∧
  t.port ∈ ports ts.fromPort ts.toPort}

/-- The port range is ordered or "opaque". -/
def PortsValid (fromPort toPort : U16) : Prop :=
  fromPort.toNat ≤ toPort.toNat ∨ (fromPort = 0xffff ∧ toPort = 0)

/-- A selector that is not dynamic nor one of ICMP types and codes, with ordered ranges. -/
structure Static (ts : TrafficSelector) : Prop where
  dynamic : ts.dynamic = false
  addresses : Bytes.value ts.from_ ≤ Bytes.value ts.to_
  ports : PortsValid ts.fromPort ts.toPort
  icmp : ts.protocol ≠ IPPROTO_ICMP
  icmpv6 : ts.protocol ≠ IPPROTO_ICMPV6

/-- A selector that is not dynamic, with ordered ranges. -/
structure Plain (ts : TrafficSelector) : Prop where
  dynamic : ts.dynamic = false
  addresses : Bytes.value ts.from_ ≤ Bytes.value ts.to_
  ports : PortsValid ts.fromPort ts.toPort

theorem Static.plain {ts : TrafficSelector} (h : ts.Static) : ts.Plain := ⟨h.dynamic, h.addresses, h.ports⟩

def KeepsPorts (a b : TrafficSelector) : Prop :=
  (a.getSubset b).isSome = true → ∀ r, a.subsetPorts b = some r →
    storedPort (umax a.protocol b.protocol) r.1 = r.1 ∧ storedPort (umax a.protocol b.protocol) r.2 = r.2

/-! ## Ports and protocols -/

section Ports

variable {a b : TrafficSelector}

theorem isOpaque_iff : a.isOpaque = true ↔ a.fromPort = 0xffff ∧ a.toPort = 0 := by
  simp [isOpaque]

theorem isAny_iff : a.isAny = true ↔ a.fromPort = 0 ∧ a.toPort = 0xffff := by
  simp [isAny]

/-- **The ports of a subset** are the common ones. -/
theorem mem_ports_inter (p : Port) :
    (p ∈ ports a.fromPort a.toPort ∧ p ∈ ports b.fromPort b.toPort) ↔
      ∃ r, a.subsetPorts b = some r ∧ p ∈ ports r.1 r.2 := by
  unfold subsetPorts
  by_cases hop : ((a.isOpaque && b.isOpaque) || (a.isOpaque && b.isAny) ||
      (b.isOpaque && a.isAny)) = true
  · -- one of them is "opaque", the other one "opaque" or "any"
    rw [if_pos hop]
    simp only [Bool.or_eq_true, Bool.and_eq_true, isOpaque_iff, isAny_iff] at hop
    simp only [Option.some.injEq, exists_eq_left']
    cases p with
    | number n =>
      simp only [ports, Set.mem_ofPred_eq]
      bv_omega
    | hidden =>
      simp only [ports, Set.mem_ofPred_eq]
      tauto
  · rw [if_neg hop]
    simp only [Bool.or_eq_true, Bool.and_eq_true, isOpaque_iff, isAny_iff] at hop
    dsimp only
    by_cases hgt : umax a.fromPort b.fromPort > umin a.toPort b.toPort
    · rw [if_pos hgt]
      rw [gt_iff_lt, BitVec.lt_def, toNat_umax, toNat_umin] at hgt
      simp only [reduceCtorEq, false_and, exists_false, iff_false]
      cases p with
      | number n =>
        simp only [ports, Set.mem_ofPred_eq]
        omega
      | hidden =>
        simp only [ports, Set.mem_ofPred_eq]
        bv_omega
    · rw [if_neg hgt]
      rw [gt_iff_lt, BitVec.lt_def, toNat_umax, toNat_umin] at hgt
      simp only [Option.some.injEq, exists_eq_left']
      cases p with
      | number n =>
        simp only [ports, Set.mem_ofPred_eq, toNat_umax, toNat_umin]
        omega
      | hidden =>
        -- neither is "opaque" when the other one has the hidden port
        simp only [ports, Set.mem_ofPred_eq, ← BitVec.toNat_inj, toNat_umax, toNat_umin] at hop ⊢
        constructor
        · rintro ⟨ha | ha, hb | hb⟩
          · exact absurd (.inl (.inl ⟨ha, hb⟩)) hop
          · exact absurd (.inl (.inr ⟨ha, hb⟩)) hop
          · exact absurd (.inr ⟨hb, ha⟩) hop
          · rw [ha.1, ha.2, hb.1, hb.2]
            exact .inr ⟨max_self _, min_self _⟩
        · rintro (h | h)
          · exact absurd (by rw [h.1, h.2]; decide) hgt
          · have hmax := max_le_iff.mp h.1.le
            have hmin := le_min_iff.mp h.2.ge
            bv_omega

theorem portsValid_subsetPorts {r : U16 × U16} (h : a.subsetPorts b = some r) :
    PortsValid r.1 r.2 := by
  unfold subsetPorts at h
  dsimp only at h
  split_ifs at h with hop hgt
  · cases h
    exact .inr ⟨rfl, rfl⟩
  · cases h
    rw [gt_iff_lt, BitVec.lt_def] at hgt
    exact .inl (not_lt.mp hgt)

theorem nonempty_ports {f t : U16} (h : PortsValid f t) : (ports f t).Nonempty := by
  obtain h | h := h
  · exact ⟨.number f, le_rfl, h⟩
  · exact ⟨.hidden, .inl h⟩

theorem ports_inj {f t f' t' : U16} (h : PortsValid f t) (h' : PortsValid f' t')
    (heq : ports f t = ports f' t') : f = f' ∧ t = t' := by
  have hnum : ∀ n : U16, (f.toNat ≤ n.toNat ∧ n.toNat ≤ t.toNat) ↔
      (f'.toNat ≤ n.toNat ∧ n.toNat ≤ t'.toNat) := fun n => Set.ext_iff.mp heq (.number n)
  have hhidden : ((f = 0xffff ∧ t = 0) ∨ (f = 0 ∧ t = 0xffff)) ↔
      ((f' = 0xffff ∧ t' = 0) ∨ (f' = 0 ∧ t' = 0xffff)) := Set.ext_iff.mp heq .hidden
  have h₁ := hnum f
  have h₂ := hnum t
  have h₃ := hnum f'
  have h₄ := hnum t'
  unfold PortsValid at h h'
  bv_omega

/-- **The protocols of a subset** are the common ones. -/
theorem mem_protocols_inter {p q : U8} (h : ¬ (p ≠ q ∧ p ≠ 0 ∧ q ≠ 0)) (x : U8) :
    (x ∈ protocols p ∧ x ∈ protocols q) ↔ x ∈ protocols (umax p q) := by
  simp only [protocols, Set.mem_ofPred_eq, umax]
  split_ifs <;> bv_omega

theorem protocols_inj {p q : U8} (h : protocols p = protocols q) : p = q := by
  have hmem : ∀ x : U8, (p = 0 ∨ x = p) ↔ (q = 0 ∨ x = q) := Set.ext_iff.mp h
  have h₁ := hmem p
  have h₂ := hmem q
  simp only [or_true, true_iff, iff_true] at h₁ h₂
  bv_omega

end Ports

/-! ## Addresses -/

section Addresses

theorem mem_addresses_inter {f f' t t' : Chunk} (hf : f.length = f'.length)
    (ht : t.length = t'.length) (x : ℕ) :
    (x ∈ addresses f t ∧ x ∈ addresses f' t') ↔
      x ∈ addresses (if Bytes.lexCmp f f' = .gt then f else f')
        (if Bytes.lexCmp t t' = .gt then t' else t) := by
  simp only [Bytes.lexCmp_eq_compare hf, Bytes.lexCmp_eq_compare ht, compare_gt_iff_gt, addresses,
    Set.mem_Icc]
  split_ifs <;> omega

theorem addresses_inj {f f' t t' : Chunk} (hf : f.length = f'.length) (ht : t.length = t'.length)
    (hle : Bytes.value f ≤ Bytes.value t) (hle' : Bytes.value f' ≤ Bytes.value t')
    (heq : addresses f t = addresses f' t') : f = f' ∧ t = t' := by
  have hmem : ∀ x, (Bytes.value f ≤ x ∧ x ≤ Bytes.value t) ↔
      (Bytes.value f' ≤ x ∧ x ≤ Bytes.value t') := Set.ext_iff.mp heq
  have h₁ := hmem (Bytes.value f)
  have h₂ := hmem (Bytes.value t)
  have h₃ := hmem (Bytes.value f')
  have h₄ := hmem (Bytes.value t')
  exact ⟨(Bytes.value_inj hf).mp (by omega), (Bytes.value_inj ht).mp (by omega)⟩

end Addresses

/-! ## Exactness -/

section Exact

variable {a b c : TrafficSelector}

theorem Plain.nonempty (h : a.Plain) : a.denote.Nonempty := by
  obtain ⟨p, hp⟩ := nonempty_ports h.ports
  exact ⟨⟨a.type, Bytes.value a.from_, a.protocol, p⟩, rfl, ⟨le_rfl, h.addresses⟩, .inr rfl, hp⟩

theorem storedPort_of_ne {protocol : U8} (h₁ : protocol ≠ IPPROTO_ICMP)
    (h₂ : protocol ≠ IPPROTO_ICMPV6) (port : U16) : storedPort protocol port = port := by
  rw [storedPort, if_neg (by tauto)]

theorem umax_ne {p q x : U8} (hp : p ≠ x) (hq : q ≠ x) : umax p q ≠ x := by
  unfold umax
  split_ifs
  · exact hp
  · exact hq

theorem Static.keepsPorts (ha : a.Static) (hb : b.Static) : KeepsPorts a b := fun _ _ _ =>
  ⟨storedPort_of_ne (umax_ne ha.icmp hb.icmp) (umax_ne ha.icmpv6 hb.icmpv6) _,
    storedPort_of_ne (umax_ne ha.icmp hb.icmp) (umax_ne ha.icmpv6 hb.icmpv6) _⟩

/-- **What `get_subset` returns**: a selector of the common traffic, if there is any. -/
theorem getSubset_plain (ha : a.Plain) (hb : b.Plain) (hkeeps : KeepsPorts a b) :
    (a.getSubset b = none ∧ a.denote ∩ b.denote = ∅) ∨
      ∃ c, a.getSubset b = some c ∧ c.Plain ∧ c.protocol = umax a.protocol b.protocol ∧
        c.denote = a.denote ∩ b.denote := by
  have hstatic : ¬ (a.dynamic || b.dynamic) = true := by simp [ha.dynamic, hb.dynamic]
  unfold getSubset
  rw [if_neg (by simp [ha.dynamic, hb.dynamic])]
  split_ifs with htype hprotocol
  · left
    refine ⟨rfl, Set.eq_empty_iff_forall_notMem.mpr ?_⟩
    rintro t ⟨⟨hta, -⟩, htb, -⟩
    exact htype (hta.symm.trans htb)
  · left
    refine ⟨rfl, Set.eq_empty_iff_forall_notMem.mpr ?_⟩
    rintro t ⟨⟨-, -, hta, -⟩, -, -, htb, -⟩
    simp only [protocols, Set.mem_ofPred_eq] at hta htb
    obtain ⟨hne, hp, hq⟩ := hprotocol
    exact hne ((hta.resolve_left hp).symm.trans (htb.resolve_left hq))
  · have heq : a.type = b.type := not_not.mp htype
    have hlen : ∀ {x : Chunk}, x.length = b.type.len → x.length = a.type.len := by
      intro x hx
      rw [hx, heq]
    have hfrom : a.from_.length = b.from_.length := a.length_from.trans (hlen b.length_from).symm
    have hto : a.to_.length = b.to_.length := a.length_to.trans (hlen b.length_to).symm
    have haddr := mem_addresses_inter hfrom hto
    have hports := mem_ports_inter (a := a) (b := b)
    cases hr : a.subsetPorts b with
    | none =>
      left
      refine ⟨rfl, Set.eq_empty_iff_forall_notMem.mpr ?_⟩
      rintro t ⟨⟨-, -, -, hta⟩, -, -, -, htb⟩
      obtain ⟨r, hr', -⟩ := (hports t.port).mp ⟨hta, htb⟩
      rw [hr] at hr'
      cases hr'
    | some r =>
      dsimp only
      set from_ := if Bytes.lexCmp a.from_ b.from_ = .gt then a.from_ else b.from_ with hfrom_
      set to_ := if Bytes.lexCmp a.to_ b.to_ = .gt then b.to_ else a.to_ with hto_
      have hlen' : from_.length = to_.length := by
        have h₁ : from_.length = a.type.len := by
          rw [hfrom_]
          split_ifs
          · exact a.length_from
          · exact hlen b.length_from
        have h₂ : to_.length = a.type.len := by
          rw [hto_]
          split_ifs
          · exact hlen b.length_to
          · exact a.length_to
        rw [h₁, h₂]
      by_cases hgt : Bytes.lexCmp from_ to_ = .gt
      · rw [if_pos hgt]
        left
        refine ⟨rfl, Set.eq_empty_iff_forall_notMem.mpr ?_⟩
        rintro t ⟨⟨-, hta, -⟩, -, htb, -⟩
        have hmem := (haddr t.address).mp ⟨hta, htb⟩
        rw [Bytes.lexCmp_eq_compare hlen', compare_gt_iff_gt] at hgt
        exact absurd (hmem.1.trans hmem.2) (not_le.mpr hgt)
      · rw [if_neg hgt]
        right
        have hle := hgt
        rw [Bytes.lexCmp_eq_compare hlen', compare_gt_iff_gt, not_lt] at hgt
        obtain ⟨hkeepFrom, hkeepTo⟩ := hkeeps (by
          unfold getSubset
          rw [if_neg hstatic, dif_neg htype, if_neg hprotocol, hr]
          dsimp only
          rw [if_neg hle]
          rfl) r hr
        refine ⟨_, rfl, ⟨rfl, hgt, ?_⟩, rfl, ?_⟩
        · change PortsValid (storedPort _ _) (storedPort _ _)
          rw [hkeepFrom, hkeepTo]
          exact portsValid_subsetPorts hr
        · ext t
          have hport := hports t.port
          rw [hr] at hport
          simp only [Option.some.injEq, exists_eq_left'] at hport
          rw [← hkeepFrom, ← hkeepTo] at hport
          have hprot := mem_protocols_inter hprotocol t.protocol
          have haddr := haddr t.address
          constructor
          · rintro ⟨ht, hx, hq, hp⟩
            exact ⟨⟨ht, (haddr.mpr hx).1, (hprot.mpr hq).1, (hport.mpr hp).1⟩,
              ht.trans heq, (haddr.mpr hx).2, (hprot.mpr hq).2, (hport.mpr hp).2⟩
          · rintro ⟨⟨ht, hx, hq, hp⟩, -, hx', hq', hp'⟩
            exact ⟨ht, haddr.mp ⟨hx, hx'⟩, hprot.mp ⟨hq, hq'⟩, hport.mp ⟨hp, hp'⟩⟩

theorem getSubset_spec (ha : a.Static) (hb : b.Static) :
    (a.getSubset b = none ∧ a.denote ∩ b.denote = ∅) ∨
      ∃ c, a.getSubset b = some c ∧ c.Static ∧ c.denote = a.denote ∩ b.denote := by
  obtain hnone | ⟨c, hc, hplain, hprotocol, hdenote⟩ :=
    getSubset_plain ha.plain hb.plain (ha.keepsPorts hb)
  · exact .inl hnone
  · exact .inr ⟨c, hc, ⟨hplain.dynamic, hplain.addresses, hplain.ports,
      hprotocol ▸ umax_ne ha.icmp hb.icmp, hprotocol ▸ umax_ne ha.icmpv6 hb.icmpv6⟩, hdenote⟩

/-- **`get_subset` narrows exactly.** -/
theorem exact_getSubset : Exact Static denote getSubset where
  nonempty := fun h => h.plain.nonempty
  closed := by
    intro a b c ha hb hc
    obtain ⟨hnone, -⟩ | ⟨d, hd, hstatic, -⟩ := getSubset_spec ha hb
    · rw [hnone] at hc
      cases hc
    · rw [hd] at hc
      cases hc
      exact hstatic
  inter := by
    intro a b ha hb
    obtain ⟨hnone, hempty⟩ | ⟨d, hd, -, heq⟩ := getSubset_spec ha hb
    · rw [hnone, hempty]
      rfl
    · rw [hd, ← heq]
      rfl

/-- **Selectors of the same traffic are equal.** -/
theorem equals_of_denote_eq (ha : a.Plain) (hb : b.Plain) (h : a.denote = b.denote) :
    a.equals b = true := by
  obtain ⟨t, ht⟩ := ha.nonempty
  have htype : a.type = b.type := ht.1.symm.trans (h ▸ ht : t ∈ b.denote).1
  -- in each component, all values next to fixed other ones
  have hmem : ∀ x q p, (x ∈ addresses a.from_ a.to_ ∧ q ∈ protocols a.protocol ∧
      p ∈ ports a.fromPort a.toPort) ↔ (x ∈ addresses b.from_ b.to_ ∧ q ∈ protocols b.protocol ∧
      p ∈ ports b.fromPort b.toPort) := by
    intro x q p
    have := Set.ext_iff.mp h ⟨a.type, x, q, p⟩
    simpa only [denote, Set.mem_ofPred_eq, true_and, ← htype] using this
  obtain ⟨-, hx, hq, hp⟩ := ht
  obtain ⟨hx', hq', hp'⟩ := (hmem _ _ _).mp ⟨hx, hq, hp⟩
  have haddr : addresses a.from_ a.to_ = addresses b.from_ b.to_ := by
    ext x
    exact ⟨fun h => ((hmem x _ _).mp ⟨h, hq, hp⟩).1, fun h => ((hmem x _ _).mpr ⟨h, hq', hp'⟩).1⟩
  have hprot : protocols a.protocol = protocols b.protocol := by
    ext q
    exact ⟨fun h => ((hmem _ q _).mp ⟨hx, h, hp⟩).2.1,
      fun h => ((hmem _ q _).mpr ⟨hx', h, hp'⟩).2.1⟩
  have hport : ports a.fromPort a.toPort = ports b.fromPort b.toPort := by
    ext p
    exact ⟨fun h => ((hmem _ _ p).mp ⟨hx, hq, h⟩).2.2,
      fun h => ((hmem _ _ p).mpr ⟨hx', hq', h⟩).2.2⟩
  have hlen : ∀ {x y : Chunk}, x.length = a.type.len → y.length = b.type.len →
      x.length = y.length := by
    intro x y hx hy
    rw [hx, hy, htype]
  obtain ⟨hf, ht⟩ := addresses_inj (hlen a.length_from b.length_from)
    (hlen a.length_to b.length_to) ha.addresses hb.addresses haddr
  obtain ⟨hfp, htp⟩ := ports_inj ha.ports hb.ports hport
  simp [equals, trafficSelectorCmp, compareInt, htype, hf, ht, protocols_inj hprot, hfp, htp,
    Bytes.lexCmp_eq_compare]

theorem equals_of_same {x y : Option TrafficSelector} (h : Same Static denote x y) :
    Option.Rel (fun a b => a.equals b = true) x y := by
  cases h with
  | none => exact .none
  | some h => exact .some (equals_of_denote_eq h.1.plain h.2.1.plain h.2.2)

/-- **Narrowing is exact intersection.** `get_subset` returns nothing exactly for disjoint traffic,
else a selector of the common traffic; so, up to `equals`, it is commutative, associative and
idempotent. -/
theorem getSubset_exact (ha : a.Static) (hb : b.Static) (hc : c.Static) :
    (a.getSubset b = none ↔ a.type ≠ b.type ∨ Disjoint a.denote b.denote) ∧
      (∀ d, a.getSubset b = some d → d.Static ∧ d.denote = a.denote ∩ b.denote) ∧
      Option.Rel (fun x y => x.equals y = true) (a.getSubset b) (b.getSubset a) ∧
      Option.Rel (fun x y => x.equals y = true) ((a.getSubset b).bind fun d => d.getSubset c)
        ((b.getSubset c).bind fun d => a.getSubset d) ∧
      Option.Rel (fun x y => x.equals y = true) (a.getSubset a) (some a) := by
  have h := exact_getSubset
  have hdisj : a.type ≠ b.type → Disjoint a.denote b.denote := by
    intro htype
    rw [Set.disjoint_left]
    rintro t ⟨hta, -⟩ ⟨htb, -⟩
    exact htype (hta.symm.trans htb)
  refine ⟨?_, fun d hd => ⟨h.closed ha hb hd, h.denote_eq ha hb hd⟩, ?_, ?_, ?_⟩
  · rw [h.eq_none_iff ha hb]
    exact ⟨.inr, fun h => h.elim hdisj id⟩
  · exact equals_of_same (h.comm ha hb)
  · exact equals_of_same (h.assoc ha hb hc)
  · exact equals_of_same (h.idem ha)

/-- `10.0.0.0/8` with any port, `10.1.0.0/16` with TCP ports up to 1023, and the latter with
"opaque" ports: the last two have no common traffic. -/
theorem getSubset_exact_ten :
    let ts := fun (protocol : U8) (second last : U8) (fromPort toPort : U16) =>
      create protocol .ipv4AddrRange [10, second, 0, 0] fromPort [10, last, 255, 255] toPort rfl rfl
    (ts 6 1 1 0 1023).getSubset (ts 6 1 1 0xffff 0) = none ∧
      ∀ d, (ts 0 0 255 0 0xffff).getSubset (ts 6 1 1 0 1023) = some d →
        d.denote = (ts 0 0 255 0 0xffff).denote ∩ (ts 6 1 1 0 1023).denote := by
  intro ts
  have hany : (ts 0 0 255 0 0xffff).Static :=
    ⟨rfl, by decide, .inl (by decide), by decide, by decide⟩
  have htcp : (ts 6 1 1 0 1023).Static :=
    ⟨rfl, by decide, .inl (by decide), by decide, by decide⟩
  have hhidden : (ts 6 1 1 0xffff 0).Static :=
    ⟨rfl, by decide, .inr ⟨rfl, rfl⟩, by decide, by decide⟩
  refine ⟨(getSubset_exact htcp hhidden hany).1.mpr (.inr ?_),
    fun d hd => ((getSubset_exact hany htcp hhidden).2.1 d hd).2⟩
  rw [Set.disjoint_left]
  rintro ⟨type, address, protocol, p⟩ ⟨-, -, -, hp⟩ ⟨-, -, -, hp'⟩
  cases p with
  | number n =>
    have : (0xffff : U16).toNat ≤ n.toNat ∧ n.toNat ≤ (0 : U16).toNat := hp'
    bv_omega
  | hidden =>
    have : ((0 : U16) = 0xffff ∧ (1023 : U16) = 0) ∨ ((0 : U16) = 0 ∧ (1023 : U16) = 0xffff) := hp
    revert this
    decide

end Exact

end TrafficSelector

end StrongSwan
