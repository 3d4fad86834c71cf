import StrongSwan.Selectors.Icmp

/-!
# Traffic selectors on the wire

A traffic selector substructure holds the range of one selector, and a TS payload a list of them. The
receiver verifies the payload and builds its selectors from the values, so ports of ICMP are
converted as in any other constructor.

* `TrafficSelectorSubstructure`, `verify`, `getTrafficSelector`, `createFromTrafficSelector`.
* `TsPayload` with the same operations on lists.
* `Refused`: **`verify_eq_success_iff`**, what `verify` checks.
* `InOrder`, **`validated_exact`**: the accepted substructures whose selectors select something.
* **`wire_exact`**: what becomes of a selector in a substructure, and of a substructure in a selector.
-/

namespace StrongSwan

/-- `ts_type_t` of a byte -/
def TsType.ofU8 (tsType : U8) : Option TsType :=
  if tsType = 7 then some .ipv4AddrRange
  else if tsType = 8 then some .ipv6AddrRange
  else none

/-- The byte of a `ts_type_t`. -/
def TsType.toU8 (type : TsType) : U8 := BitVec.ofNat 8 type.toNat

@[simp] theorem TsType.ofU8_toU8 (type : TsType) : TsType.ofU8 type.toU8 = some type := by
  cases type <;> rfl

theorem TsType.toU8_of_ofU8 {tsType : U8} {type : TsType} (h : TsType.ofU8 tsType = some type) :
    type.toU8 = tsType := by
  unfold TsType.ofU8 at h
  split_ifs at h with h4 h6
  · cases h
    exact h4.symm
  · cases h
    exact h6.symm

structure TrafficSelectorSubstructure where
  tsType : U8
  ipProtocolId : U8
  /-- Length of this payload. -/
  payloadLength : U16
  startPort : U16
  endPort : U16
  startingAddress : Chunk
  endingAddress : Chunk
  deriving DecidableEq, Repr

namespace TrafficSelectorSubstructure

open TrafficSelector

variable {s : TrafficSelectorSubstructure} {ts : TrafficSelector}

/-! ## Substructures -/

def verify (this : TrafficSelectorSubstructure) : Status :=
  -- "opaque" ports are meant to be the only exception
  if this.startPort > this.endPort ∧ this.startPort ≠ 0xffff ∧ this.endPort ≠ 0 then .failed
  else
    match TsType.ofU8 this.tsType with
    | some .ipv4AddrRange =>
      if this.startingAddress.length ≠ 4 ∨ this.endingAddress.length ≠ 4 then .failed else .success
    | some .ipv6AddrRange =>
      if this.startingAddress.length ≠ 16 ∨ this.endingAddress.length ≠ 16 then .failed else .success
    | none => .failed

def getHeaderLength : ℕ := 8

def getLength (this : TrafficSelectorSubstructure) : U16 := this.payloadLength

/-- `get_traffic_selector`; the constructor knows two types. -/
def getTrafficSelector (this : TrafficSelectorSubstructure) : Option TrafficSelector :=
  match TsType.ofU8 this.tsType with
  | some type =>
    createFromBytes this.ipProtocolId type this.startingAddress this.startPort
      this.endingAddress this.endPort
  | none => none

def createFromTrafficSelector (ts : TrafficSelector) : TrafficSelectorSubstructure where
  tsType := ts.type.toU8
  ipProtocolId := ts.protocol
  payloadLength := BitVec.ofNat 16 (getHeaderLength + ts.to_.length + ts.from_.length)
  startPort := ts.fromPort
  endPort := ts.toPort
  startingAddress := ts.from_
  endingAddress := ts.to_

/-! ## What is verified -/

def AddressesMatch (s : TrafficSelectorSubstructure) : Prop :=
  ∃ type, TsType.ofU8 s.tsType = some type ∧ s.startingAddress.length = type.len ∧
    s.endingAddress.length = type.len

/-- The ports are reversed, and neither is one of "opaque" ports. -/
def PortsReversed (s : TrafficSelectorSubstructure) : Prop :=
  s.endPort < s.startPort ∧ s.startPort ≠ 0xffff ∧ s.endPort ≠ 0

theorem verify_eq_success_iff : s.verify = .success ↔ s.AddressesMatch ∧ ¬s.PortsReversed := by
  unfold verify AddressesMatch PortsReversed
  by_cases hports : s.endPort < s.startPort ∧ s.startPort ≠ 0xffff ∧ s.endPort ≠ 0
  · rw [if_pos hports]
    exact ⟨nofun, fun h => absurd hports h.2⟩
  · rw [if_neg hports, and_iff_left hports]
    cases htype : TsType.ofU8 s.tsType with
    | none => simp
    | some type =>
      cases type
      · simp [TsType.len]
      · simp [TsType.len]

/-- **The selector of an accepted substructure** has its addresses and its ports, as the constructor
stores them. -/
theorem getTrafficSelector_of_addressesMatch (h : s.AddressesMatch) :
    ∃ ts, s.getTrafficSelector = some ts ∧ ts.type.toU8 = s.tsType ∧ ts.protocol = s.ipProtocolId ∧
      ts.from_ = s.startingAddress ∧ ts.to_ = s.endingAddress ∧
      ts.fromPort = storedPort s.ipProtocolId s.startPort ∧
      ts.toPort = storedPort s.ipProtocolId s.endPort ∧ ts.dynamic = false ∧
      ts.netbits = (calcNetbits ts.type.len ts.from_ ts.to_).2 := by
  obtain ⟨type, htype, hfrom, hto⟩ := h
  refine ⟨create s.ipProtocolId type s.startingAddress s.startPort s.endingAddress
    s.endPort hfrom hto, ?_, TsType.toU8_of_ofU8 htype, rfl, rfl, rfl, rfl, rfl, rfl, rfl⟩
  unfold getTrafficSelector
  rw [htype]
  exact dif_pos ⟨hfrom.trans hto.symm, hfrom⟩

/-! ## Ordered ranges -/

def IsIcmp (s : TrafficSelectorSubstructure) : Prop :=
  s.ipProtocolId = IPPROTO_ICMP ∨ s.ipProtocolId = IPPROTO_ICMPV6

instance : Decidable s.IsIcmp := inferInstanceAs (Decidable (_ ∨ _))

/-- The addresses are ordered, the ports are too or they are "opaque", and the first port of ICMP is
not moved behind the last one. -/
structure InOrder (s : TrafficSelectorSubstructure) : Prop where
  addresses : Bytes.value s.startingAddress ≤ Bytes.value s.endingAddress
  ports : PortsValid s.startPort s.endPort
  types : s.IsIcmp → s.startPort.toNat < 256 → 256 ≤ s.endPort.toNat →
    256 * s.startPort.toNat ≤ s.endPort.toNat

theorem portsValid_iff {fromPort toPort : U16} : PortsValid fromPort toPort ↔
    fromPort.toNat ≤ toPort.toNat ∨ fromPort.toNat = 65535 ∧ toPort.toNat = 0 := by
  unfold PortsValid
  rw [← BitVec.toNat_inj, ← BitVec.toNat_inj]
  rfl

theorem portsReversed_iff : s.PortsReversed ↔
    s.endPort.toNat < s.startPort.toNat ∧ s.startPort.toNat ≠ 65535 ∧ s.endPort.toNat ≠ 0 := by
  unfold PortsReversed
  rw [BitVec.lt_def, ne_eq, ne_eq, ← BitVec.toNat_inj, ← BitVec.toNat_inj]
  rfl

/-- Stored ports that are not reversed have the order of the ports they were made of, unless a type
passes a type with its code. -/
theorem portsValid_storedPort (h : ¬s.PortsReversed) :
    PortsValid (storedPort s.ipProtocolId s.startPort) (storedPort s.ipProtocolId s.endPort) ↔
      PortsValid s.startPort s.endPort ∧
        (s.IsIcmp → s.startPort.toNat < 256 → 256 ≤ s.endPort.toNat →
          256 * s.startPort.toNat ≤ s.endPort.toNat) := by
  rw [portsReversed_iff] at h
  by_cases hicmp : s.IsIcmp
  · have hstart := s.startPort.isLt
    rw [portsValid_iff, portsValid_iff, toNat_storedPort hicmp, toNat_storedPort hicmp]
    simp only [hicmp, true_imp_iff]
    unfold typeAndCode
    split_ifs <;> omega
  · have hother : ∀ port, storedPort s.ipProtocolId port = port := fun port => if_neg hicmp
    rw [hother, hother, and_iff_left fun hicmp' => absurd hicmp' hicmp]

/-- **A selector selects something** if and only if its substructure is in order. -/
theorem selects_iff (h : s.verify = .success) (hts : s.getTrafficSelector = some ts) :
    ts.Selects ↔ s.InOrder := by
  obtain ⟨haddresses, hreversed⟩ := verify_eq_success_iff.mp h
  obtain ⟨ts', hts', -, -, hfrom, hto, hfromPort, htoPort, -⟩ :=
    getTrafficSelector_of_addressesMatch haddresses
  obtain rfl : ts' = ts := Option.some.inj (hts'.symm.trans hts)
  unfold Selects
  rw [hfrom, hto, hfromPort, htoPort, portsValid_storedPort hreversed]
  exact ⟨fun h => ⟨h.1, h.2.1, h.2.2⟩, fun h => ⟨h.addresses, h.ports, h.types⟩⟩

end TrafficSelectorSubstructure

/-! ## TS payloads -/

structure TsPayload where
  /-- Length of this payload. -/
  payloadLength : U16
  /-- Number of traffic selectors. -/
  tsNum : U8
  isInitiator : Bool
  substrs : List TrafficSelectorSubstructure
  deriving DecidableEq, Repr

namespace TsPayload

open TrafficSelector TrafficSelectorSubstructure

variable {p : TsPayload}

/-- The loop of `verify`: the first status that is no success. -/
def verifySubstrs : List TrafficSelectorSubstructure → Status
  | [] => .success
  | substr :: rest =>
    match substr.verify with
    | .success => verifySubstrs rest
    | status => status

def verify (this : TsPayload) : Status :=
  if this.tsNum.toNat ≠ this.substrs.length then .failed else verifySubstrs this.substrs

/-- `compute_length`: the length of the payload and the number of its selectors. -/
def computeLength (this : TsPayload) : TsPayload :=
  { this with
    payloadLength := this.substrs.foldl (fun length subst => length + subst.getLength) 8
    tsNum := this.substrs.foldl (fun num _ => num + 1) 0 }

/-- `get_traffic_selectors`; the selectors may be `NULL`. -/
def getTrafficSelectors (this : TsPayload) : List (Option TrafficSelector) :=
  this.substrs.map getTrafficSelector

def createFromTrafficSelectors (isInitiator : Bool) (trafficSelectors : List TrafficSelector) :
    TsPayload :=
  computeLength {
    payloadLength := 8
    tsNum := 0
    isInitiator := isInitiator
    substrs := trafficSelectors.map createFromTrafficSelector }

theorem verifySubstrs_eq_success_iff {substrs : List TrafficSelectorSubstructure} :
    verifySubstrs substrs = .success ↔ ∀ s ∈ substrs, s.verify = .success := by
  induction substrs with
  | nil => exact iff_of_true rfl nofun
  | cons s substrs ih =>
    rw [verifySubstrs, List.forall_mem_cons, ← ih]
    cases s.verify <;> simp

theorem verify_substr (h : p.verify = .success) {s : TrafficSelectorSubstructure}
    (hs : s ∈ p.substrs) : s.verify = .success := by
  unfold verify at h
  split_ifs at h
  exact verifySubstrs_eq_success_iff.mp h s hs

theorem getTrafficSelectors_createFromTrafficSelectors (isInitiator : Bool)
    (trafficSelectors : List TrafficSelector) :
    (createFromTrafficSelectors isInitiator trafficSelectors).getTrafficSelectors =
      trafficSelectors.map fun ts => (createFromTrafficSelector ts).getTrafficSelector :=
  List.map_map

end TsPayload

/-! ## Accepted ranges -/

namespace TrafficSelectorSubstructure

open TrafficSelector

variable {s : TrafficSelectorSubstructure} {ts : TrafficSelector}

/-- What `verify` finds: addresses of another type, or reversed ports. -/
def Refused (s : TrafficSelectorSubstructure) : Prop := ¬s.AddressesMatch ∨ s.PortsReversed

/-- An accepted substructure has the addresses of its type, both ranges are ordered or the ports are
"opaque", and so it is in the selector that is made of it. -/
def Validated (s : TrafficSelectorSubstructure) : Prop :=
  s.verify = .success → s.AddressesMatch ∧
    Bytes.value s.startingAddress ≤ Bytes.value s.endingAddress ∧ PortsValid s.startPort s.endPort ∧
    ∀ ts, s.getTrafficSelector = some ts → ts.Selects

/-- **Only substructures that are in order make selectors that select something**, and `verify`
refuses some of the others. The selectors of a payload are those of its substructures. -/
theorem validated_exact (s : TrafficSelectorSubstructure) (p : TsPayload) :
    (s.Validated ↔ s.Refused ∨ s.InOrder) ∧ (p.verify = .success →
      ((∀ ts ∈ p.getTrafficSelectors, ∃ t, ts = some t ∧ t.Selects) ↔
        ∀ s ∈ p.substrs, s.InOrder)) := by
  constructor
  · unfold Refused
    by_cases hverify : s.verify = .success
    · obtain ⟨haddresses, hreversed⟩ := verify_eq_success_iff.mp hverify
      obtain ⟨ts, hts, -⟩ := getTrafficSelector_of_addressesMatch haddresses
      rw [or_iff_right (not_or.mpr ⟨not_not.mpr haddresses, hreversed⟩)]
      constructor
      · intro h
        exact (selects_iff hverify hts).mp ((h hverify).2.2.2 ts hts)
      · intro h _
        exact ⟨haddresses, h.addresses, h.ports, fun ts hts => (selects_iff hverify hts).mpr h⟩
    · refine iff_of_true (fun h => absurd h hverify) (.inl ?_)
      rw [verify_eq_success_iff, not_and_or, not_not] at hverify
      exact hverify
  · intro hverify
    unfold TsPayload.getTrafficSelectors
    rw [List.forall_mem_map]
    refine forall₂_congr fun s hs => ?_
    have hs := TsPayload.verify_substr hverify hs
    obtain ⟨ts, hts, -⟩ := getTrafficSelector_of_addressesMatch (verify_eq_success_iff.mp hs).1
    rw [← selects_iff hs hts, hts]
    simp

/-- The addresses from `10.0.0.0` to `10.0.0.255` and the ports from 80 to 443 of TCP. -/
theorem validated_exact_web :
    let s : TrafficSelectorSubstructure := ⟨7, 6, 16, 80, 443, [10, 0, 0, 0], [10, 0, 0, 255]⟩
    s.Validated ∧ ∀ ts ∈ (TsPayload.mk 24 1 true [s]).getTrafficSelectors, ∃ t, ts = some t ∧
      t.Selects := by
  intro s
  have horder : s.InOrder := ⟨by decide, .inl (by decide), fun hicmp => absurd hicmp (by decide)⟩
  have hexact := validated_exact s (TsPayload.mk 24 1 true [s])
  refine ⟨hexact.1.mpr (.inr horder), (hexact.2 (by decide)).mpr ?_⟩
  intro s' hs'
  rw [List.mem_singleton.mp hs']
  exact horder

/-- The ports from 7 to 0 are accepted, as one of them is a port of "opaque" ones. -/
theorem not_validated : ¬ ∀ s : TrafficSelectorSubstructure, s.Validated := by
  intro h
  have hports := (h ⟨7, 6, 16, 7, 0, [10, 0, 0, 0], [10, 0, 0, 255]⟩ (by decide)).2.2.1
  exact absurd hports (by unfold PortsValid; decide)

/-! ## There and back -/

/-- **A selector comes back from its substructure** with the addresses, protocol and ports it had. -/
theorem getTrafficSelector_createFromTrafficSelector (h : ts.Normal) :
    ∃ ts', (createFromTrafficSelector ts).getTrafficSelector = some ts' ∧
      ts'.compared = ts.compared := by
  have haddresses : (createFromTrafficSelector ts).AddressesMatch :=
    ⟨ts.type, TsType.ofU8_toU8 _, ts.length_from, ts.length_to⟩
  obtain ⟨ts', hts', htype, hprotocol, hfrom, hto, hfromPort, htoPort, -⟩ :=
    getTrafficSelector_of_addressesMatch haddresses
  refine ⟨ts', hts', ?_⟩
  have htype : ts'.type = ts.type := by
    have hsame : some ts'.type = some ts.type := by
      rw [← TsType.ofU8_toU8 ts'.type, ← TsType.ofU8_toU8 ts.type, htype]
      rfl
    exact Option.some.inj hsame
  unfold compared
  rw [htype, hprotocol, hfrom, hto, hfromPort, htoPort]
  show (⟨ts.type, ts.from_, ts.to_, ts.protocol, storedPort ts.protocol ts.fromPort,
    storedPort ts.protocol ts.toPort⟩ : Selection) = _
  rw [h.fromPort, h.toPort]

theorem getTrafficSelector_again (h : s.AddressesMatch) (hts : s.getTrafficSelector = some ts) :
    (createFromTrafficSelector ts).getTrafficSelector = some ts := by
  obtain ⟨type, htype, hfrom, hto⟩ := h
  unfold getTrafficSelector at hts ⊢
  rw [htype] at hts
  obtain rfl := Option.some.inj ((dif_pos ⟨hfrom.trans hto.symm, hfrom⟩).symm.trans hts)
  show (match TsType.ofU8 type.toU8 with
    | some type => createFromBytes s.ipProtocolId type s.startingAddress
        (storedPort s.ipProtocolId s.startPort) s.endingAddress (storedPort s.ipProtocolId s.endPort)
    | none => none) = _
  rw [TsType.ofU8_toU8]
  refine (dif_pos ⟨hfrom.trans hto.symm, hfrom⟩).trans (congrArg some ?_)
  unfold create
  rw [storedPort_storedPort, storedPort_storedPort]

theorem storedPort_eq_self_iff {protocol : U8} {port : U16} : storedPort protocol port = port ↔
    (protocol = IPPROTO_ICMP ∨ protocol = IPPROTO_ICMPV6 → port = 0 ∨ 256 ≤ port.toNat) := by
  by_cases hicmp : protocol = IPPROTO_ICMP ∨ protocol = IPPROTO_ICMPV6
  · have hzero : port = 0 ↔ port.toNat = 0 := BitVec.toNat_inj.symm
    rw [imp_iff_right hicmp, ← BitVec.toNat_inj, toNat_storedPort hicmp, hzero]
    unfold typeAndCode
    split_ifs <;> omega
  · exact iff_of_true (if_neg hicmp) fun h => absurd h hicmp

/-- A substructure has the type, the protocol, the ports and the addresses of another one. -/
def Same (s s' : TrafficSelectorSubstructure) : Prop :=
  s'.tsType = s.tsType ∧ s'.ipProtocolId = s.ipProtocolId ∧ s'.startPort = s.startPort ∧
    s'.endPort = s.endPort ∧ s'.startingAddress = s.startingAddress ∧
    s'.endingAddress = s.endingAddress

/-- The substructure whose ports are stored ones. -/
def stored (s : TrafficSelectorSubstructure) : TrafficSelectorSubstructure :=
  { s with
    startPort := storedPort s.ipProtocolId s.startPort
    endPort := storedPort s.ipProtocolId s.endPort }

theorem same_createFromTrafficSelector (h : s.AddressesMatch) (hts : s.getTrafficSelector = some ts) :
    s.stored.Same (createFromTrafficSelector ts) := by
  obtain ⟨ts', hts', htype, hprotocol, hfrom, hto, hfromPort, htoPort, -⟩ :=
    getTrafficSelector_of_addressesMatch h
  obtain rfl : ts' = ts := Option.some.inj (hts'.symm.trans hts)
  exact ⟨htype, hprotocol, hfromPort, htoPort, hfrom, hto⟩

theorem same_iff_of_stored {s' : TrafficSelectorSubstructure} (h : s.stored.Same s') :
    s.Same s' ↔ (s.IsIcmp → (s.startPort = 0 ∨ 256 ≤ s.startPort.toNat) ∧
      (s.endPort = 0 ∨ 256 ≤ s.endPort.toNat)) := by
  obtain ⟨htype, hprotocol, hstart, hend, hstarting, hending⟩ := h
  have hports : s'.startPort = s.startPort ∧ s'.endPort = s.endPort ↔ (s.IsIcmp →
      (s.startPort = 0 ∨ 256 ≤ s.startPort.toNat) ∧ (s.endPort = 0 ∨ 256 ≤ s.endPort.toNat)) := by
    rw [hstart, hend, imp_and]
    exact and_congr storedPort_eq_self_iff storedPort_eq_self_iff
  rw [← hports]
  exact ⟨fun h => ⟨h.2.2.1, h.2.2.2.1⟩,
    fun h => ⟨htype, hprotocol, h.1, h.2, hstarting, hending⟩⟩

/-- **Selectors come back from the wire.** A selector is read from its substructure as it was, alone
and in a payload. The substructure made of an accepted one is the one with stored ports, which is the
same unless a port of ICMP is a type without its place, and both mean the same selector. -/
theorem wire_exact :
    (∀ ts : TrafficSelector, Built ts → ts.dynamic = false →
      ∃ ts', (createFromTrafficSelector ts).getTrafficSelector = some ts' ∧ ts'.equals ts = true) ∧
    (∀ s : TrafficSelectorSubstructure, s.verify = .success →
      ∃ ts, s.getTrafficSelector = some ts ∧ s.stored.Same (createFromTrafficSelector ts) ∧
        (s.Same (createFromTrafficSelector ts) ↔ (s.IsIcmp →
          (s.startPort = 0 ∨ 256 ≤ s.startPort.toNat) ∧ (s.endPort = 0 ∨ 256 ≤ s.endPort.toNat))) ∧
        (createFromTrafficSelector ts).getTrafficSelector = some ts) ∧
    (∀ isInitiator (trafficSelectors : List TrafficSelector),
      (∀ ts ∈ trafficSelectors, Built ts ∧ ts.dynamic = false) →
      List.Forall₂ (fun received ts => ∃ ts', received = some ts' ∧ ts'.equals ts = true)
        (TsPayload.createFromTrafficSelectors isInitiator trafficSelectors).getTrafficSelectors
        trafficSelectors) ∧
    (∀ (p : TsPayload) isInitiator, p.verify = .success →
      ∃ trafficSelectors, p.getTrafficSelectors = trafficSelectors.map some ∧
        (TsPayload.createFromTrafficSelectors isInitiator trafficSelectors).getTrafficSelectors =
          p.getTrafficSelectors) := by
  have hback : ∀ ts : TrafficSelector, Built ts →
      ∃ ts', (createFromTrafficSelector ts).getTrafficSelector = some ts' ∧ ts'.equals ts = true := by
    intro ts hts
    obtain ⟨ts', hts', hcompared⟩ := getTrafficSelector_createFromTrafficSelector hts.normal
    exact ⟨ts', hts', equals_iff.mpr hcompared⟩
  refine ⟨fun ts hts _ => hback ts hts, fun s hs => ?_, fun isInitiator l hl => ?_,
    fun p isInitiator hp => ?_⟩
  · have haddresses := (verify_eq_success_iff.mp hs).1
    obtain ⟨ts, hts, -⟩ := getTrafficSelector_of_addressesMatch haddresses
    have hstored := same_createFromTrafficSelector haddresses hts
    exact ⟨ts, hts, hstored, same_iff_of_stored hstored, getTrafficSelector_again haddresses hts⟩
  · rw [TsPayload.getTrafficSelectors_createFromTrafficSelectors, List.forall₂_map_left_iff,
      List.forall₂_same]
    exact fun ts hts => hback ts (hl ts hts).1
  · have hall : ∀ s ∈ p.substrs, ∃ ts, s.getTrafficSelector = some ts ∧
        (createFromTrafficSelector ts).getTrafficSelector = some ts := by
      intro s hs
      have haddresses := (verify_eq_success_iff.mp (TsPayload.verify_substr hp hs)).1
      obtain ⟨ts, hts, -⟩ := getTrafficSelector_of_addressesMatch haddresses
      exact ⟨ts, hts, getTrafficSelector_again haddresses hts⟩
    have hsome : p.getTrafficSelectors = (p.substrs.filterMap getTrafficSelector).map some := by
      rw [List.map_filterMap_some_eq_filter_map_isSome]
      refine (List.filter_eq_self.mpr ?_).symm
      intro received hreceived
      obtain ⟨s, hs, rfl⟩ := List.mem_map.mp hreceived
      obtain ⟨ts, hts, -⟩ := hall s hs
      rw [hts]
      rfl
    refine ⟨p.substrs.filterMap getTrafficSelector, hsome, ?_⟩
    rw [TsPayload.getTrafficSelectors_createFromTrafficSelectors, hsome]
    refine List.map_congr_left fun ts hts => ?_
    obtain ⟨s, hs, hts⟩ := List.mem_filterMap.mp hts
    obtain ⟨ts', hts', hagain⟩ := hall s hs
    obtain rfl : ts' = ts := Option.some.inj (hts'.symm.trans hts)
    exact hagain

/-- An echo request between two networks, as a selector and as a substructure. -/
theorem wire_exact_echo :
    let ts := create IPPROTO_ICMP .ipv4AddrRange [10, 0, 0, 0] 8 [10, 0, 0, 255] 8 rfl rfl
    let s : TrafficSelectorSubstructure := ⟨7, 1, 16, 0x800, 0x800, [10, 0, 0, 0], [10, 0, 0, 255]⟩
    (∃ ts', (createFromTrafficSelector ts).getTrafficSelector = some ts' ∧ ts'.equals ts = true) ∧
    ∃ ts, s.getTrafficSelector = some ts ∧ s.Same (createFromTrafficSelector ts) := by
  intro ts s
  refine ⟨wire_exact.1 ts (built_create rfl rfl) rfl, ?_⟩
  obtain ⟨ts, hts, -, hsame, -⟩ := wire_exact.2.1 s (by decide)
  exact ⟨ts, hts, hsame.mpr fun _ => ⟨.inr (by decide), .inr (by decide)⟩⟩

/-- The port 3 of ICMP is the type 3 with the code 0, and comes back as the port `0x300`. -/
theorem not_wire :
    ¬ ((∀ ts : TrafficSelector, Built ts → ts.dynamic = false →
        ∃ ts', (createFromTrafficSelector ts).getTrafficSelector = some ts' ∧ ts'.equals ts = true) ∧
      ∀ s : TrafficSelectorSubstructure, s.verify = .success →
        ∃ ts, s.getTrafficSelector = some ts ∧ s.Same (createFromTrafficSelector ts)) := by
  intro h
  let s : TrafficSelectorSubstructure := ⟨7, 1, 16, 3, 3, [10, 0, 0, 0], [10, 0, 0, 255]⟩
  obtain ⟨ts, hts, hsame⟩ := h.2 s (by decide)
  have hcreated : s.getTrafficSelector =
      some (create 1 .ipv4AddrRange [10, 0, 0, 0] 3 [10, 0, 0, 255] 3 rfl rfl) := rfl
  obtain rfl := Option.some.inj (hcreated.symm.trans hts)
  exact absurd hsame.2.2.1 (by decide)

end TrafficSelectorSubstructure

end StrongSwan
