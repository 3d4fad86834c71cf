import StrongSwan.Selectors.Constructors
import StrongSwan.Selectors.Narrow

/-!
# Selectors of ICMP types and codes

The constructor turns ports below 256 of an ICMP selector into types. It is called again for every
copy and every subset.

* `typeAndCode`: the port it stores.
* `isContainedIn_iff`: when a selector with the addresses of another one is contained in it.
* `Selects`, `Overlap`, `StablePorts`: selectors that select something, that have common traffic but
  for the ports, and whose common ports survive.
* **`icmp_stable`**: a subset is contained in both selectors if and only if the ports survive.
-/

namespace StrongSwan

namespace TrafficSelector

variable {a b c d : TrafficSelector}

/-! ## Stored ports -/

/-- The selector is one of ICMP types and codes. -/
def IsIcmp (ts : TrafficSelector) : Prop :=
  ts.protocol = IPPROTO_ICMP ∨ ts.protocol = IPPROTO_ICMPV6

instance : Decidable a.IsIcmp := inferInstanceAs (Decidable (_ ∨ _))

def typeAndCode (port : ℕ) : ℕ := if port < 256 then port * 256 else port

theorem le_typeAndCode (port : ℕ) : port ≤ typeAndCode port := by
  unfold typeAndCode
  split_ifs <;> omega

theorem toNat_storedPort {protocol : U8} (h : protocol = IPPROTO_ICMP ∨ protocol = IPPROTO_ICMPV6)
    (port : U16) : (storedPort protocol port).toNat = typeAndCode port.toNat := by
  unfold storedPort typeAndCode
  rw [if_pos h]
  by_cases hlt : port < 256
  · have hlt' : port.toNat < 256 := hlt
    rw [if_pos hlt, if_pos hlt', BitVec.toNat_shiftLeft, Nat.shiftLeft_eq]
    omega
  · have hlt' : ¬port.toNat < 256 := hlt
    rw [if_neg hlt, if_neg hlt']

theorem Normal.typeAndCode_eq (h : a.Normal) (hicmp : a.IsIcmp) :
    typeAndCode a.fromPort.toNat = a.fromPort.toNat ∧ typeAndCode a.toPort.toNat = a.toPort.toNat := by
  rw [← toNat_storedPort hicmp, ← toNat_storedPort hicmp, h.fromPort, h.toPort]
  exact ⟨rfl, rfl⟩

theorem clone_of_normal (h : a.Normal) : a.clone = a := by
  unfold clone
  rw [h.fromPort, h.toPort]

/-! ## Contained selectors -/

theorem subsetPorts_iff {r : U16 × U16} : a.subsetPorts b = some r ↔
    ((a.isOpaque ∧ b.isOpaque ∨ a.isOpaque ∧ b.isAny ∨ b.isOpaque ∧ a.isAny) ∧ r = (0xffff, 0)) ∨
    (¬(a.isOpaque ∧ b.isOpaque ∨ a.isOpaque ∧ b.isAny ∨ b.isOpaque ∧ a.isAny) ∧
      r.1.toNat = max a.fromPort.toNat b.fromPort.toNat ∧
      r.2.toNat = min a.toPort.toNat b.toPort.toNat ∧ r.1.toNat ≤ r.2.toNat) := by
  unfold subsetPorts
  have hcond : ((a.isOpaque && b.isOpaque || a.isOpaque && b.isAny || b.isOpaque && a.isAny) = true) ↔
      (a.isOpaque ∧ b.isOpaque ∨ a.isOpaque ∧ b.isAny ∨ b.isOpaque ∧ a.isAny) := by
    simp only [Bool.or_eq_true, Bool.and_eq_true, or_assoc]
  by_cases h : a.isOpaque ∧ b.isOpaque ∨ a.isOpaque ∧ b.isAny ∨ b.isOpaque ∧ a.isAny
  · rw [if_pos (hcond.mpr h)]
    constructor
    · exact fun heq => .inl ⟨h, (Option.some.inj heq).symm⟩
    · rintro (⟨-, rfl⟩ | ⟨hnot, -⟩)
      · rfl
      · exact absurd h hnot
  · rw [if_neg (mt hcond.mp h)]
    dsimp only
    rw [Option.ite_none_left_eq_some, gt_iff_lt, BitVec.lt_def, toNat_umax, toNat_umin]
    simp only [h, false_and, not_false_eq_true, true_and, false_or, Option.some.injEq]
    obtain ⟨f, t⟩ := r
    rw [Prod.mk.injEq, ← BitVec.toNat_inj, ← BitVec.toNat_inj, toNat_umax, toNat_umin]
    dsimp only
    omega

/-- The selectors have common addresses and a common protocol. -/
def Overlap (a b : TrafficSelector) : Prop :=
  a.type = b.type ∧ (a.protocol = b.protocol ∨ a.protocol = 0 ∨ b.protocol = 0) ∧
    max (Bytes.value a.from_) (Bytes.value b.from_) ≤ min (Bytes.value a.to_) (Bytes.value b.to_)

theorem value_from {f f' : Chunk} (h : f.length = f'.length) :
    Bytes.value (if Bytes.lexCmp f f' = .gt then f else f') = max (Bytes.value f) (Bytes.value f') := by
  rw [Bytes.lexCmp_eq_compare h]
  split_ifs with hgt
  · exact (max_eq_left (compare_gt_iff_gt.mp hgt).le).symm
  · rw [compare_gt_iff_gt, not_lt] at hgt
    exact (max_eq_right hgt).symm

theorem value_to {t t' : Chunk} (h : t.length = t'.length) :
    Bytes.value (if Bytes.lexCmp t t' = .gt then t' else t) = min (Bytes.value t) (Bytes.value t') := by
  rw [Bytes.lexCmp_eq_compare h]
  split_ifs with hgt
  · exact (min_eq_right (compare_gt_iff_gt.mp hgt).le).symm
  · rw [compare_gt_iff_gt, not_lt] at hgt
    exact (min_eq_left hgt).symm

theorem exists_getSubset (hda : a.dynamic = false) (hdb : b.dynamic = false) (h : a.Overlap b)
    {r : U16 × U16} (hr : a.subsetPorts b = some r) : ∃ d, a.getSubset b = some d := by
  obtain ⟨htype, hprotocol, haddresses⟩ := h
  have hfrom : a.from_.length = b.from_.length := by rw [a.length_from, b.length_from, htype]
  have hto : a.to_.length = b.to_.length := by rw [a.length_to, b.length_to, htype]
  by_contra hnone
  rw [← Option.ne_none_iff_exists', not_not] at hnone
  unfold getSubset at hnone
  rw [if_neg (by simp [hda, hdb]), dif_neg (not_not.mpr htype), if_neg (by tauto), hr] at hnone
  dsimp only at hnone
  rw [ite_eq_left_iff] at hnone
  refine absurd (hnone ?_) (Option.some_ne_none _)
  rw [Bytes.lexCmp_eq_compare, compare_gt_iff_gt, value_from hfrom, value_to hto, not_lt]
  · exact haddresses
  · split_ifs <;> simp [a.length_from, a.length_to, b.length_from, b.length_to, htype]

/-- A selector whose addresses another one has, and whose protocol it allows. -/
structure Within (d c : TrafficSelector) : Prop where
  dynamic : d.dynamic = false ∧ c.dynamic = false
  type : d.type = c.type
  protocol : c.protocol = d.protocol ∨ c.protocol = 0
  from_ : Bytes.value c.from_ ≤ Bytes.value d.from_
  to_ : Bytes.value d.to_ ≤ Bytes.value c.to_
  nonempty : Bytes.value d.from_ ≤ Bytes.value d.to_

/-- **Such a selector is contained in the other one** if its ports are those of the subset. -/
theorem isContainedIn_iff (h : Within d c) : d.isContainedIn c = true ↔
    ∃ r, d.subsetPorts c = some r ∧ storedPort d.protocol r.1 = d.fromPort ∧
      storedPort d.protocol r.2 = d.toPort := by
  obtain ⟨⟨hd, hc⟩, htype, hprotocol, hfrom, hto, hle⟩ := h
  have hlenFrom : d.from_.length = c.from_.length := by rw [d.length_from, c.length_from, htype]
  have hlenTo : d.to_.length = c.to_.length := by rw [d.length_to, c.length_to, htype]
  have hfrom_ : (if Bytes.lexCmp d.from_ c.from_ = .gt then d.from_ else c.from_) = d.from_ := by
    split_ifs with hgt
    · rfl
    · rw [Bytes.lexCmp_eq_compare hlenFrom, compare_gt_iff_gt] at hgt
      exact (Bytes.value_inj hlenFrom.symm).mp (by omega)
  have hto_ : (if Bytes.lexCmp d.to_ c.to_ = .gt then c.to_ else d.to_) = d.to_ := by
    rw [if_neg]
    rw [Bytes.lexCmp_eq_compare hlenTo, compare_gt_iff_gt]
    omega
  have humax : umax d.protocol c.protocol = d.protocol := by
    unfold umax
    obtain hsame | hzero := hprotocol
    · rw [hsame, ite_self]
    · rw [hzero]
      split_ifs with hpos
      · rfl
      · bv_omega
  unfold isContainedIn
  cases hsubset : d.getSubset c with
  | none =>
    simp only [Bool.false_eq_true, false_iff, not_exists, not_and]
    intro r hr
    have hoverlap : d.Overlap c :=
      ⟨htype, hprotocol.imp Eq.symm .inr, by rw [max_eq_left hfrom, min_eq_left hto]; exact hle⟩
    obtain ⟨subset, hsome⟩ := exists_getSubset hd hc hoverlap hr
    rw [hsubset] at hsome
    cases hsome
  | some subset =>
    obtain ⟨f, t, _, _, _, _, hports, rfl, rfl, -, -, -, -, -, rfl⟩ := eq_create_of_getSubset hsubset
    rw [hports]
    dsimp only
    rw [equals_iff, compared, compared, Selection.mk.injEq]
    simp only [Option.some.injEq, exists_eq_left', create, hfrom_, hto_, humax, true_and]

/-! ## Ports that survive -/

/-- The addresses are ordered, and so are the ports, or they are "opaque". -/
def Selects (ts : TrafficSelector) : Prop :=
  Bytes.value ts.from_ ≤ Bytes.value ts.to_ ∧ PortsValid ts.fromPort ts.toPort

/-- The common ports are those of the subset: if its last port is a type alone, there is no first one
and the type with its code `0` is still a port of the other selector, and otherwise the first port is
not moved behind the last one. -/
def StablePorts (a b : TrafficSelector) : Prop :=
  let from_ := max a.fromPort.toNat b.fromPort.toNat
  let to_ := min a.toPort.toNat b.toPort.toNat
  a.isOpaque ∨ b.isOpaque ∨ to_ < from_ ∨
    if 0 < to_ ∧ to_ < 256 then from_ = 0 ∧ 256 * to_ ≤ max a.toPort.toNat b.toPort.toNat
    else typeAndCode from_ ≤ to_

theorem isContainedIn_self (h : a.Normal) (hdynamic : a.dynamic = false) :
    a.isContainedIn a = true ↔ a.Selects := by
  by_cases hle : Bytes.value a.from_ ≤ Bytes.value a.to_
  · rw [isContainedIn_iff ⟨⟨hdynamic, hdynamic⟩, rfl, .inl rfl, le_rfl, le_rfl, hle⟩, Selects,
      and_iff_right hle]
    constructor
    · rintro ⟨r, hr, -⟩
      obtain ⟨hfull, -⟩ | ⟨-, hfrom, hto, hrange⟩ := subsetPorts_iff.mp hr
      · exact .inr (isOpaque_iff.mp (by tauto))
      · exact .inl (by omega)
    · intro hports
      refine ⟨(a.fromPort, a.toPort), subsetPorts_iff.mpr ?_, h.fromPort, h.toPort⟩
      by_cases hfull : a.isOpaque = true
      · obtain ⟨hfrom, hto⟩ := isOpaque_iff.mp hfull
        exact .inl ⟨.inl ⟨hfull, hfull⟩, by rw [hfrom, hto]⟩
      · have hrange := hports.resolve_right fun h => hfull (isOpaque_iff.mpr h)
        exact .inr ⟨by tauto, (max_self _).symm, (min_self _).symm, hrange⟩
  · refine iff_of_false (fun hcontained => ?_) fun hselects => hle hselects.1
    unfold isContainedIn at hcontained
    cases hsubset : a.getSubset a with
    | none => simp [hsubset] at hcontained
    | some subset =>
      obtain ⟨_, _, _, _, hfrom, hto, -, rfl, rfl, hcmp, -⟩ := eq_create_of_getSubset hsubset
      rw [ite_self, ite_self, Bytes.lexCmp_eq_compare (by rw [a.length_from, a.length_to])] at hcmp
      exact hcmp (compare_gt_iff_gt.mpr (not_le.mp hle))

theorem typeAndCode_typeAndCode (port : ℕ) : typeAndCode (typeAndCode port) = typeAndCode port := by
  unfold typeAndCode
  split_ifs <;> omega

theorem isContainedIn_iff_ports (hicmp : d.IsIcmp) (hwithin : Within d c) {f t : ℕ}
    (hf : d.fromPort.toNat = typeAndCode f) (ht : d.toPort.toNat = typeAndCode t) (hft : f ≤ t)
    (hfc : c.fromPort.toNat ≤ f) (hfull : ¬c.isOpaque) :
    d.isContainedIn c = true ↔
      typeAndCode f ≤ min (typeAndCode t) c.toPort.toNat ∧
        typeAndCode (min (typeAndCode t) c.toPort.toNat) = typeAndCode t := by
  have hd : ¬d.isOpaque := fun hfull => by
    obtain ⟨hfrom, hto⟩ := isOpaque_iff.mp hfull
    rw [hfrom] at hf
    rw [hto] at ht
    have hzero : typeAndCode t = 0 := ht.symm
    have hle := le_typeAndCode t
    obtain rfl : f = 0 := by omega
    exact absurd hf (by decide)
  have hle := le_typeAndCode f
  have hnot : ¬(d.isOpaque ∧ c.isOpaque ∨ d.isOpaque ∧ c.isAny ∨ c.isOpaque ∧ d.isAny) := by tauto
  rw [isContainedIn_iff hwithin]
  simp only [subsetPorts_iff, hnot, false_and, not_false_eq_true, true_and, false_or,
    ← BitVec.toNat_inj, toNat_storedPort hicmp, hf, ht]
  rw [max_eq_left (hfc.trans hle)]
  constructor
  · rintro ⟨⟨x, y⟩, ⟨hx, hy, hrange⟩, -, hto⟩
    dsimp only at hx hy hrange hto
    rw [hy] at hrange hto
    rw [hx] at hrange
    exact ⟨hrange, hto⟩
  · rintro ⟨hrange, hto⟩
    refine ⟨(d.fromPort, umin d.toPort c.toPort), ⟨hf, ?_, ?_⟩, ?_, ?_⟩
    · rw [toNat_umin, ht]
    · rw [toNat_umin, ht, hf]
      exact hrange
    · rw [hf, typeAndCode_typeAndCode]
    · rw [toNat_umin, ht, hto]

/-- **What a subset is**: within both selectors, with their common ports stored again. -/
theorem subset_spec (h : a.getSubset b = some d) :
    a.Overlap b ∧ Within d a ∧ Within d b ∧ d.protocol = umax a.protocol b.protocol ∧
      ∃ r, a.subsetPorts b = some r ∧ d.fromPort = storedPort d.protocol r.1 ∧
        d.toPort = storedPort d.protocol r.2 := by
  obtain ⟨f, t, from_, to_, hfrom, hto, hports, hfrom_, hto_, hcmp, hda, hdb, htype, hprotocol, rfl⟩ :=
    eq_create_of_getSubset h
  have hlenFrom : a.from_.length = b.from_.length := by rw [a.length_from, b.length_from, htype]
  have hlenTo : a.to_.length = b.to_.length := by rw [a.length_to, b.length_to, htype]
  have hmax := value_from hlenFrom
  have hmin := value_to hlenTo
  rw [← hfrom_] at hmax
  rw [← hto_] at hmin
  rw [Bytes.lexCmp_eq_compare (hfrom.trans hto.symm), Ne, compare_gt_iff_gt, not_lt] at hcmp
  have hcompatible : a.protocol = b.protocol ∨ a.protocol = 0 ∨ b.protocol = 0 := by tauto
  have hmaxProtocol : (a.protocol = umax a.protocol b.protocol ∨ a.protocol = 0) ∧
      (b.protocol = umax a.protocol b.protocol ∨ b.protocol = 0) := by
    unfold umax
    obtain hsame | hzero | hzero := hcompatible
    · rw [hsame, ite_self]
      exact ⟨.inl rfl, .inl rfl⟩
    · rw [hzero, if_neg (by bv_omega)]
      exact ⟨.inr rfl, .inl rfl⟩
    · rw [hzero]
      split_ifs with hpos
      · exact ⟨.inl rfl, .inr rfl⟩
      · exact ⟨.inr (by bv_omega), .inr rfl⟩
  refine ⟨⟨htype, hcompatible, by omega⟩, ⟨⟨rfl, hda⟩, rfl, hmaxProtocol.1, ?_, ?_, hcmp⟩,
    ⟨⟨rfl, hdb⟩, htype, hmaxProtocol.2, ?_, ?_, hcmp⟩, rfl, (f, t), hports, rfl, rfl⟩
  · change _ ≤ Bytes.value from_
    omega
  · change Bytes.value to_ ≤ _
    omega
  · change _ ≤ Bytes.value from_
    omega
  · change Bytes.value to_ ≤ _
    omega

/-! ## Stability -/

theorem typeAndCode_of_le {port : ℕ} (h : 256 ≤ port) : typeAndCode port = port :=
  if_neg (not_lt.mpr h)

theorem typeAndCode_of_lt {port : ℕ} (h : port < 256) : typeAndCode port = port * 256 := if_pos h

theorem stable_iff {f t x y : ℕ} (ht : t = min x y) (hft : f ≤ t)
    (hnormal : typeAndCode x = x ∨ typeAndCode y = y) :
    (typeAndCode f ≤ min (typeAndCode t) x ∧ typeAndCode (min (typeAndCode t) x) = typeAndCode t) ∧
      (typeAndCode f ≤ min (typeAndCode t) y ∧ typeAndCode (min (typeAndCode t) y) = typeAndCode t) ↔
    if 0 < t ∧ t < 256 then f = 0 ∧ 256 * t ≤ max x y else typeAndCode f ≤ t := by
  split_ifs with hsmall
  · -- the limit below 256 is the one that is not a stored port
    obtain ⟨hpos, hlt⟩ := hsmall
    rw [typeAndCode_of_lt hlt, typeAndCode_of_lt (hft.trans_lt hlt)]
    have hlimit : ∀ z, typeAndCode z = z → t ≤ z → 256 ≤ z := by
      intro z hz hle
      by_contra hsmall
      rw [typeAndCode_of_lt (by omega)] at hz
      omega
    have hself : ∀ z, z = t → ((f * 256 ≤ min (t * 256) z ∧
        typeAndCode (min (t * 256) z) = t * 256) ↔ f = 0) := by
      rintro z rfl
      rw [min_eq_right (by omega), typeAndCode_of_lt hlt]
      omega
    have hother : ∀ z, 256 ≤ z → (typeAndCode (min (t * 256) z) = t * 256 ↔ 256 * t ≤ z) := by
      intro z hz
      rw [typeAndCode_of_le (by omega)]
      omega
    obtain hx | hy := hnormal
    · have hx := hlimit x hx (by omega)
      rw [hself y (by omega), hother x hx]
      omega
    · have hy := hlimit y hy (by omega)
      rw [hself x (by omega), hother y hy]
      omega
  · have hstored : typeAndCode t = t := by
      unfold typeAndCode
      split_ifs <;> omega
    rw [hstored, min_eq_left (by omega : t ≤ x), min_eq_left (by omega : t ≤ y), hstored]
    tauto

theorem isContainedIn_of_opaque (hicmp : d.IsIcmp) (hwithin : Within d c)
    (hfrom : d.fromPort = storedPort d.protocol 0xffff) (hto : d.toPort = storedPort d.protocol 0)
    (hports : c.isOpaque ∨ c.isAny) : d.isContainedIn c = true := by
  have hfromPort : d.fromPort = 0xffff := by
    rw [hfrom, ← BitVec.toNat_inj, toNat_storedPort hicmp]
    rfl
  have htoPort : d.toPort = 0 := by
    rw [hto, ← BitVec.toNat_inj, toNat_storedPort hicmp]
    rfl
  have hfull : d.isOpaque = true := isOpaque_iff.mpr ⟨hfromPort, htoPort⟩
  rw [isContainedIn_iff hwithin]
  exact ⟨(0xffff, 0), subsetPorts_iff.mpr (.inl ⟨by tauto, rfl⟩), hfrom.symm, hto.symm⟩

theorem contained_iff_stable (ha : a.Normal) (hb : b.Normal) (hicmp : a.IsIcmp ∨ b.IsIcmp)
    (h : a.getSubset b = some d) :
    (d.isContainedIn a = true ∧ d.isContainedIn b = true) ↔ a.StablePorts b := by
  obtain ⟨-, hwithinA, hwithinB, hprotocol, r, hr, hfrom, hto⟩ := subset_spec h
  have hdicmp : d.IsIcmp := by
    unfold IsIcmp
    obtain hicmp | hicmp := hicmp
    · obtain hsame | hzero := hwithinA.protocol
      · rwa [← hsame]
      · rw [IsIcmp, hzero] at hicmp
        exact absurd hicmp (by decide)
    · obtain hsame | hzero := hwithinB.protocol
      · rwa [← hsame]
      · rw [IsIcmp, hzero] at hicmp
        exact absurd hicmp (by decide)
  obtain ⟨hcond, rfl⟩ | ⟨hcond, hf, ht, hft⟩ := subsetPorts_iff.mp hr
  · -- an "opaque" range and one that includes it
    have hstable : a.StablePorts b := by
      obtain ⟨hfull, -⟩ | ⟨hfull, -⟩ | ⟨hfull, -⟩ := hcond
      · exact .inl hfull
      · exact .inl hfull
      · exact .inr (.inl hfull)
    refine iff_of_true ⟨?_, ?_⟩ hstable
    · exact isContainedIn_of_opaque hdicmp hwithinA hfrom hto (by tauto)
    · exact isContainedIn_of_opaque hdicmp hwithinB hfrom hto (by tauto)
  · have hnotOpaque : ∀ ts : TrafficSelector, ts.fromPort.toNat ≤ r.1.toNat →
        r.2.toNat ≤ ts.toPort.toNat → ¬ts.isOpaque := by
      intro ts hle hle' hfull
      obtain ⟨hfromPort, htoPort⟩ := isOpaque_iff.mp hfull
      rw [hfromPort] at hle
      rw [htoPort] at hle'
      have hmax : (0xffff : U16).toNat = 65535 := rfl
      have hmin : (0 : U16).toNat = 0 := rfl
      omega
    have hopaqueA := hnotOpaque a (by omega) (by omega)
    have hopaqueB := hnotOpaque b (by omega) (by omega)
    have hfromPort : d.fromPort.toNat = typeAndCode r.1.toNat := by
      rw [hfrom, toNat_storedPort hdicmp]
    have htoPort : d.toPort.toNat = typeAndCode r.2.toNat := by
      rw [hto, toNat_storedPort hdicmp]
    rw [isContainedIn_iff_ports hdicmp hwithinA hfromPort htoPort hft (by omega) hopaqueA,
      isContainedIn_iff_ports hdicmp hwithinB hfromPort htoPort hft (by omega) hopaqueB,
      stable_iff ht hft (hicmp.imp (fun h => (ha.typeAndCode_eq h).2) fun h =>
        (hb.typeAndCode_eq h).2)]
    unfold StablePorts
    dsimp only
    rw [← hf, ← ht]
    simp [hopaqueA, hopaqueB, not_lt.mpr hft]

/-- **Selectors of types and codes survive** copying, and narrowing if they select something and their
common ports are stable. -/
theorem icmp_stable (ha : Built a) (hb : Built b) (hda : a.dynamic = false) (hdb : b.dynamic = false)
    (hicmp : a.IsIcmp ∨ b.IsIcmp) :
    (a.clone.equals a = true ∧ (∃ d, a.getSubset a = some d ∧ d.equals a = true) ∧
      ∀ d, a.getSubset b = some d → d.isContainedIn a = true ∧ d.isContainedIn b = true) ↔
    a.Selects ∧ (a.Overlap b → a.StablePorts b) := by
  have hclone : a.clone.equals a = true := by rw [clone_of_normal ha.normal, equals_iff]
  have hself : (∃ d, a.getSubset a = some d ∧ d.equals a = true) ↔ a.Selects := by
    rw [← isContainedIn_self ha.normal hda]
    unfold isContainedIn
    cases a.getSubset a <;> simp
  rw [and_iff_right hclone, hself]
  refine and_congr_right fun _ => ⟨fun hall hoverlap => ?_, fun hstable d hd => ?_⟩
  · by_cases hports : ∃ r, a.subsetPorts b = some r
    · obtain ⟨r, hr⟩ := hports
      obtain ⟨d, hd⟩ := exists_getSubset hda hdb hoverlap hr
      exact (contained_iff_stable ha.normal hb.normal hicmp hd).mp (hall d hd)
    · -- there is no subset: one range is "opaque" or they are disjoint
      by_contra hunstable
      unfold StablePorts at hunstable
      dsimp only at hunstable
      push Not at hunstable
      obtain ⟨hopaqueA, hopaqueB, hle, -⟩ := hunstable
      refine hports ⟨(umax a.fromPort b.fromPort, umin a.toPort b.toPort), subsetPorts_iff.mpr ?_⟩
      refine .inr ⟨by tauto, toNat_umax _ _, toNat_umin _ _, ?_⟩
      rw [toNat_umax, toNat_umin]
      exact hle
  · exact (contained_iff_stable ha.normal hb.normal hicmp hd).mpr (hstable (subset_spec hd).1)

/-- An echo request from `10.0.0.0/24`, and all of ICMP. -/
theorem icmp_stable_echo :
    let net := fun (protocol : U8) (fromPort toPort : U16) =>
      create protocol .ipv4AddrRange [10, 0, 0, 0] fromPort [10, 0, 0, 255] toPort rfl rfl
    ∀ d, (net IPPROTO_ICMP 8 8).getSubset (net IPPROTO_ICMP 0 0xffff) = some d →
      d.isContainedIn (net IPPROTO_ICMP 8 8) = true := by
  intro net d hd
  have hbuilt : ∀ protocol fromPort toPort, Built (net protocol fromPort toPort) :=
    fun _ _ _ => built_create rfl rfl
  have hstable := icmp_stable (hbuilt IPPROTO_ICMP 8 8) (hbuilt IPPROTO_ICMP 0 0xffff) rfl rfl
    (.inl (.inl rfl))
  have hselects : (net IPPROTO_ICMP 8 8).Selects := ⟨by decide, .inl (by decide)⟩
  have hports : (net IPPROTO_ICMP 8 8).StablePorts (net IPPROTO_ICMP 0 0xffff) :=
    .inr (.inr (.inr (by decide)))
  exact ((hstable.mpr ⟨hselects, fun _ => hports⟩).2.2 d hd).1

/-- The ports from 5 to 10 of any protocol become types when they are narrowed to ICMP, and the subset
is not contained in the selector it was made of. -/
theorem not_icmp_stable :
    ¬ ∀ a b, Built a → Built b → a.dynamic = false → b.dynamic = false → (a.IsIcmp ∨ b.IsIcmp) →
      ∀ d, a.getSubset b = some d → d.isContainedIn a = true := by
  intro h
  let net := fun (protocol : U8) (fromPort toPort : U16) =>
    create protocol .ipv4AddrRange [10, 0, 0, 0] fromPort [10, 0, 0, 255] toPort rfl rfl
  have hbuilt : ∀ protocol fromPort toPort, Built (net protocol fromPort toPort) :=
    fun _ _ _ => built_create rfl rfl
  have hsubset : (net 0 5 10).getSubset (net IPPROTO_ICMP 0 0xffff) = some (net IPPROTO_ICMP 5 10) := by
    decide +kernel
  have hcontained := h _ _ (hbuilt 0 5 10) (hbuilt IPPROTO_ICMP 0 0xffff) rfl rfl (.inr (.inl rfl)) _
    hsubset
  revert hcontained
  decide +kernel

end TrafficSelector

end StrongSwan
