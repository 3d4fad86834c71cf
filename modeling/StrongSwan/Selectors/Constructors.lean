import StrongSwan.Selectors.TrafficSelector

/-!
# Where traffic selectors come from

The constructors of traffic selectors other than from bytes, and what makes a selector out of
another one.

* `calcRange`: the addresses of a subnet.
* `createFromString`, `createFromRfc3779Format`, `createFromSubnet`, `createDynamic`.
* `setAddress`, `isContainedIn`.
* `Built`: the selectors there are, **`Built.normal`**: their ports are stored ones.
-/

namespace StrongSwan

namespace TrafficSelector

/-- `calc_range`: the addresses of the subnet of `netbits` bits around an address of `len` bytes. -/
def calcRange (len : ℕ) (from_ : Chunk) (netbits : ℕ) : Chunk × Chunk :=
  let bytes := (netbits + 7) / 8
  let bits := bytes * 8 - netbits
  let mask : U8 := if bits ≠ 0 then BitVec.ofNat 8 (2 ^ bits - 1) else 0
  -- without netbits there is no last byte, and no bit to change either
  ((from_.take bytes ++ List.replicate (len - bytes) 0).modify (bytes - 1) (· &&& ~~~mask),
    (from_.take bytes ++ List.replicate (len - bytes) 0xff).modify (bytes - 1) (· ||| mask))

theorem length_calcRange {len : ℕ} {from_ : Chunk} (h : from_.length = len) {netbits : ℕ}
    (hle : netbits ≤ 8 * len) : (calcRange len from_ netbits).1.length = len ∧
      (calcRange len from_ netbits).2.length = len := by
  unfold calcRange
  dsimp only
  rw [List.length_modify, List.length_modify, List.length_append, List.length_append,
    List.length_replicate, List.length_replicate, List.length_take, h]
  omega

/-- `ts_type_t` of a family -/
def typeOf : Family → TsType
  | .inet => .ipv4AddrRange
  | .inet6 => .ipv6AddrRange

theorem len_typeOf (family : Family) : (typeOf family).len = family.len := by cases family <;> rfl

/-- `traffic_selector_create_from_string`, with what `inet_pton` makes of a string. -/
def createFromString (inetPton : (family : Family) → String → Option {a : Chunk // a.length = family.len})
    (protocol : U8) (type : TsType) (fromAddr : String) (fromPort : U16) (toAddr : String)
    (toPort : U16) : Option TrafficSelector :=
  match inetPton type.family fromAddr, inetPton type.family toAddr with
  | some from_, some to_ =>
    some (create protocol type from_ fromPort to_ toPort (from_.2.trans type.len_family)
      (to_.2.trans type.len_family))
  | _, _ => none

/-- The address `traffic_selector_create_from_rfc3779_format` reads from a bit string: behind its
number of unused bits. The bytes it does not have are `fill`, and `mask` is added to the last one. -/
def rfc3779Address (len : ℕ) (bits : Chunk) (fill mask : U8) : Chunk :=
  if bits.length > 1 then
    (bits.tail ++ List.replicate (len - (bits.length - 1)) fill).modify (bits.length - 2) (· ||| mask)
  else List.replicate len fill

theorem length_rfc3779Address {len : ℕ} {bits : Chunk} (h : bits.length ≤ len + 1) (fill mask : U8) :
    (rfc3779Address len bits fill mask).length = len := by
  unfold rfc3779Address
  split_ifs
  · rw [List.length_modify, List.length_append, List.length_tail, List.length_replicate]
    omega
  · exact List.length_replicate

/-- `traffic_selector_create_from_rfc3779_format`; longer bit strings would be written behind the
addresses. -/
def createFromRfc3779Format (type : TsType) (from_ to_ : Chunk) : Option TrafficSelector :=
  if h : from_.length ≤ type.len + 1 ∧ to_.length ≤ type.len + 1 then
    let unused := to_.headD 0
    let mask : U8 := if unused ≠ 0 then BitVec.ofNat 8 (2 ^ unused.toNat - 1) else 0
    some (create 0 type (rfc3779Address type.len from_ 0 0) 0 (rfc3779Address type.len to_ 0xff mask)
      65535 (length_rfc3779Address h.1 _ _) (length_rfc3779Address h.2 _ _))
  else none

def createFromSubnet (net : Host) (netbits : U8) (protocol : U8) (fromPort toPort : U16) :
    TrafficSelector :=
  let type := typeOf net.family
  let netbits := min netbits.toNat (8 * type.len)
  have hle : netbits ≤ 8 * type.len := min_le_right _ _
  have hlength : net.address.length = type.len := net.length_address.trans (len_typeOf _).symm
  let range := calcRange type.len net.address netbits
  { type := type
    protocol := protocol
    dynamic := false
    netbits := BitVec.ofNat 8 netbits
    from_ := range.1
    to_ := range.2
    fromPort := storedPort protocol fromPort
    toPort := storedPort protocol toPort
    length_from := (length_calcRange hlength hle).1
    length_to := (length_calcRange hlength hle).2
    netbits_valid := .inl (by
      have hlen := len_le type
      rw [BitVec.toNat_ofNat]
      omega) }

def createDynamic (protocol : U8) (fromPort toPort : U16) : TrafficSelector where
  type := .ipv4AddrRange
  protocol := protocol
  dynamic := true
  netbits := 0
  from_ := List.replicate 4 0
  to_ := List.replicate 4 0xff
  fromPort := storedPort protocol fromPort
  toPort := storedPort protocol toPort
  length_from := rfl
  length_to := rfl
  netbits_valid := .inl (Nat.zero_le _)

def setAddress (this : TrafficSelector) (host : Host) : TrafficSelector :=
  let type := typeOf host.family
  if host.isAnyaddr then
    { this with
      type := type
      dynamic := false
      netbits := 0
      from_ := List.replicate type.len 0
      to_ := List.replicate type.len 0xff
      length_from := List.length_replicate
      length_to := List.length_replicate
      netbits_valid := .inl (Nat.zero_le _) }
  else
    { this with
      type := type
      dynamic := false
      netbits := BitVec.ofNat 8 (8 * host.address.length)
      from_ := host.address
      to_ := host.address
      length_from := host.length_address.trans (len_typeOf _).symm
      length_to := host.length_address.trans (len_typeOf _).symm
      netbits_valid := .inl (by
        rw [host.length_address, len_typeOf, BitVec.toNat_ofNat]
        exact Nat.mod_le _ _) }

def isContainedIn (this other : TrafficSelector) : Bool :=
  match this.getSubset other with
  | some subset => subset.equals this
  | none => false

/-! ## Built selectors -/

/-- The selectors the constructors return, and those made of them. -/
inductive Built : TrafficSelector → Prop
  | fromBytes {protocol type from_ fromPort to_ toPort ts} :
    createFromBytes protocol type from_ fromPort to_ toPort = some ts → Built ts
  | fromString {inetPton protocol type fromAddr fromPort toAddr toPort ts} :
    createFromString inetPton protocol type fromAddr fromPort toAddr toPort = some ts → Built ts
  | fromRfc3779Format {type from_ to_ ts} : createFromRfc3779Format type from_ to_ = some ts → Built ts
  | fromSubnet (net netbits protocol fromPort toPort) :
    Built (createFromSubnet net netbits protocol fromPort toPort)
  | dynamic (protocol fromPort toPort) : Built (createDynamic protocol fromPort toPort)
  | setAddress {ts} (host) : Built ts → Built (ts.setAddress host)
  | clone {ts} : Built ts → Built ts.clone
  | subset {ts other subset} : Built ts → Built other → ts.getSubset other = some subset → Built subset

theorem built_create {protocol : U8} {type : TsType} {from_ to_ : Chunk} {fromPort toPort : U16}
    (length_from : from_.length = type.len) (length_to : to_.length = type.len) :
    Built (create protocol type from_ fromPort to_ toPort length_from length_to) :=
  .fromBytes (dif_pos ⟨length_from.trans length_to.symm, length_from⟩)

/-- The ports are stored ones. -/
structure Normal (ts : TrafficSelector) : Prop where
  fromPort : storedPort ts.protocol ts.fromPort = ts.fromPort
  toPort : storedPort ts.protocol ts.toPort = ts.toPort

theorem normal_create {protocol : U8} {type : TsType} {from_ to_ : Chunk} {fromPort toPort : U16}
    (length_from : from_.length = type.len) (length_to : to_.length = type.len) :
    (create protocol type from_ fromPort to_ toPort length_from length_to).Normal :=
  ⟨storedPort_storedPort _ _, storedPort_storedPort _ _⟩

theorem eq_create_of_getSubset {a b d : TrafficSelector} (h : a.getSubset b = some d) :
    ∃ fromPort toPort from_ to_ hfrom hto, a.subsetPorts b = some (fromPort, toPort) ∧
      from_ = (if Bytes.lexCmp a.from_ b.from_ = .gt then a.from_ else b.from_) ∧
      to_ = (if Bytes.lexCmp a.to_ b.to_ = .gt then b.to_ else a.to_) ∧
      Bytes.lexCmp from_ to_ ≠ .gt ∧ a.dynamic = false ∧ b.dynamic = false ∧ a.type = b.type ∧
      ¬(a.protocol ≠ b.protocol ∧ a.protocol ≠ 0 ∧ b.protocol ≠ 0) ∧
      d = create (umax a.protocol b.protocol) a.type from_ fromPort to_ toPort hfrom hto := by
  unfold getSubset at h
  split_ifs at h with hdynamic htype hprotocol
  rw [Bool.or_eq_true, not_or, Bool.not_eq_true, Bool.not_eq_true] at hdynamic
  cases hports : a.subsetPorts b with
  | none =>
    rw [hports] at h
    cases h
  | some ports =>
    rw [hports] at h
    dsimp only at h
    obtain ⟨hgt, heq⟩ := Option.ite_none_left_eq_some.mp h
    cases heq
    exact ⟨_, _, _, _, _, _, rfl, rfl, rfl, hgt, hdynamic.1, hdynamic.2, not_not.mp htype, hprotocol,
      rfl⟩

/-- **The ports of all selectors are stored ones.** -/
theorem Built.normal {ts : TrafficSelector} (h : Built ts) : ts.Normal := by
  induction h with
  | fromBytes h =>
    unfold createFromBytes at h
    split_ifs at h
    cases h
    exact normal_create _ _
  | fromString h =>
    unfold createFromString at h
    split at h
    · cases h
      exact normal_create _ _
    · cases h
  | fromRfc3779Format h =>
    unfold createFromRfc3779Format at h
    split_ifs at h
    cases h
    exact normal_create _ _
  | fromSubnet net netbits protocol fromPort toPort =>
    exact ⟨storedPort_storedPort _ _, storedPort_storedPort _ _⟩
  | dynamic protocol fromPort toPort => exact ⟨storedPort_storedPort _ _, storedPort_storedPort _ _⟩
  | setAddress host _ ih =>
    unfold TrafficSelector.setAddress
    dsimp only
    split_ifs
    · exact ⟨ih.fromPort, ih.toPort⟩
    · exact ⟨ih.fromPort, ih.toPort⟩
  | clone _ _ => exact ⟨storedPort_storedPort _ _, storedPort_storedPort _ _⟩
  | subset _ _ hsubset =>
    obtain ⟨_, _, _, _, _, _, -, -, -, -, -, -, -, -, rfl⟩ := eq_create_of_getSubset hsubset
    exact normal_create _ _

end TrafficSelector

end StrongSwan
