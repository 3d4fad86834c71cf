import StrongSwan.Networking.Host
import StrongSwan.Utils.ChunkHash

/-!
# Traffic selectors

`TrafficSelector` is a range of addresses and ports with a protocol. The addresses have the length
of their type, and `netbits` is a prefix length or marks a range that is not a subnet, as
`calcNetbits` found it.

* `getSubset`: narrow a selector to what another one allows.
* `trafficSelectorCmp`, `equals`: the order of selectors.
* `includes`, `toSubnet`, `clone`: what policies read from a selector.
* `hash`, **`equals_iff`**: equal selectors have the same addresses, protocol and ports.
* `calcNetbits_le`, `mask_toSubnet_le`: prefix lengths are at most the length of an address.
-/

namespace StrongSwan

inductive TsType
  | ipv4AddrRange
  | ipv6AddrRange
  deriving DecidableEq, Repr

namespace TsType

/-- `TS_IP_LEN` -/
def len : TsType → ℕ
  | .ipv4AddrRange => 4
  | .ipv6AddrRange => 16

def family : TsType → Family
  | .ipv4AddrRange => .inet
  | .ipv6AddrRange => .inet6

/-- The value on the wire. -/
def toNat : TsType → ℕ
  | .ipv4AddrRange => 7
  | .ipv6AddrRange => 8

theorem len_family (type : TsType) : type.family.len = type.len := by cases type <;> rfl

end TsType

def IPPROTO_ICMP : U8 := 1

def IPPROTO_ICMPV6 : U8 := 58

def NON_SUBNET_ADDRESS_RANGE : U8 := 255

/-! ## Prefix lengths -/

/-- The loop of `calcNetbits` over the remaining bits, each given by its byte and its place in it:
the prefix length, and the one stored in the selector. -/
def calcNetbitsLoop (from_ to_ : Chunk) : List (ℕ × ℕ) → Bool → U8 → U8 → U8 × U8
  | [], _, netbits, stored => (netbits, stored)
  | (byte, bit) :: rest, common, netbits, stored =>
    let f := (from_.getD byte 0).getLsbD bit
    let t := (to_.getD byte 0).getLsbD bit
    if common then
      if f ≠ t then
        -- store the common prefix which might be a true subnet
        let netbits := BitVec.ofNat 8 (7 - bit + byte * 8)
        calcNetbitsLoop from_ to_ rest false netbits netbits
      else calcNetbitsLoop from_ to_ rest true netbits stored
    else if f || !t then (netbits, NON_SUBNET_ADDRESS_RANGE)
    else calcNetbitsLoop from_ to_ rest false netbits stored

/-- The subnet size from the "to" and "from" addresses: that of the smallest subnet around them, and
the one to store, which tells whether they are a subnet. -/
def calcNetbits (size : ℕ) (from_ to_ : Chunk) : U8 × U8 :=
  let bits := (List.range size).flatMap fun byte => (List.range 8).reverse.map fun bit => (byte, bit)
  calcNetbitsLoop from_ to_ bits true (BitVec.ofNat 8 (size * 8)) (BitVec.ofNat 8 (size * 8))

theorem calcNetbitsLoop_le (from_ to_ : Chunk) {size : ℕ} (bits : List (ℕ × ℕ))
    (hbits : ∀ p ∈ bits, p.1 < size) (common : Bool) {netbits stored : U8}
    (hnetbits : netbits.toNat ≤ 8 * size) (hstored : stored.toNat ≤ 8 * size) :
    (calcNetbitsLoop from_ to_ bits common netbits stored).1.toNat ≤ 8 * size ∧
      ((calcNetbitsLoop from_ to_ bits common netbits stored).2.toNat ≤ 8 * size ∨
        (calcNetbitsLoop from_ to_ bits common netbits stored).2 = NON_SUBNET_ADDRESS_RANGE) := by
  induction bits generalizing common netbits stored with
  | nil => exact ⟨hnetbits, .inl hstored⟩
  | cons p bits ih =>
    obtain ⟨byte, bit⟩ := p
    have hbyte : byte < size := hbits _ List.mem_cons_self
    have ih := ih fun p hp => hbits p (List.mem_cons_of_mem _ hp)
    have hprefix : (BitVec.ofNat 8 (7 - bit + byte * 8)).toNat ≤ 8 * size := by
      rw [BitVec.toNat_ofNat]
      omega
    rw [calcNetbitsLoop]
    dsimp only
    split_ifs
    · exact ih false hprefix hprefix
    · exact ih true hnetbits hstored
    · exact ⟨hnetbits, .inr rfl⟩
    · exact ih false hnetbits hstored

theorem calcNetbits_le (size : ℕ) (from_ to_ : Chunk) :
    (calcNetbits size from_ to_).1.toNat ≤ 8 * size ∧
      ((calcNetbits size from_ to_).2.toNat ≤ 8 * size ∨
        (calcNetbits size from_ to_).2 = NON_SUBNET_ADDRESS_RANGE) := by
  have hinit : (BitVec.ofNat 8 (size * 8)).toNat ≤ 8 * size := by
    rw [BitVec.toNat_ofNat]
    omega
  refine calcNetbitsLoop_le from_ to_ _ (fun p hp => ?_) true hinit hinit
  obtain ⟨byte, hbyte, hp⟩ := List.mem_flatMap.mp hp
  obtain ⟨bit, -, rfl⟩ := List.mem_map.mp hp
  exact List.mem_range.mp hbyte

/-! ## Selectors -/

structure TrafficSelector where
  type : TsType
  /-- IP protocol (UDP, TCP, ICMP, ...) -/
  protocol : U8
  /-- narrow this traffic selector to hosts external ip -/
  dynamic : Bool
  /-- subnet size in CIDR notation, 255 means a non-subnet address range -/
  netbits : U8
  /-- begin of address range, network order -/
  from_ : Chunk
  /-- end of address range, network order -/
  to_ : Chunk
  fromPort : U16
  toPort : U16
  length_from : from_.length = type.len
  length_to : to_.length = type.len
  netbits_valid : netbits.toNat ≤ 8 * type.len ∨
    netbits = NON_SUBNET_ADDRESS_RANGE ∧
      (calcNetbits type.len from_ to_).2 = NON_SUBNET_ADDRESS_RANGE
  deriving DecidableEq

namespace TrafficSelector

theorem len_le (type : TsType) : type.len ≤ 16 := by cases type <;> decide

def isOpaque (this : TrafficSelector) : Bool := this.fromPort = 0xffff && this.toPort = 0

def isAny (this : TrafficSelector) : Bool := this.fromPort = 0 && this.toPort = 0xffff

/-- The ports `traffic_selector_create` stores: type and code for ICMP. -/
def storedPort (protocol : U8) (port : U16) : U16 :=
  if protocol = IPPROTO_ICMP ∨ protocol = IPPROTO_ICMPV6 then
    if port < 256 then port <<< 8 else port
  else port

/-- `traffic_selector_create`, with the addresses copied and `calc_netbits` called. -/
def create (protocol : U8) (type : TsType) (from_ : Chunk) (fromPort : U16) (to_ : Chunk)
    (toPort : U16) (length_from : from_.length = type.len) (length_to : to_.length = type.len) :
    TrafficSelector where
  type := type
  protocol := protocol
  dynamic := false
  netbits := (calcNetbits type.len from_ to_).2
  from_ := from_
  to_ := to_
  fromPort := storedPort protocol fromPort
  toPort := storedPort protocol toPort
  length_from := length_from
  length_to := length_to
  netbits_valid := (calcNetbits_le _ _ _).2.imp_right fun h => ⟨h, h⟩

def createFromBytes (protocol : U8) (type : TsType) (from_ : Chunk) (fromPort : U16) (to_ : Chunk)
    (toPort : U16) : Option TrafficSelector :=
  if h : from_.length = to_.length ∧ from_.length = type.len then
    some (create protocol type from_ fromPort to_ toPort h.2 (h.1.symm.trans h.2))
  else none

def subsetPorts (this other : TrafficSelector) : Option (U16 × U16) :=
  if (this.isOpaque && other.isOpaque) || (this.isOpaque && other.isAny) ||
      (other.isOpaque && this.isAny) then some (0xffff, 0)
  else
    -- the maximum port range allowed for both
    let fromPort := umax this.fromPort other.fromPort
    let toPort := umin this.toPort other.toPort
    if fromPort > toPort then none else some (fromPort, toPort)

def getSubset (this other : TrafficSelector) : Option TrafficSelector :=
  if this.dynamic || other.dynamic then
    -- no set_address() applied, TS has no subset
    none
  else if htype : this.type ≠ other.type then none
  else if this.protocol ≠ other.protocol ∧ this.protocol ≠ 0 ∧ other.protocol ≠ 0 then none
  else
    -- select protocol, which is not zero
    let protocol := umax this.protocol other.protocol
    match this.subsetPorts other with
    | none => none
    | some (fromPort, toPort) =>
      let thisFrom := Bytes.lexCmp this.from_ other.from_ = .gt
      let otherTo := Bytes.lexCmp this.to_ other.to_ = .gt
      let from_ := if thisFrom then this.from_ else other.from_
      let to_ := if otherTo then other.to_ else this.to_
      if Bytes.lexCmp from_ to_ = .gt then none
      else
        -- we have a match in protocol, port, and address: return it
        have heq : this.type = other.type := not_not.mp htype
        have hfrom : from_.length = this.type.len := by
          by_cases h : thisFrom
          · simp only [from_, if_pos h, this.length_from]
          · simp only [from_, if_neg h, other.length_from, heq]
        have hto : to_.length = this.type.len := by
          by_cases h : otherTo
          · simp only [to_, if_pos h, other.length_to, heq]
          · simp only [to_, if_neg h, this.length_to]
        some (create protocol this.type from_ fromPort to_ toPort hfrom hto)

/-- Compare two integers. -/
def compareInt (a b : ℕ) : Ordering := compare a b

/-- `traffic_selector_cmp`, by the sign of its result. -/
def trafficSelectorCmp (a b : TrafficSelector) : Ordering :=
  -- IPv4 before IPv6
  (compareInt a.type.toNat b.type.toNat).then <|
  -- lower starting subnets first
  (Bytes.lexCmp a.from_ b.from_).then <|
  -- larger subnets first
  (Bytes.lexCmp b.to_ a.to_).then <|
  -- lower protocols first
  (compareInt a.protocol.toNat b.protocol.toNat).then <|
  -- lower starting ports first
  (compareInt a.fromPort.toNat b.fromPort.toNat).then <|
  -- larger port ranges first
  compareInt b.toPort.toNat a.toPort.toNat

def equals (this other : TrafficSelector) : Bool := trafficSelectorCmp this other = .eq

def includes (this : TrafficSelector) (host : Host) : Bool :=
  if host.family = this.type.family then
    Bytes.lexCmp this.from_ host.address ≠ .gt && Bytes.lexCmp this.to_ host.address ≠ .lt
  else false

/-- The mask `to_subnet` returns: the stored one, or that of a pseudo subnet. -/
def mask (this : TrafficSelector) : U8 :=
  if this.netbits = NON_SUBNET_ADDRESS_RANGE then (calcNetbits this.type.len this.from_ this.to_).1
  else this.netbits

/-- The port `to_subnet` returns. -/
def port (this : TrafficSelector) : U16 := if this.toPort = this.fromPort then this.toPort else 0

/-- The first `mask` bits of an address. -/
def maskAddress (address : Chunk) (mask : ℕ) : Chunk :=
  if mask = 0 then List.replicate address.length 0
  else
    let nonZeroBytes := (mask + 7) / 8
    ((address.take nonZeroBytes).modify (nonZeroBytes - 1)
      fun b => b &&& 0xff <<< (8 * nonZeroBytes - mask)) ++
      List.replicate (address.length - nonZeroBytes) 0

theorem length_maskAddress (address : Chunk) {mask : ℕ} (h : mask ≤ 8 * address.length) :
    (maskAddress address mask).length = address.length := by
  unfold maskAddress
  split_ifs
  · simp
  · simp
    omega

theorem mask_le (this : TrafficSelector) : this.mask.toNat ≤ 8 * this.type.len := by
  unfold mask
  split_ifs with h
  · exact (calcNetbits_le _ _ _).1
  · exact this.netbits_valid.resolve_right fun hv => h hv.1

/-- `to_subnet`: whether the selector is a subnet, that subnet or one around it, and its mask. The
prefix length of a pseudo subnet is computed again and stored as it was. -/
def toSubnet (this : TrafficSelector) : Bool × Host × U8 :=
  let net : Host := {
    family := this.type.family
    address := maskAddress this.from_ this.mask.toNat
    port := this.port
    length_address := by
      rw [length_maskAddress _ (by rw [this.length_from]; exact this.mask_le), this.length_from,
        TsType.len_family] }
  (this.netbits ≠ NON_SUBNET_ADDRESS_RANGE, net, this.mask)

/-- `clone`: the ports pass through the constructor again. -/
def clone (this : TrafficSelector) : TrafficSelector :=
  { this with
    fromPort := storedPort this.protocol this.fromPort
    toPort := storedPort this.protocol this.toPort }

theorem mask_toSubnet_le (this : TrafficSelector) : this.toSubnet.2.2.toNat ≤ 128 := by
  have hmask := this.mask_le
  have hlen := len_le this.type
  change this.mask.toNat ≤ 128
  omega

/-! ## Equal selectors -/

/-- `hash`, with the secret key -/
def hash (key : Chunk) (this : TrafficSelector) (hash : U32) : U32 :=
  chunkHashInc key this.from_ <| chunkHashInc key this.to_ <|
    chunkHashInc key (chunkFromThing this.fromPort) <|
    chunkHashInc key (chunkFromThing this.toPort) <|
    chunkHashInc key (chunkFromThing this.protocol) hash

structure Selection where
  type : TsType
  from_ : Chunk
  to_ : Chunk
  protocol : U8
  fromPort : U16
  toPort : U16
  deriving DecidableEq

/-- What `equals` compares. -/
def compared (this : TrafficSelector) : Selection :=
  ⟨this.type, this.from_, this.to_, this.protocol, this.fromPort, this.toPort⟩

/-- **Equal selectors have the same addresses, protocol and ports.** -/
theorem equals_iff {a b : TrafficSelector} : a.equals b = true ↔ a.compared = b.compared := by
  have htype : a.type.toNat = b.type.toNat ↔ a.type = b.type := by
    cases a.type <;> cases b.type <;> decide
  rw [equals, decide_eq_true_eq, trafficSelectorCmp, compared, compared, Selection.mk.injEq]
  simp only [Ordering.then_eq_eq, compareInt, compare_eq_iff_eq, htype, BitVec.toNat_inj]
  constructor
  · rintro ⟨hsame, hfrom, hto, hprotocol, hfromPort, htoPort⟩
    have hlenFrom : a.from_.length = b.from_.length := by rw [a.length_from, b.length_from, hsame]
    have hlenTo : b.to_.length = a.to_.length := by rw [a.length_to, b.length_to, hsame]
    rw [Bytes.lexCmp_eq_compare hlenFrom, compare_eq_iff_eq, Bytes.value_inj hlenFrom] at hfrom
    rw [Bytes.lexCmp_eq_compare hlenTo, compare_eq_iff_eq, Bytes.value_inj hlenTo] at hto
    exact ⟨hsame, hfrom, hto.symm, hprotocol, hfromPort, htoPort.symm⟩
  · rintro ⟨hsame, hfrom, hto, hprotocol, hfromPort, htoPort⟩
    rw [hfrom, hto, Bytes.lexCmp_eq_compare rfl, Bytes.lexCmp_eq_compare rfl, compare_eq_iff_eq,
      compare_eq_iff_eq]
    exact ⟨hsame, rfl, rfl, hprotocol, hfromPort, htoPort.symm⟩

theorem hash_eq {a b : TrafficSelector} (h : a.compared = b.compared) (key : Chunk) (hash : U32) :
    a.hash key hash = b.hash key hash := by
  obtain ⟨-, hfrom, hto, hprotocol, hfromPort, htoPort⟩ := Selection.mk.inj h
  rw [TrafficSelector.hash, TrafficSelector.hash, hfrom, hto, hprotocol, hfromPort, htoPort]

/-- The selection of a selector, with ports as the constructor stores them. -/
def selection (this : TrafficSelector) : Selection := this.clone.compared

theorem storedPort_storedPort (protocol : U8) (port : U16) :
    storedPort protocol (storedPort protocol port) = storedPort protocol port := by
  unfold storedPort
  split_ifs with hicmp hport hshift
  · rw [BitVec.lt_def, BitVec.toNat_shiftLeft, Nat.shiftLeft_eq] at hshift
    have hzero : port = 0 := by
      rw [BitVec.lt_def] at hport
      bv_omega
    rw [hzero]
    rfl
  all_goals rfl

@[simp] theorem clone_clone (this : TrafficSelector) : this.clone.clone = this.clone := by
  simp [clone, storedPort_storedPort]

end TrafficSelector

end StrongSwan
