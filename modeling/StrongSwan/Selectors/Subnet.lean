import StrongSwan.Lib.Prefix
import StrongSwan.Selectors.Icmp

/-!
# The subnet of a selector

* `calcNetbits_spec`: what the loop over the bits finds, the length of the common prefix of two
  addresses and whether the rest of them is all zeros and all ones.
* `bit_maskAddress`, `bit_calcRange`: addresses cut off behind a prefix.
* **`toSubnet_exact`**: the subnet of a range is the smallest block around it, and that of a selector
  made of a subnet is that subnet.
-/

namespace StrongSwan

namespace TrafficSelector

open Bytes

/-! ## Prefix lengths -/

/-- A bit by its byte and its place in it. -/
def place (i : ℕ) : ℕ × ℕ := (i / 8, 7 - i % 8)

theorem places_eq (size : ℕ) :
    ((List.range size).flatMap fun byte => (List.range 8).reverse.map fun bit => (byte, bit)) =
      (List.range (8 * size)).map place := by
  induction size with
  | zero => rfl
  | succ size ih =>
    have hrange := @List.range_succ size
    rw [hrange, List.flatMap_append, ih, Nat.mul_succ, List.range_add, List.map_append]
    congr 1
    have hplace : ∀ i < 8, place (8 * size + i) = (size, 7 - i) := fun i hi => by
      rw [place, Nat.mul_add_div (by norm_num), Nat.mul_add_mod, Nat.div_eq_of_lt hi,
        Nat.mod_eq_of_lt hi]
      rfl
    have hfirst := hplace 0 (by norm_num)
    rw [Nat.add_zero] at hfirst
    rw [List.map_map]
    simp [List.range_succ, hplace, hfirst]

theorem calcNetbitsLoop_rest (from_ to_ : Chunk) (l : List ℕ) (netbits stored : U8) :
    calcNetbitsLoop from_ to_ (l.map place) false netbits stored =
      (netbits, if ∀ i ∈ l, bit from_ i = false ∧ bit to_ i = true then stored
        else NON_SUBNET_ADDRESS_RANGE) := by
  induction l with
  | nil => simp [calcNetbitsLoop]
  | cons i l ih =>
    rw [List.map_cons, place, calcNetbitsLoop]
    change (if false = true then _ else if (bit from_ i || !bit to_ i) = true then _ else _) = _
    rw [if_neg Bool.false_ne_true]
    cases hfrom : bit from_ i <;> cases hto : bit to_ i <;> simp [hfrom, hto, ih]

theorem calcNetbitsLoop_prefix (from_ to_ : Chunk) (l l' : List ℕ)
    (hl : ∀ i ∈ l, bit from_ i = bit to_ i) (netbits stored : U8) :
    calcNetbitsLoop from_ to_ ((l ++ l').map place) true netbits stored =
      calcNetbitsLoop from_ to_ (l'.map place) true netbits stored := by
  induction l with
  | nil => rfl
  | cons i l ih =>
    obtain ⟨hi, hl⟩ := List.forall_mem_cons.mp hl
    rw [List.cons_append, List.map_cons, place, calcNetbitsLoop]
    change (if true = true then (if bit from_ i ≠ bit to_ i then _ else _) else _) = _
    rw [if_pos rfl, if_neg (not_not.mpr hi)]
    exact ih hl

theorem calcNetbitsLoop_differ (from_ to_ : Chunk) {i : ℕ} (l : List ℕ)
    (hi : bit from_ i ≠ bit to_ i) (netbits stored : U8) :
    calcNetbitsLoop from_ to_ ((i :: l).map place) true netbits stored =
      calcNetbitsLoop from_ to_ (l.map place) false (BitVec.ofNat 8 i) (BitVec.ofNat 8 i) := by
  rw [List.map_cons, place, calcNetbitsLoop]
  change (if true = true then (if bit from_ i ≠ bit to_ i then _ else _) else _) = _
  rw [if_pos rfl, if_pos hi]
  have hbits : 7 - (7 - i % 8) + i / 8 * 8 = i := by omega
  rw [hbits]

/-- **What `calc_netbits` finds**: the first bit in which the addresses differ, and whether the
bits behind it are none and all. -/
theorem calcNetbits_spec {size : ℕ} (from_ to_ : Chunk) (hsize : size ≤ 16) :
    ∃ n ≤ 8 * size, (∀ i < n, bit from_ i = bit to_ i) ∧
      (n < 8 * size → bit from_ n ≠ bit to_ n) ∧
      (calcNetbits size from_ to_).1.toNat = n ∧
      ((calcNetbits size from_ to_).2 ≠ NON_SUBNET_ADDRESS_RANGE ↔
        ∀ i, n < i → i < 8 * size → bit from_ i = false ∧ bit to_ i = true) ∧
      ((calcNetbits size from_ to_).2 ≠ NON_SUBNET_ADDRESS_RANGE →
        (calcNetbits size from_ to_).2 = (calcNetbits size from_ to_).1) := by
  have htoNat : ∀ n ≤ 8 * size, (BitVec.ofNat 8 n).toNat = n := fun n hn => by
    rw [BitVec.toNat_ofNat]
    omega
  have hvalid : ∀ n ≤ 8 * size, BitVec.ofNat 8 n ≠ NON_SUBNET_ADDRESS_RANGE := fun n hn heq => by
    have hnat := congrArg BitVec.toNat heq
    rw [htoNat n hn] at hnat
    change n = 255 at hnat
    omega
  unfold calcNetbits
  dsimp only
  rw [places_eq]
  by_cases hall : ∀ i < 8 * size, bit from_ i = bit to_ i
  · have hloop := calcNetbitsLoop_prefix from_ to_ (List.range (8 * size)) []
      (fun i hi => hall i (List.mem_range.mp hi)) (BitVec.ofNat 8 (size * 8))
      (BitVec.ofNat 8 (size * 8))
    rw [List.append_nil] at hloop
    rw [hloop, mul_comm size]
    refine ⟨8 * size, le_rfl, hall, fun hlt => absurd hlt (lt_irrefl _), htoNat _ le_rfl, ?_,
      fun _ => rfl⟩
    exact iff_of_true (hvalid _ le_rfl) fun i hi hlt => absurd hi (by omega)
  · push Not at hall
    obtain ⟨hlt, hne⟩ := Nat.find_spec hall
    have hbefore : ∀ i < Nat.find hall, bit from_ i = bit to_ i := fun i hi => by
      have hmin := Nat.find_min hall hi
      push Not at hmin
      exact hmin (hi.trans hlt)
    generalize Nat.find hall = n at hlt hne hbefore
    obtain ⟨k, hk⟩ : ∃ k, 8 * size = n + (1 + k) := ⟨8 * size - n - 1, by omega⟩
    have hrange : List.range (8 * size) =
        List.range n ++ (n :: (List.range k).map (n + 1 + ·)) := by
      rw [hk, List.range_add, List.range_add, List.map_append, List.map_map]
      simp [Function.comp_def, add_assoc]
    rw [hrange, calcNetbitsLoop_prefix from_ to_ _ _ fun i hi => hbefore i (List.mem_range.mp hi),
      calcNetbitsLoop_differ from_ to_ _ hne, calcNetbitsLoop_rest]
    refine ⟨n, hlt.le, hbefore, fun _ => hne, htoNat n hlt.le, ?_, ?_⟩
    · dsimp only
      rw [ite_ne_right_iff, and_iff_left (hvalid n hlt.le), List.forall_mem_map]
      constructor
      · intro hrest i hi hlt
        have hbits := hrest (i - (n + 1)) (List.mem_range.mpr (by omega))
        rwa [show n + 1 + (i - (n + 1)) = i by omega] at hbits
      · intro hrest j hj
        have hj := List.mem_range.mp hj
        exact hrest _ (by omega) (by omega)
    · dsimp only
      rw [ite_ne_right_iff]
      exact fun h => if_pos h.1

/-! ## Addresses cut off behind a prefix -/

theorem getLsbD_mask {m i : ℕ} (hi : i / 8 = (m + 7) / 8 - 1) (hm : m ≠ 0) :
    (((255 <<< (8 * ((m + 7) / 8) - m) : ℕ)) : U8).getLsbD (7 - i % 8) = decide (i < m) := by
  have hpos := Nat.pos_of_ne_zero hm
  have hones : 255 = 2 ^ 8 - 1 := rfl
  rw [BitVec.natCast_eq_ofNat, BitVec.getLsbD_ofNat, Nat.testBit_shiftLeft, hones,
    Nat.testBit_two_pow_sub_one, Bool.eq_iff_iff]
  simp
  omega

theorem getLsbD_hostMask {m i : ℕ} (hi : i / 8 = (m + 7) / 8 - 1) (hm : m ≠ 0) :
    (if (m + 7) / 8 * 8 - m ≠ 0 then BitVec.ofNat 8 (2 ^ ((m + 7) / 8 * 8 - m) - 1)
      else (0 : U8)).getLsbD (7 - i % 8) = decide (m ≤ i) := by
  have hpos := Nat.pos_of_ne_zero hm
  split_ifs with hbits
  · rw [BitVec.getLsbD_ofNat, Nat.testBit_two_pow_sub_one, decide_eq_true (by omega), Bool.true_and,
      Bool.eq_iff_iff]
    simp
    omega
  · rw [decide_eq_false (by omega)]
    simp

theorem bit_network {address : Chunk} {m i k : ℕ} (g : U8 → U8) (fill : U8)
    (hlen : address.length = (m + 7) / 8 + k) (hi : i < 8 * address.length) :
    bit ((address.take ((m + 7) / 8)).modify ((m + 7) / 8 - 1) g ++ List.replicate k fill) i =
      if i < 8 * ((m + 7) / 8) then
        if i / 8 = (m + 7) / 8 - 1 then (g (address.getD (i / 8) 0)).getLsbD (7 - i % 8)
        else bit address i
      else fill.getLsbD (7 - i % 8) := by
  have htake : (address.take ((m + 7) / 8)).length = (m + 7) / 8 := by
    rw [List.length_take]
    omega
  rw [bit_append, List.length_modify, htake]
  by_cases hlast : i < 8 * ((m + 7) / 8)
  · rw [if_pos hlast, if_pos hlast, bit_modify g (by omega), bit_take hlast]
    by_cases hbyte : i / 8 = (m + 7) / 8 - 1
    · rw [if_pos hbyte, if_pos hbyte, hbyte, List.getD_eq_getElem?_getD,
        List.getElem?_take_of_lt (by omega), ← List.getD_eq_getElem?_getD]
    · rw [if_neg hbyte, if_neg hbyte]
  · rw [if_neg hlast, if_neg hlast, bit_replicate fill (by omega)]
    congr 2
    omega

theorem bit_maskAddress {address : Chunk} {m i : ℕ} (hm : m ≤ 8 * address.length)
    (hi : i < 8 * address.length) :
    bit (maskAddress address m) i = (decide (i < m) && bit address i) := by
  unfold maskAddress
  by_cases hzero : m = 0
  · rw [if_pos hzero, bit_replicate 0 hi, hzero]
    simp
  · rw [if_neg hzero]
    dsimp only
    rw [bit_network _ _ (by omega) hi]
    split_ifs with hlast hbyte
    · rw [BitVec.getLsbD_and, getLsbD_mask hbyte hzero, Bool.and_comm]
      rfl
    · rw [decide_eq_true (by omega), Bool.true_and]
    · rw [decide_eq_false (by omega)]
      simp

theorem bit_calcRange {len m i : ℕ} {address : Chunk} (hlen : address.length = len)
    (hm : m ≤ 8 * len) (hi : i < 8 * len) :
    bit (calcRange len address m).1 i = (decide (i < m) && bit address i) ∧
      bit (calcRange len address m).2 i = (decide (m ≤ i) || bit address i) := by
  subst hlen
  by_cases hzero : m = 0
  · subst hzero
    have hand : (fun b : U8 => b &&& ~~~0) = id := by
      funext b
      exact BitVec.and_allOnes
    have hor : (fun b : U8 => b ||| 0) = id := by
      funext b
      simp
    have hnone : calcRange address.length address 0 =
        (List.replicate address.length 0, List.replicate address.length 0xff) := by
      change ((List.replicate _ _).modify 0 (fun b : U8 => b &&& ~~~0),
        (List.replicate _ _).modify 0 (fun b : U8 => b ||| 0)) = _
      rw [hand, hor, List.modify_id, List.modify_id]
      rfl
    have hones : (0xff : U8) = BitVec.allOnes 8 := rfl
    rw [hnone]
    dsimp only
    rw [bit_replicate _ hi, bit_replicate _ hi, hones, BitVec.getLsbD_allOnes,
      decide_eq_true (show 7 - i % 8 < 8 by omega)]
    simp
  · have htake : (m + 7) / 8 - 1 < (address.take ((m + 7) / 8)).length := by
      rw [List.length_take]
      omega
    have hones : (0xff : U8) = BitVec.allOnes 8 := rfl
    unfold calcRange
    dsimp only
    rw [modify_append_left _ htake, modify_append_left _ htake, bit_network _ _ (by omega) hi,
      bit_network _ _ (by omega) hi]
    by_cases hlast : i < 8 * ((m + 7) / 8)
    · rw [if_pos hlast, if_pos hlast]
      by_cases hbyte : i / 8 = (m + 7) / 8 - 1
      · rw [if_pos hbyte, if_pos hbyte, BitVec.getLsbD_and, BitVec.getLsbD_or, BitVec.getLsbD_not,
          getLsbD_hostMask hbyte hzero, decide_eq_true (show 7 - i % 8 < 8 by omega)]
        have hnot : decide (i < m) = !decide (m ≤ i) := by simp [← decide_not]
        rw [hnot, Bool.true_and, Bool.and_comm, Bool.or_comm]
        exact ⟨rfl, rfl⟩
      · rw [if_neg hbyte, if_neg hbyte, decide_eq_true (by omega), decide_eq_false (by omega)]
        simp
    · rw [if_neg hlast, if_neg hlast, hones, BitVec.getLsbD_allOnes, decide_eq_false (by omega),
        decide_eq_true (by omega), decide_eq_true (by omega)]
      simp

/-! ## The subnet of a range -/

/-- The selectors that hold a range of addresses as they were given it. -/
inductive Ranged : TrafficSelector → Prop
  | fromBytes {protocol type from_ fromPort to_ toPort ts} :
    createFromBytes protocol type from_ fromPort to_ toPort = some ts → Ranged ts
  | fromString {inetPton protocol type fromAddr fromPort toAddr toPort ts} :
    createFromString inetPton protocol type fromAddr fromPort toAddr toPort = some ts → Ranged ts
  | subset {this other ts} : getSubset this other = some ts → Ranged ts

variable {ts : TrafficSelector}

theorem Ranged.netbits_eq (h : Ranged ts) :
    ts.netbits = (calcNetbits ts.type.len ts.from_ ts.to_).2 := by
  cases h with
  | fromBytes h =>
    unfold createFromBytes at h
    split_ifs at h
    cases h
    rfl
  | fromString h =>
    unfold createFromString at h
    split at h
    · cases h
      rfl
    · cases h
  | subset h =>
    obtain ⟨_, _, _, _, _, _, -, -, -, -, -, -, -, -, rfl⟩ := eq_create_of_getSubset h
    rfl

theorem Ranged.mask_spec (h : Ranged ts) :
    (∀ i < ts.mask.toNat, bit ts.from_ i = bit ts.to_ i) ∧
      (ts.mask.toNat < 8 * ts.type.len → bit ts.from_ ts.mask.toNat ≠ bit ts.to_ ts.mask.toNat) ∧
      (ts.netbits ≠ NON_SUBNET_ADDRESS_RANGE ↔ ∀ i, ts.mask.toNat < i → i < 8 * ts.type.len →
        bit ts.from_ i = false ∧ bit ts.to_ i = true) := by
  obtain ⟨n, -, hbefore, hne, hmask, hnet, hstored⟩ :=
    calcNetbits_spec ts.from_ ts.to_ (len_le ts.type)
  rw [← h.netbits_eq] at hnet hstored
  have heq : ts.mask.toNat = n := by
    unfold mask
    split_ifs with hnon
    · exact hmask
    · rw [hstored hnon, hmask]
  rw [heq]
  exact ⟨hbefore, hne, hnet⟩

theorem bit_net (ts : TrafficSelector) {i : ℕ} (hi : i < 8 * ts.type.len) :
    bit ts.toSubnet.2.1.address i = (decide (i < ts.mask.toNat) && bit ts.from_ i) :=
  bit_maskAddress (by rw [ts.length_from]; exact ts.mask_le) (by rwa [ts.length_from])

/-- The smallest subnet around a range. -/
structure Encloses (size : ℕ) (range : Set ℕ) (exact : Bool) (net mask : ℕ) : Prop where
  mask_le : mask ≤ size
  subset : range ⊆ block size mask net
  smallest : ∀ m, mask < m → m ≤ size → ∀ x, ¬range ⊆ block size m x
  /-- no host bits -/
  net_mod : net % 2 ^ (size - mask) = 0
  exact_iff : exact = true ↔ block size mask net = range

theorem Ranged.encloses (h : Ranged ts)
    (hle : Bytes.value ts.from_ ≤ Bytes.value ts.to_) :
    Encloses (8 * ts.type.len) (Set.Icc (Bytes.value ts.from_) (Bytes.value ts.to_)) ts.toSubnet.1
      (Bytes.value ts.toSubnet.2.1.address) ts.toSubnet.2.2.toNat := by
  obtain ⟨hbefore, hne, hnet⟩ := h.mask_spec
  have hmask := ts.mask_le
  have hlenNet : ts.toSubnet.2.1.address.length = ts.type.len := by
    rw [ts.toSubnet.2.1.length_address]
    exact ts.type.len_family
  have hsame : ts.from_.length = ts.to_.length := ts.length_from.trans ts.length_to.symm
  -- the addresses share the first bits
  have hfrom : Bytes.value ts.from_ ∈
      block (8 * ts.type.len) ts.mask.toNat (Bytes.value ts.toSubnet.2.1.address) := by
    rw [← ts.length_from, value_mem_block (by rw [ts.length_from, hlenNet])
      (by rwa [ts.length_from])]
    intro i hi
    rw [bit_net ts (by omega), decide_eq_true hi, Bool.true_and]
  have hto : Bytes.value ts.to_ ∈ block (8 * ts.type.len) ts.mask.toNat (Bytes.value ts.from_) := by
    rw [← ts.length_to, value_mem_block hsame.symm (by rwa [ts.length_to])]
    exact fun i hi => (hbefore i hi).symm
  have hblock := block_congr hfrom
  rw [show ts.toSubnet.2.2 = ts.mask from rfl]
  constructor
  case mask_le => exact hmask
  case subset =>
    intro y hy
    rw [← hblock]
    exact mem_block_of_mem (mem_block_self _ _ _) hto hy.1 hy.2
  case smallest =>
    intro m hm hsize x hsub
    have hx := block_congr (hsub (Set.right_mem_Icc.mpr hle))
    have hmem := hsub (Set.left_mem_Icc.mpr hle)
    rw [← hx, ← ts.length_from, value_mem_block hsame (by rwa [ts.length_from])] at hmem
    exact hne (by omega) (hmem _ hm)
  case net_mod =>
    have hzero := value_mod_eq_zero_iff
      (by rwa [hlenNet] : ts.mask.toNat ≤ 8 * ts.toSubnet.2.1.address.length)
    rw [hlenNet] at hzero
    rw [hzero]
    intro i hi hlt
    rw [bit_net ts hlt, decide_eq_false (by omega), Bool.false_and]
  case exact_iff =>
    have hexact : ts.toSubnet.1 = true ↔ ts.netbits ≠ NON_SUBNET_ADDRESS_RANGE := decide_eq_true_iff
    rw [hexact, hnet, ← hblock, block_eq_Icc_iff hto]
    have hzero :=
      value_mod_eq_zero_iff (by rwa [ts.length_from] : ts.mask.toNat ≤ 8 * ts.from_.length)
    have hmax := value_mod_eq_max_iff (by rwa [ts.length_to] : ts.mask.toNat ≤ 8 * ts.to_.length)
    rw [ts.length_from] at hzero
    rw [ts.length_to] at hmax
    rw [hzero, hmax]
    constructor
    · intro hrest
      have hall : ∀ i, ts.mask.toNat ≤ i → i < 8 * ts.type.len →
          bit ts.from_ i = false ∧ bit ts.to_ i = true := fun i hi hlt => by
        rcases hi.lt_or_eq with hi | rfl
        · exact hrest i hi hlt
        · rw [← ts.length_from] at hlt
          refine bit_of_value_le hsame hle hlt hbefore (hne ?_)
          rwa [ts.length_from] at hlt
      exact ⟨fun i hi hlt => (hall i hi hlt).1, fun i hi hlt => (hall i hi hlt).2⟩
    · rintro ⟨hfirst, hlast⟩ i hi hlt
      exact ⟨hfirst i hi.le hlt, hlast i hi.le hlt⟩

/-! ## The subnet of a subnet -/

theorem includes_iff (ts : TrafficSelector) (host : Host) :
    ts.includes host = true ↔ host.family = ts.type.family ∧
      Bytes.value host.address ∈ Set.Icc (Bytes.value ts.from_) (Bytes.value ts.to_) := by
  unfold includes
  by_cases hfamily : host.family = ts.type.family
  · have hlen : host.address.length = ts.type.len := by
      rw [host.length_address, hfamily, TsType.len_family]
    rw [if_pos hfamily, Bytes.lexCmp_eq_compare (ts.length_from.trans hlen.symm),
      Bytes.lexCmp_eq_compare (ts.length_to.trans hlen.symm), Bool.and_eq_true, decide_eq_true_eq,
      decide_eq_true_eq, compare_le_iff_le, compare_ge_iff_ge]
    exact (and_iff_right hfamily).symm
  · rw [if_neg hfamily]
    exact iff_of_false Bool.false_ne_true fun h => hfamily h.1

theorem createFromSubnet_spec (net : Host) (netbits protocol : U8) (fromPort toPort : U16) :
    let ts := createFromSubnet net netbits protocol fromPort toPort
    let size := 8 * ts.type.len
    let mask := min netbits.toNat size
    ts.netbits ≠ NON_SUBNET_ADDRESS_RANGE ∧ ts.mask.toNat = mask ∧
      ts.toSubnet.2.1.address = ts.from_ ∧
      Bytes.value ts.from_ = Bytes.value net.address / 2 ^ (size - mask) * 2 ^ (size - mask) ∧
      block size mask (Bytes.value net.address) =
        Set.Icc (Bytes.value ts.from_) (Bytes.value ts.to_) := by
  intro ts size mask
  have hmask : mask ≤ size := min_le_right _ _
  have hsize : ts.type.len ≤ 16 := len_le ts.type
  have hlen : net.address.length = ts.type.len := net.length_address.trans (len_typeOf _).symm
  have htoNat : ts.netbits.toNat = mask := by
    change (BitVec.ofNat 8 mask).toNat = mask
    rw [BitVec.toNat_ofNat]
    omega
  have hnetbits : ts.netbits ≠ NON_SUBNET_ADDRESS_RANGE := fun heq => by
    rw [heq] at htoNat
    change 255 = mask at htoNat
    omega
  have hbits : ∀ i < size, bit ts.from_ i = (decide (i < mask) && bit net.address i) ∧
      bit ts.to_ i = (decide (mask ≤ i) || bit net.address i) :=
    fun i hi => bit_calcRange hlen hmask hi
  have hfrom : Bytes.value ts.from_ ∈ block size mask (Bytes.value net.address) := by
    have hiff := value_mem_block (ts.length_from.trans hlen.symm)
      (by rwa [ts.length_from] : mask ≤ 8 * ts.from_.length)
    rw [ts.length_from] at hiff
    refine hiff.mpr fun i hi => ?_
    rw [(hbits i (by omega)).1, decide_eq_true hi, Bool.true_and]
  have hto : Bytes.value ts.to_ ∈ block size mask (Bytes.value ts.from_) := by
    have hiff := value_mem_block (ts.length_to.trans ts.length_from.symm)
      (by rwa [ts.length_to] : mask ≤ 8 * ts.to_.length)
    rw [ts.length_to] at hiff
    refine hiff.mpr fun i hi => ?_
    rw [(hbits i (by omega)).1, (hbits i (by omega)).2, decide_eq_true hi, Bool.true_and,
      decide_eq_false (by omega), Bool.false_or]
  have hzero : Bytes.value ts.from_ % 2 ^ (size - mask) = 0 := by
    have hiff := value_mod_eq_zero_iff (by rwa [ts.length_from] : mask ≤ 8 * ts.from_.length)
    rw [ts.length_from] at hiff
    refine hiff.mpr fun i hi hlt => ?_
    rw [(hbits i hlt).1, decide_eq_false (by omega), Bool.false_and]
  have hmax : Bytes.value ts.to_ % 2 ^ (size - mask) = 2 ^ (size - mask) - 1 := by
    have hiff := value_mod_eq_max_iff (by rwa [ts.length_to] : mask ≤ 8 * ts.to_.length)
    rw [ts.length_to] at hiff
    refine hiff.mpr fun i hi hlt => ?_
    rw [(hbits i hlt).2, decide_eq_true hi, Bool.true_or]
  have hmaskEq : ts.mask.toNat = mask := by rw [TrafficSelector.mask, if_neg hnetbits, htoNat]
  have hlenNet : ts.toSubnet.2.1.address.length = ts.from_.length :=
    length_maskAddress _ (by rw [ts.length_from]; exact ts.mask_le)
  refine ⟨hnetbits, hmaskEq, ?_, ?_, ?_⟩
  · refine eq_of_bits hlenNet fun i hi => ?_
    rw [hlenNet, ts.length_from] at hi
    rw [bit_net ts hi, hmaskEq, (hbits i hi).1, Bool.and_self_left]
  · have hdiv : Bytes.value ts.from_ / 2 ^ (size - mask) =
        Bytes.value net.address / 2 ^ (size - mask) := hfrom
    rw [← hdiv]
    exact (Nat.div_mul_cancel (Nat.dvd_of_mod_eq_zero hzero)).symm
  · rw [← block_congr hfrom, (block_eq_Icc_iff hto).mpr ⟨hzero, hmax⟩]

/-- **The subnet of a selector** is the smallest one around its range, and it is the range if
`to_subnet` says so. The subnet of a selector made of a subnet is that one without host bits, and the
selector includes the hosts that share its prefix. -/
theorem toSubnet_exact :
    (∀ ts : TrafficSelector, Ranged ts → Bytes.value ts.from_ ≤ Bytes.value ts.to_ →
      ts.toSubnet.2.1.family = ts.type.family ∧
      Encloses (8 * ts.type.len) (Set.Icc (Bytes.value ts.from_) (Bytes.value ts.to_)) ts.toSubnet.1
        (Bytes.value ts.toSubnet.2.1.address) ts.toSubnet.2.2.toNat) ∧
    ∀ (net : Host) (netbits protocol : U8) (fromPort toPort : U16),
      let ts := createFromSubnet net netbits protocol fromPort toPort
      let size := 8 * net.family.len
      let mask := min netbits.toNat size
      ts.toSubnet.1 = true ∧ ts.toSubnet.2.2.toNat = mask ∧ ts.toSubnet.2.1.family = net.family ∧
        Bytes.value ts.toSubnet.2.1.address =
          Bytes.value net.address / 2 ^ (size - mask) * 2 ^ (size - mask) ∧
        ∀ host : Host, ts.includes host = true ↔ host.family = net.family ∧
          Bytes.value host.address ∈ block size mask (Bytes.value net.address) := by
  constructor
  · exact fun ts hranged hle => ⟨rfl, hranged.encloses hle⟩
  · intro net netbits protocol fromPort toPort ts size mask
    obtain ⟨hnetbits, hmask, haddress, hfrom, hblock⟩ :=
      createFromSubnet_spec net netbits protocol fromPort toPort
    have hlen : ts.type.len = net.family.len := len_typeOf net.family
    have hfamily : ts.type.family = net.family := by
      change (typeOf net.family).family = _
      cases net.family <;> rfl
    change ts.mask.toNat = min _ (8 * ts.type.len) at hmask
    change Bytes.value ts.from_ = _ / 2 ^ (8 * ts.type.len - min _ (8 * ts.type.len)) * _ at hfrom
    change block (8 * ts.type.len) (min _ (8 * ts.type.len)) _ = _ at hblock
    rw [hlen] at hmask hfrom hblock
    refine ⟨decide_eq_true hnetbits, hmask, hfamily, ?_, fun host => ?_⟩
    · rw [← hfrom]
      exact congrArg Bytes.value haddress
    · rw [includes_iff, hfamily, hblock]

/-- The range from 10.0.0.0 to 10.0.0.5 is in 10.0.0.0/29, which is larger. -/
theorem toSubnet_exact_ten :
    ∃ ts : TrafficSelector,
      createFromBytes 0 .ipv4AddrRange [10, 0, 0, 0] 0 [10, 0, 0, 5] 65535 = some ts ∧
      ts.toSubnet.1 = false ∧ ts.toSubnet.2.2 = 29 ∧
      Encloses 32 (Set.Icc (Bytes.value ts.from_) (Bytes.value ts.to_)) ts.toSubnet.1
        (Bytes.value ts.toSubnet.2.1.address) ts.toSubnet.2.2.toNat := by
  have hsome : createFromBytes 0 .ipv4AddrRange [10, 0, 0, 0] 0 [10, 0, 0, 5] 65535 =
      some (create 0 .ipv4AddrRange [10, 0, 0, 0] 0 [10, 0, 0, 5] 65535 rfl rfl) := rfl
  refine ⟨_, hsome, by decide, by decide, ?_⟩
  exact (toSubnet_exact.1 _ (.fromBytes hsome) (by decide)).2

end TrafficSelector

end StrongSwan
