import StrongSwan.Lib.Prefix
import StrongSwan.Networking.Host
import StrongSwan.Utils.Identification.Matching

/-!
# Addresses, subnets and ranges

An address matches subnets and ranges of its family. The netmask of a subnet is made a number of bits
first, and this says how many bytes are compared.

* `netmaskToCidr`, `Identification.matchesRange`, `createIpAddressFromString`.
* `matchesInterval_iff`: ranges are those of the addresses as numbers.
* `matchesSubnet_iff`, **`matchesRange_iff`**: the netmasks for which all bytes are compared that count.
-/

namespace StrongSwan

open Bytes

/-! ## Types -/

namespace IdType

/-- `ID_IPV4_ADDR`, `ID_IPV6_ADDR` -/
def addr : Family → IdType
  | .inet => .other 1 (by decide)
  | .inet6 => .other 5 (by decide)

/-- `ID_IPV4_ADDR_SUBNET`, `ID_IPV6_ADDR_SUBNET` -/
def addrSubnet : Family → IdType
  | .inet => .other 4 (by decide)
  | .inet6 => .other 6 (by decide)

/-- `ID_IPV4_ADDR_RANGE`, `ID_IPV6_ADDR_RANGE` -/
def addrRange : Family → IdType
  | .inet => .other 7 (by decide)
  | .inet6 => .other 8 (by decide)

end IdType

/-! ## Matching -/

/-- The bits that are counted in a byte of a netmask, which is shifted until there is a zero in front. -/
def countOnes : ℕ → U8 → ℕ
  | 0, _ => 0
  | fuel + 1, byte => if byte &&& 0x80 ≠ 0 then countOnes fuel (byte <<< 1) + 1 else 0

def netmaskToCidr : Chunk → ℕ
  | [] => 0
  | byte :: netmask =>
    if byte = 0x00 then 0
    else if byte = 0xff then 8 + netmaskToCidr netmask
    -- no ones are left after eight shifts
    else countOnes 8 byte + netmaskToCidr netmask

/-- A byte in which an address differs from the network. -/
def maskedAt (address network netmask : Chunk) (i : ℕ) : U8 :=
  (address.getD i 0 ^^^ network.getD i 0) &&& netmask.getD i 0

/-- An address against a subnet. -/
def matchesSubnet (address network netmask : Chunk) : ℕ :=
  let netbits := netmaskToCidr netmask
  if netbits = 0 then idMatchMaxWildcards
  else if netbits = 8 * address.length then
    if address = network then idMatchPerfect else idMatchNone
  else if (List.range ((netbits + 7) / 8)).any (maskedAt address network netmask · ≠ 0) then idMatchNone
  else idMatchOneWildcard

/-- The first byte that differs is less. -/
def less : Chunk → Chunk → Bool
  | a :: as, b :: bs => if a ≠ b then a < b else less as bs
  | _, _ => false

/-- An address against a range. -/
def matchesInterval (address from_ to_ : Chunk) : ℕ :=
  let rangeSign := lexCmp to_ from_
  if rangeSign = .lt then idMatchNone
  else if less address from_ then idMatchNone
  else if less to_ address then idMatchNone
  else if rangeSign ≠ .eq then idMatchOneWildcard
  else idMatchPerfect

/-- `address_size`: zero if the types are not those of an address and of a set of them. -/
def addressSize (set : Family → IdType) (this other : IdType) : ℕ :=
  if this = .addr .inet ∧ other = set .inet then Family.inet.len
  else if this = .addr .inet6 ∧ other = set .inet6 then Family.inet6.len
  else 0

def Identification.matchesRange (this other : Identification) : ℕ :=
  if other.type = .any then idMatchAny
  else if this.type = other.type ∧ chunkEquals this.encoded other.encoded then idMatchPerfect
  else
    let size := addressSize .addrSubnet this.type other.type
    if size ≠ 0 then
      if this.encoded.length ≠ size ∨ other.encoded.length ≠ 2 * size then idMatchNone
      else matchesSubnet this.encoded (other.encoded.take size) (other.encoded.drop size)
    else
      let size := addressSize .addrRange this.type other.type
      if size ≠ 0 then
        if this.encoded.length ≠ size ∨ other.encoded.length ≠ 2 * size then idMatchNone
        else matchesInterval this.encoded (other.encoded.take size) (other.encoded.drop size)
      else idMatchNone

/-! ## Strings -/

/-- `strchr`: the string is cut at the first `c`. -/
def strchr (c : U8) (s : Chunk) : Option (Chunk × Chunk) :=
  if c ∈ s then some (s.takeWhile (· ≠ c), (s.dropWhile (· ≠ c)).tail) else none

def isspace (c : U8) : Bool := c = 0x20 || (0x09 ≤ c && c ≤ 0x0d)

def isdigit (c : U8) : Bool := 0x30 ≤ c && c ≤ 0x39

/-- The number of decimal digits. -/
def decimal (digits : Chunk) : ℕ := digits.foldl (fun n c => 10 * n + (c.toNat - 0x30)) 0

/-- `atoi`, of a number that is an int. -/
def atoi (s : Chunk) : ℤ :=
  match s.dropWhile isspace with
  | [] => 0
  | c :: s =>
    if c = 0x2d then -(decimal (s.takeWhile isdigit))
    else if c = 0x2b then decimal (s.takeWhile isdigit)
    else decimal ((c :: s).takeWhile isdigit)

/-- The loop that makes a netmask of so many bytes, and of bits behind them. -/
def netmaskLoop : (size bytes bits : ℕ) → Chunk
  | 0, _, _ => []
  | size + 1, bytes, bits =>
    if bytes ≠ 0 then 0xff :: netmaskLoop size (bytes - 1) bits
    else if bits ≠ 0 then (0xff : U8) <<< (8 - bits) :: netmaskLoop size 0 0
    else 0x00 :: netmaskLoop size 0 0

/-- `create_ip_address_from_string`, with what `inet_pton` makes of a string. -/
def createIpAddressFromString
    (inetPton : (family : Family) → Chunk → Option {a : Chunk // a.length = family.len})
    (string : Chunk) (family : Family) : Option Identification :=
  match strchr 0x2f string with
  | some (str, pos) =>
    match inetPton family str with
    | none => none
    | some address =>
      let bits := atoi pos
      -- compared as sizes: a number below zero is too large
      if bits < 0 ∨ 8 * family.len < bits then none
      else
        let netmask := netmaskLoop family.len (bits.toNat / 8) (bits.toNat % 8)
        some ⟨.addrSubnet family, List.zipWith (· &&& ·) address.val netmask ++ netmask⟩
  | none =>
    match strchr 0x2d string with
    | some (str, pos) =>
      match inetPton family str, inetPton family pos with
      | some address, some toAddress =>
        if less toAddress address then none
        else some ⟨.addrRange family, address.val ++ toAddress.val⟩
      | _, _ => none
    | none =>
      match inetPton family string with
      | none => none
      | some address => some ⟨.addr family, address⟩

/-! ## What is matched -/

section Matching

variable {family : Family} {address network netmask from_ to_ : Chunk}

theorem addressSize_self (set : Family → IdType) (family : Family) :
    addressSize set (.addr family) (set family) = family.len := by
  cases family <;> simp [addressSize, IdType.addr]

theorem addressSize_subnet_range (family : Family) :
    addressSize .addrSubnet (.addr family) (.addrRange family) = 0 := by
  cases family <;> rfl

theorem Family.len_ne_zero (family : Family) : family.len ≠ 0 := by cases family <;> decide

theorem matchesRange_subnet (haddress : address.length = family.len)
    (hnetwork : network.length = family.len) (hnetmask : netmask.length = family.len) :
    Identification.matchesRange ⟨.addr family, address⟩ ⟨.addrSubnet family, network ++ netmask⟩ =
      matchesSubnet address network netmask := by
  have hany : ¬IdType.addrSubnet family = .any := by cases family <;> exact IdType.noConfusion
  have htype : ¬IdType.addr family = .addrSubnet family := by cases family <;> decide
  have hlength : (network ++ netmask).length = 2 * family.len := by
    rw [List.length_append]
    omega
  rw [Identification.matchesRange, if_neg hany, if_neg fun h => htype h.1]
  dsimp only
  rw [addressSize_self, if_pos family.len_ne_zero, if_neg (by omega), ← hnetwork, List.take_left,
    List.drop_left]

theorem matchesRange_interval (haddress : address.length = family.len)
    (hfrom : from_.length = family.len) (hto : to_.length = family.len) :
    Identification.matchesRange ⟨.addr family, address⟩ ⟨.addrRange family, from_ ++ to_⟩ =
      matchesInterval address from_ to_ := by
  have hany : ¬IdType.addrRange family = .any := by cases family <;> exact IdType.noConfusion
  have htype : ¬IdType.addr family = .addrRange family := by cases family <;> decide
  have hlength : (from_ ++ to_).length = 2 * family.len := by
    rw [List.length_append]
    omega
  rw [Identification.matchesRange, if_neg hany, if_neg fun h => htype h.1]
  dsimp only
  rw [addressSize_subnet_range, if_neg (not_not.mpr rfl), addressSize_self,
    if_pos family.len_ne_zero, if_neg (by omega), ← hfrom, List.take_left, List.drop_left]

theorem less_iff {as bs : Chunk} (hlen : as.length = bs.length) :
    less as bs = true ↔ value as < value bs := by
  have hless (as bs : Chunk) (hlen : as.length = bs.length) :
      less as bs = true ↔ lexCmp as bs = .lt := by
    induction as generalizing bs with
    | nil =>
      obtain rfl := List.length_eq_zero_iff.mp hlen.symm
      exact iff_of_false Bool.false_ne_true (by decide)
    | cons a as ih =>
      cases bs with
      | nil => cases hlen
      | cons b bs =>
        rw [less, lexCmp]
        by_cases heq : a = b
        · rw [if_neg (not_not.mpr heq), ih bs (Nat.succ.inj hlen), heq, compare_eq_iff_eq.mpr rfl,
            Ordering.eq_then]
        · have hne : a.toNat ≠ b.toNat := fun h => heq (BitVec.eq_of_toNat_eq h)
          rw [if_pos heq, decide_eq_true_iff, BitVec.lt_def]
          rcases lt_or_gt_of_ne hne with hlt | hlt
          · rw [compare_lt_iff_lt.mpr hlt]
            exact iff_of_true hlt rfl
          · rw [compare_gt_iff_gt.mpr hlt]
            exact iff_of_false (by omega) (Ordering.noConfusion ·)
  rw [hless as bs hlen, lexCmp_eq_compare hlen, compare_lt_iff_lt]

/-- **An address matches a range** if it is not less than the first, and not more than the last. -/
theorem matchesInterval_iff (haddress : address.length = from_.length)
    (hto : to_.length = from_.length) :
    matchesInterval address from_ to_ ≠ idMatchNone ↔
      value from_ ≤ value address ∧ value address ≤ value to_ := by
  have hsign : lexCmp to_ from_ = .lt ↔ value to_ < value from_ := by
    rw [lexCmp_eq_compare hto, compare_lt_iff_lt]
  unfold matchesInterval
  dsimp only
  have hwildcard : idMatchOneWildcard ≠ idMatchNone := by decide
  have hperfect : idMatchPerfect ≠ idMatchNone := by decide
  by_cases hempty : value to_ < value from_
  · rw [if_pos (hsign.mpr hempty)]
    exact iff_of_false (not_not.mpr rfl) fun h => absurd (h.1.trans h.2) (not_le.mpr hempty)
  rw [if_neg (mt hsign.mp hempty)]
  by_cases hlower : less address from_ = true
  · rw [if_pos hlower]
    exact iff_of_false (not_not.mpr rfl) fun h => absurd h.1 (not_le.mpr ((less_iff haddress).mp hlower))
  rw [if_neg hlower]
  by_cases hupper : less to_ address = true
  · rw [if_pos hupper]
    refine iff_of_false (not_not.mpr rfl) fun h => absurd h.2 (not_le.mpr ?_)
    exact (less_iff (hto.trans haddress.symm)).mp hupper
  rw [if_neg hupper]
  rw [less_iff haddress, not_lt] at hlower
  rw [less_iff (hto.trans haddress.symm), not_lt] at hupper
  refine iff_of_true ?_ ⟨hlower, hupper⟩
  split_ifs
  · exact hwildcard
  · exact hperfect

/-! ## The bytes that are compared -/

/-- The ones in front of a byte. -/
def leadingOnes (byte : U8) : ℕ := ((List.range 8).takeWhile fun k => byte.getLsbD (7 - k)).length

/-- The ones in front of the bytes of a netmask, up to its first zero byte. -/
def prefixBits (netmask : Chunk) : ℕ := ((netmask.takeWhile (· ≠ 0)).map leadingOnes).sum

theorem prefixBits_cons_zero (netmask : Chunk) : prefixBits (0 :: netmask) = 0 := rfl

theorem prefixBits_cons {byte : U8} (h : byte ≠ 0) (netmask : Chunk) :
    prefixBits (byte :: netmask) = leadingOnes byte + prefixBits netmask := by
  rw [prefixBits, List.takeWhile_cons, if_pos (decide_eq_true h), List.map_cons, List.sum_cons]
  rfl

theorem netmaskToCidr_eq (netmask : Chunk) : netmaskToCidr netmask = prefixBits netmask := by
  have hbyte : ∀ byte : U8, countOnes 8 byte = leadingOnes byte := by decide
  induction netmask with
  | nil => rfl
  | cons byte netmask ih =>
    rw [netmaskToCidr]
    by_cases hzero : byte = 0x00
    · subst hzero
      rfl
    · rw [if_neg hzero, prefixBits_cons hzero, ih]
      by_cases hones : byte = 0xff
      · subst hones
        rfl
      · rw [if_neg hones, hbyte]

theorem leadingOnes_le : ∀ byte : U8, leadingOnes byte ≤ 8 := by decide

theorem prefixBits_le (netmask : Chunk) : prefixBits netmask ≤ 8 * netmask.length := by
  induction netmask with
  | nil => exact Nat.le_refl _
  | cons byte netmask ih =>
    rw [List.length_cons]
    by_cases hzero : byte = 0
    · rw [hzero, prefixBits_cons_zero]
      exact Nat.zero_le _
    · have hle := leadingOnes_le byte
      rw [prefixBits_cons hzero]
      omega

theorem eq_replicate_of_prefixBits (h : prefixBits netmask = 8 * netmask.length) :
    netmask = List.replicate netmask.length 0xff := by
  have hbyte : ∀ byte : U8, leadingOnes byte = 8 → byte = 0xff := by decide
  induction netmask with
  | nil => rfl
  | cons byte netmask ih =>
    rw [List.length_cons] at h ⊢
    by_cases hzero : byte = 0
    · rw [hzero, prefixBits_cons_zero] at h
      omega
    · have hle := leadingOnes_le byte
      have hrest := prefixBits_le netmask
      rw [prefixBits_cons hzero] at h
      rw [List.replicate_succ, ← ih (by omega), hbyte byte (by omega)]

/-- The number of bytes that are compared. -/
def comparedBytes (netmask : Chunk) : ℕ := (prefixBits netmask + 7) / 8

theorem comparedBytes_le (netmask : Chunk) : comparedBytes netmask ≤ netmask.length := by
  have hle := prefixBits_le netmask
  unfold comparedBytes
  omega

theorem masked_full (haddress : address.length = network.length) {size : ℕ}
    (hsize : size = network.length) : (∀ i < size,
      maskedAt address network (List.replicate size 0xff) i = 0) ↔ address = network := by
  have hbyte (i : ℕ) (hi : i < size) : maskedAt address network (List.replicate size 0xff) i = 0 ↔
      address.getD i 0 = network.getD i 0 := by
    have hones : (0xff : U8) = BitVec.allOnes 8 := rfl
    rw [maskedAt, List.getD_replicate _ hi, hones, BitVec.and_allOnes]
    exact BitVec.xor_eq_zero_iff
  constructor
  · intro hall
    refine List.ext_getElem haddress fun i hi hi' => ?_
    have heq := (hbyte i (hsize ▸ hi')).mp (hall i (hsize ▸ hi'))
    rwa [List.getD_eq_getElem _ _ hi, List.getD_eq_getElem _ _ hi'] at heq
  · rintro rfl i hi
    exact (hbyte i hi).mpr rfl

/-- **An address matches a subnet** if it is the network's in the bytes that are compared. -/
theorem matchesSubnet_iff (haddress : address.length = network.length)
    (hnetmask : netmask.length = network.length) :
    matchesSubnet address network netmask ≠ idMatchNone ↔
      ∀ i < comparedBytes netmask, maskedAt address network netmask i = 0 := by
  have hwildcards : idMatchMaxWildcards ≠ idMatchNone := by decide
  have hwildcard : idMatchOneWildcard ≠ idMatchNone := by decide
  have hperfect : idMatchPerfect ≠ idMatchNone := by decide
  rw [matchesSubnet, netmaskToCidr_eq, comparedBytes]
  by_cases hzero : prefixBits netmask = 0
  · rw [if_pos hzero, hzero]
    exact iff_of_true hwildcards fun i hi => absurd hi (Nat.not_lt_zero i)
  rw [if_neg hzero]
  by_cases hfull : prefixBits netmask = 8 * address.length
  · have hones := eq_replicate_of_prefixBits (hfull.trans (by rw [haddress, hnetmask]))
    have hbytes : (prefixBits netmask + 7) / 8 = netmask.length := by
      rw [haddress, ← hnetmask] at hfull
      omega
    rw [if_pos hfull, hbytes, hones, List.length_replicate, masked_full haddress hnetmask]
    split_ifs with heq
    · exact iff_of_true hperfect heq
    · exact iff_of_false (not_not.mpr rfl) heq
  · rw [if_neg hfull]
    by_cases hany : (List.range ((prefixBits netmask + 7) / 8)).any
        (maskedAt address network netmask · ≠ 0) = true
    · rw [if_pos hany]
      refine iff_of_false (not_not.mpr rfl) fun hall => ?_
      obtain ⟨i, hi, hne⟩ := List.any_eq_true.mp hany
      exact of_decide_eq_true hne (hall i (List.mem_range.mp hi))
    · rw [if_neg hany]
      refine iff_of_true hwildcard fun i hi => ?_
      by_contra hne
      exact hany (List.any_eq_true.mpr ⟨i, List.mem_range.mpr hi, decide_eq_true hne⟩)

end Matching

/-! ## Netmasks that count -/

def MatchesMasked (family : Family) (address network netmask : Chunk) : Prop :=
  Identification.matchesRange ⟨.addr family, address⟩ ⟨.addrSubnet family, network ++ netmask⟩ ≠
      idMatchNone ↔
    ∀ i < family.len, maskedAt address network netmask i = 0

/-- The first byte in which an address leaves the network is one of those that are compared. -/
def FirstCompared (address network netmask : Chunk) : Prop :=
  ∀ i < address.length, (∀ j < i, maskedAt address network netmask j = 0) →
    maskedAt address network netmask i ≠ 0 → i < comparedBytes netmask

/-- A netmask has no bits behind the bytes that are compared. -/
def AllCompared (netmask : Chunk) : Prop := ∀ i, comparedBytes netmask ≤ i → netmask.getD i 0 = 0

section Netmasks

variable {family : Family} {address network netmask : Chunk}

theorem matchesMasked_iff (haddress : address.length = family.len)
    (hnetwork : network.length = family.len) (hnetmask : netmask.length = family.len) :
    MatchesMasked family address network netmask ↔ FirstCompared address network netmask := by
  have hle := comparedBytes_le netmask
  rw [hnetmask] at hle
  rw [MatchesMasked, FirstCompared, matchesRange_subnet haddress hnetwork hnetmask,
    matchesSubnet_iff (haddress.trans hnetwork.symm) (hnetmask.trans hnetwork.symm), haddress]
  constructor
  · intro hmatches i hi hbefore hne
    by_contra hbehind
    exact hne (hmatches.mp (fun j hj => hbefore j (hj.trans_le (not_lt.mp hbehind))) i hi)
  · intro hfirst
    refine ⟨fun hcompared i => ?_, fun hall i hi => hall i (hi.trans_le hle)⟩
    induction i using Nat.strong_induction_on with
    | _ i ih =>
      intro hi
      by_contra hne
      exact hne (hcompared i (hfirst i hi (fun j hj => ih j hj (hj.trans hi)) hne))

theorem forall_matchesMasked_iff (hnetmask : netmask.length = family.len) :
    (∀ address network : Chunk, address.length = family.len → network.length = family.len →
      MatchesMasked family address network netmask) ↔ AllCompared netmask := by
  constructor
  · intro hall i hi
    by_contra hne
    have hlt : i < family.len := by
      by_contra hge
      exact hne (List.getD_eq_default _ _ (by omega))
    -- the address is not the network's in this byte only
    have hmatches := hall ((List.replicate family.len 0).set i 0xff) (List.replicate family.len 0)
      (by rw [List.length_set, List.length_replicate]) List.length_replicate
    rw [matchesMasked_iff (by rw [List.length_set, List.length_replicate]) List.length_replicate
      hnetmask] at hmatches
    refine absurd (hmatches i ?_ (fun j hj => ?_) ?_) (not_lt.mpr hi)
    · rw [List.length_set, List.length_replicate]
      exact hlt
    · rw [maskedAt, List.getD_eq_getElem?_getD, List.getElem?_set_ne (Nat.ne_of_gt hj),
        ← List.getD_eq_getElem?_getD, BitVec.xor_self]
      exact BitVec.zero_and
    · have hset : ((List.replicate family.len (0 : U8)).set i 0xff).getD i 0 = 0xff := by
        rw [List.getD_eq_getElem?_getD, List.getElem?_set_self (by simpa using hlt), Option.getD_some]
      have hxor : (0xff ^^^ 0 : U8) = BitVec.allOnes 8 := rfl
      rw [maskedAt, hset, List.getD_replicate _ hlt, hxor, BitVec.allOnes_and]
      exact hne
  · intro hall address network haddress hnetwork
    rw [matchesMasked_iff haddress hnetwork hnetmask]
    intro i hi _ hne
    by_contra hbehind
    refine hne ?_
    rw [maskedAt, hall i (not_lt.mp hbehind)]
    exact BitVec.and_zero

end Netmasks

/-! ## Netmasks of strings -/

section Strings

variable {family : Family} {size bytes bits : ℕ}

/-- **The first bits of a netmask that is made are set**, and no others. -/
theorem bit_netmaskLoop (hbits : bits < 8) {i : ℕ} (hi : i < 8 * size) :
    bit (netmaskLoop size bytes bits) i = decide (i < 8 * bytes + bits) := by
  have hones : ∀ i < 8, (0xff : U8).getLsbD (7 - i) = true := by decide
  have hbyte : ∀ bits < 8, ∀ i < 8, ((0xff : U8) <<< (8 - bits)).getLsbD (7 - i) = decide (i < bits) := by
    decide
  induction size generalizing bytes bits i with
  | zero => exact absurd hi (Nat.not_lt_zero i)
  | succ size ih =>
    rw [netmaskLoop]
    by_cases hfirst : i < 8
    · split_ifs with hbytes hzero
      · rw [bit_cons_of_lt _ hfirst, hones i hfirst]
        exact (decide_eq_true (by omega)).symm
      · obtain rfl : bytes = 0 := not_not.mp hbytes
        rw [bit_cons_of_lt _ hfirst, hbyte bits hbits i hfirst, Nat.mul_zero, Nat.zero_add]
      · obtain rfl : bytes = 0 := not_not.mp hbytes
        obtain rfl : bits = 0 := not_not.mp hzero
        rw [bit_cons_of_lt _ hfirst]
        exact BitVec.getLsbD_zero
    · obtain ⟨i, rfl⟩ : ∃ i', i = i' + 8 := ⟨i - 8, by omega⟩
      split_ifs with hbytes hzero
      · rw [bit_cons_add, ih hbits (by omega)]
        congr 1
        apply propext
        omega
      · rw [bit_cons_add, ih (by norm_num) (by omega)]
        congr 1
        apply propext
        omega
      · rw [bit_cons_add, ih (by norm_num) (by omega)]
        congr 1
        apply propext
        omega

theorem length_netmaskLoop (size bytes bits : ℕ) : (netmaskLoop size bytes bits).length = size := by
  induction size generalizing bytes bits with
  | zero => rfl
  | succ size ih =>
    rw [netmaskLoop]
    split_ifs <;> rw [List.length_cons, ih]

theorem prefixBits_netmaskLoop (hbits : bits < 8) (hsize : 8 * bytes + bits ≤ 8 * size) :
    prefixBits (netmaskLoop size bytes bits) = 8 * bytes + bits := by
  have hbyte : ∀ bits < 8, bits ≠ 0 →
      (0xff : U8) <<< (8 - bits) ≠ 0 ∧ leadingOnes ((0xff : U8) <<< (8 - bits)) = bits := by decide
  have hones : leadingOnes 0xff = 8 := by decide
  induction size generalizing bytes bits with
  | zero =>
    rw [Nat.le_zero.mp hsize]
    rfl
  | succ size ih =>
    rw [netmaskLoop]
    split_ifs with hbytes hzero
    · rw [prefixBits_cons (by decide), ih hbits (by omega), hones]
      omega
    · rw [prefixBits_cons (hbyte bits hbits hzero).1, (hbyte bits hbits hzero).2,
        ih (by norm_num) (by omega)]
      omega
    · rw [prefixBits_cons_zero]
      omega

theorem byte_eq_zero_iff (byte : U8) : byte = 0 ↔ ∀ k < 8, byte.getLsbD (7 - k) = false := by
  constructor
  · rintro rfl k -
    exact BitVec.getLsbD_zero
  · intro h
    refine BitVec.eq_of_getLsbD_eq fun i hi => ?_
    have hbit := h (7 - i) (by omega)
    rwa [Nat.sub_sub_self (by omega), ← BitVec.getLsbD_zero] at hbit

theorem allCompared_netmaskLoop (hbits : bits < 8) (hsize : 8 * bytes + bits ≤ 8 * size) :
    AllCompared (netmaskLoop size bytes bits) := by
  intro i hi
  rw [comparedBytes, prefixBits_netmaskLoop hbits hsize] at hi
  by_cases hlt : i < size
  · rw [byte_eq_zero_iff]
    intro k hk
    have hbit := @bit_netmaskLoop size bytes bits hbits (8 * i + k) (by omega)
    rw [bit, decide_eq_false (by omega)] at hbit
    rwa [show (8 * i + k) / 8 = i by omega, show (8 * i + k) % 8 = k by omega] at hbit
  · exact List.getD_eq_default _ _ (by rw [length_netmaskLoop]; omega)

theorem masked_iff_bits (address network netmask : Chunk) (size : ℕ) :
    (∀ i < size, maskedAt address network netmask i = 0) ↔
      ∀ i < 8 * size, bit netmask i = true → bit address i = bit network i := by
  have hbyte (i : ℕ) : maskedAt address network netmask i = 0 ↔ ∀ k < 8,
      (netmask.getD i 0).getLsbD (7 - k) = true →
        (address.getD i 0).getLsbD (7 - k) = (network.getD i 0).getLsbD (7 - k) := by
    rw [byte_eq_zero_iff]
    refine forall₂_congr fun k _ => ?_
    rw [maskedAt, BitVec.getLsbD_and, BitVec.getLsbD_xor]
    cases (netmask.getD i 0).getLsbD (7 - k) <;> simp
  constructor
  · intro hall i hi
    exact (hbyte (i / 8)).mp (hall (i / 8) (by omega)) (i % 8) (Nat.mod_lt i (by norm_num))
  · intro hall i hi
    rw [hbyte]
    intro k hk
    have hbit := hall (8 * i + k) (by omega)
    unfold bit at hbit
    rwa [show (8 * i + k) / 8 = i by omega, show (8 * i + k) % 8 = k by omega] at hbit

theorem bit_zipWith_and {xs ys : Chunk} (hlen : xs.length = ys.length) {i : ℕ}
    (hi : i < 8 * xs.length) : bit (List.zipWith (· &&& ·) xs ys) i = (bit xs i && bit ys i) := by
  have hlt : i / 8 < xs.length := by omega
  have hzip : i / 8 < (List.zipWith (· &&& ·) xs ys).length := by
    rw [List.length_zipWith, ← hlen]
    omega
  unfold bit
  rw [List.getD_eq_getElem _ _ hzip, List.getD_eq_getElem _ _ hlt,
    List.getD_eq_getElem _ _ (hlen ▸ hlt), List.getElem_zipWith, BitVec.getLsbD_and]

/-- **The subnet of a string is a block** around its address. -/
theorem matchesRange_netmaskLoop {x address : Chunk} (hx : x.length = family.len)
    (haddress : address.length = family.len) (hbits : bits < 8)
    (hsize : 8 * bytes + bits ≤ 8 * family.len) :
    Identification.matchesRange ⟨.addr family, x⟩ ⟨.addrSubnet family,
        List.zipWith (· &&& ·) address (netmaskLoop family.len bytes bits) ++
          netmaskLoop family.len bytes bits⟩ ≠ idMatchNone ↔
      value x ∈ block (8 * family.len) (8 * bytes + bits) (value address) := by
  have hnetmask := length_netmaskLoop family.len bytes bits
  have hlen := haddress.trans hnetmask.symm
  have hnetwork : (List.zipWith (· &&& ·) address (netmaskLoop family.len bytes bits)).length =
      family.len := by
    rw [List.length_zipWith, haddress, hnetmask, Nat.min_self]
  have hmatches := (forall_matchesMasked_iff hnetmask).mpr (allCompared_netmaskLoop hbits hsize) x _
    hx hnetwork
  rw [MatchesMasked, masked_iff_bits] at hmatches
  have hblock := value_mem_block (hx.trans haddress.symm) (hsize.trans_eq (by rw [hx]))
  rw [hx] at hblock
  rw [hmatches, hblock]
  have hset {i : ℕ} (hi : i < 8 * family.len) : bit (netmaskLoop family.len bytes bits) i = true ↔
      i < 8 * bytes + bits := by
    rw [bit_netmaskLoop hbits hi, decide_eq_true_iff]
  have hkept {i : ℕ} (hi : i < 8 * family.len) (hlt : i < 8 * bytes + bits) :
      bit (List.zipWith (· &&& ·) address (netmaskLoop family.len bytes bits)) i = bit address i := by
    rw [bit_zipWith_and hlen (haddress.symm ▸ hi), (hset hi).mpr hlt, Bool.and_true]
  constructor
  · intro hall i hi
    have hlt : i < 8 * family.len := by omega
    rw [hall i hlt ((hset hlt).mpr hi), hkept hlt hi]
  · intro hall i hi hbit
    rw [hall i ((hset hi).mp hbit), hkept hi ((hset hi).mp hbit)]

theorem strchr_append {c : U8} {s : Chunk} (h : c ∉ s) (t : Chunk) :
    strchr c (s ++ c :: t) = some (s, t) := by
  have hbefore : ∀ b ∈ s, decide (b ≠ c) = true := fun b hb => decide_eq_true fun heq => h (heq ▸ hb)
  have hat : ¬decide (c ≠ c) = true := by simp
  rw [strchr, if_pos (List.mem_append_right _ List.mem_cons_self),
    List.takeWhile_append_of_pos hbefore, List.dropWhile_append_of_pos hbefore,
    List.takeWhile_cons, if_neg hat, List.dropWhile_cons, if_neg hat, List.append_nil, List.tail_cons]

theorem atoi_digits {digits : Chunk} (hne : digits ≠ []) (hdigits : ∀ c ∈ digits, isdigit c = true) :
    atoi digits = decimal digits := by
  have hclass : ∀ c : U8, isdigit c = true → ¬isspace c = true ∧ c ≠ 0x2d ∧ c ≠ 0x2b := by decide
  cases digits with
  | nil => exact absurd rfl hne
  | cons c digits =>
    obtain ⟨hspace, hminus, hplus⟩ := hclass c (hdigits c List.mem_cons_self)
    rw [atoi, List.dropWhile_cons_of_neg hspace]
    dsimp only
    rw [if_neg hminus, if_neg hplus, List.takeWhile_eq_self_iff.mpr hdigits]

end Strings

/-- What `inet_pton` makes of a string. -/
abbrev InetPton := (family : Family) → Chunk → Option {a : Chunk // a.length = family.len}

/-- There is no '/' and no '-' in the text of an address. -/
def PlainAddresses (inetPton : InetPton) : Prop :=
  ∀ family str address, inetPton family str = some address → 0x2f ∉ str ∧ 0x2d ∉ str

/-- **Strings mean what they say**: the addresses of a block, or those from one to another. -/
structure MatchesStrings (inetPton : InetPton) (family : Family) : Prop where
  subnet {str digits : Chunk} {address : {a : Chunk // a.length = family.len}} :
    inetPton family str = some address → digits ≠ [] → (∀ c ∈ digits, isdigit c = true) →
      decimal digits ≤ 8 * family.len → ∃ id,
        createIpAddressFromString inetPton (str ++ 0x2f :: digits) family = some id ∧
          id.type = .addrSubnet family ∧ ∀ x : Chunk, x.length = family.len →
            (Identification.matchesRange ⟨.addr family, x⟩ id ≠ idMatchNone ↔
              value x ∈ block (8 * family.len) (decimal digits) (value address.val))
  range {str str' : Chunk} {from_ to_ : {a : Chunk // a.length = family.len}} :
    inetPton family str = some from_ → inetPton family str' = some to_ →
      value from_.val ≤ value to_.val → ∃ id,
        createIpAddressFromString inetPton (str ++ 0x2d :: str') family = some id ∧
          id.type = .addrRange family ∧ ∀ x : Chunk, x.length = family.len →
            (Identification.matchesRange ⟨.addr family, x⟩ id ≠ idMatchNone ↔
              value x ∈ Set.Icc (value from_.val) (value to_.val))
  empty {str str' : Chunk} {from_ to_ : {a : Chunk // a.length = family.len}} :
    inetPton family str = some from_ → inetPton family str' = some to_ →
      value to_.val < value from_.val →
        createIpAddressFromString inetPton (str ++ 0x2d :: str') family = none

section Create

variable {inetPton : InetPton} {family : Family} {netmask : Chunk}

theorem createIpAddressFromString_subnet (hplain : PlainAddresses inetPton) {str digits : Chunk}
    {address : {a : Chunk // a.length = family.len}} (hstr : inetPton family str = some address)
    (hne : digits ≠ []) (hdigits : ∀ c ∈ digits, isdigit c = true)
    (hle : decimal digits ≤ 8 * family.len) :
    createIpAddressFromString inetPton (str ++ 0x2f :: digits) family =
      some ⟨.addrSubnet family,
        List.zipWith (· &&& ·) address.val
            (netmaskLoop family.len (decimal digits / 8) (decimal digits % 8)) ++
          netmaskLoop family.len (decimal digits / 8) (decimal digits % 8)⟩ := by
  rw [createIpAddressFromString, strchr_append (hplain _ _ _ hstr).1]
  dsimp only
  rw [hstr, atoi_digits hne hdigits]
  dsimp only
  rw [if_neg (by omega), Int.toNat_natCast]

theorem createIpAddressFromString_range (hplain : PlainAddresses inetPton) {str str' : Chunk}
    {from_ to_ : {a : Chunk // a.length = family.len}} (hstr : inetPton family str = some from_)
    (hstr' : inetPton family str' = some to_) :
    createIpAddressFromString inetPton (str ++ 0x2d :: str') family =
      if less to_.val from_.val then none
      else some ⟨.addrRange family, from_.val ++ to_.val⟩ := by
  have hslash : (0x2f : U8) ∉ str ++ 0x2d :: str' := by
    rw [List.mem_append, List.mem_cons]
    rintro (h | h | h)
    · exact (hplain _ _ _ hstr).1 h
    · exact absurd h (by decide)
    · exact (hplain _ _ _ hstr').1 h
  have hnone : strchr 0x2f (str ++ 0x2d :: str') = none := if_neg hslash
  rw [createIpAddressFromString, hnone]
  dsimp only
  rw [strchr_append (hplain _ _ _ hstr).2]
  dsimp only
  rw [hstr, hstr']

theorem matchesStrings (hplain : PlainAddresses inetPton) (family : Family) :
    MatchesStrings inetPton family := by
  have hloop (n : ℕ) : 8 * (n / 8) + n % 8 = n := Nat.div_add_mod n 8
  constructor
  · intro str digits address hstr hne hdigits hle
    refine ⟨_, createIpAddressFromString_subnet hplain hstr hne hdigits hle, rfl, fun x hx => ?_⟩
    rw [matchesRange_netmaskLoop hx address.property (Nat.mod_lt _ (by norm_num))
      (by rw [hloop]; exact hle), hloop]
  · intro str str' from_ to_ hstr hstr' hle
    have hless : ¬less to_.val from_.val = true := by
      rw [less_iff (to_.property.trans from_.property.symm)]
      exact not_lt.mpr hle
    refine ⟨⟨.addrRange family, from_.val ++ to_.val⟩, ?_, rfl, fun x hx => ?_⟩
    · rw [createIpAddressFromString_range hplain hstr hstr', if_neg hless]
    · rw [matchesRange_interval hx from_.property to_.property,
        matchesInterval_iff (hx.trans from_.property.symm) (to_.property.trans from_.property.symm)]
      exact Set.mem_Icc.symm
  · intro str str' from_ to_ hstr hstr' hlt
    rw [createIpAddressFromString_range hplain hstr hstr',
      if_pos ((less_iff (to_.property.trans from_.property.symm)).mpr hlt)]

/-- **An address matches a subnet in all bytes** if and only if the first byte that differs is one of
those that are compared; this is so for all addresses if and only if the netmask has no bits behind them.
Ranges, and the subnets and ranges of strings, have no exceptions. -/
theorem matchesRange_iff (hplain : PlainAddresses inetPton) (hnetmask : netmask.length = family.len) :
    ((∀ address network : Chunk, address.length = family.len → network.length = family.len →
        (MatchesMasked family address network netmask ↔ FirstCompared address network netmask)) ∧
      ((∀ address network : Chunk, address.length = family.len → network.length = family.len →
        MatchesMasked family address network netmask) ↔ AllCompared netmask)) ∧
      (∀ address from_ to_ : Chunk, address.length = family.len → from_.length = family.len →
        to_.length = family.len →
          (Identification.matchesRange ⟨.addr family, address⟩ ⟨.addrRange family, from_ ++ to_⟩ ≠
              idMatchNone ↔
            value from_ ≤ value address ∧ value address ≤ value to_)) ∧
      MatchesStrings inetPton family := by
  refine ⟨⟨fun address network haddress hnetwork => matchesMasked_iff haddress hnetwork hnetmask,
    forall_matchesMasked_iff hnetmask⟩, fun address from_ to_ haddress hfrom hto => ?_,
    matchesStrings hplain family⟩
  rw [matchesRange_interval haddress hfrom hto,
    matchesInterval_iff (haddress.trans hfrom.symm) (hto.trans hfrom.symm)]

end Create

/-! ## Examples -/

/-- `inet_pton` of 10.1.2.3 -/
def tenPton : InetPton
  | .inet, str =>
    if str = [0x31, 0x30, 0x2e, 0x31, 0x2e, 0x32, 0x2e, 0x33] then some ⟨[10, 1, 2, 3], rfl⟩ else none
  | .inet6, _ => none

theorem plainAddresses_tenPton : PlainAddresses tenPton := by
  intro family str address h
  cases family with
  | inet =>
    unfold tenPton at h
    dsimp only at h
    split_ifs at h with hstr
    subst hstr
    decide
  | inet6 => cases h

/-- The subnets of eight bits around 10.0.0.0 and all others. -/
theorem matchesRange_iff_ten :
    ((∀ address network : Chunk, address.length = 4 → network.length = 4 →
        (MatchesMasked .inet address network [0xff, 0, 0, 0] ↔
          FirstCompared address network [0xff, 0, 0, 0])) ∧
      ((∀ address network : Chunk, address.length = 4 → network.length = 4 →
        MatchesMasked .inet address network [0xff, 0, 0, 0]) ↔ AllCompared [0xff, 0, 0, 0])) ∧
      (∀ address from_ to_ : Chunk, address.length = 4 → from_.length = 4 → to_.length = 4 →
          (Identification.matchesRange ⟨.addr .inet, address⟩ ⟨.addrRange .inet, from_ ++ to_⟩ ≠
              idMatchNone ↔
            value from_ ≤ value address ∧ value address ≤ value to_)) ∧
      MatchesStrings tenPton .inet :=
  @matchesRange_iff tenPton .inet [0xff, 0, 0, 0] plainAddresses_tenPton rfl

/-- 10.1.2.3 matches 10.0.9.0 with the netmask 255.0.255.0: one byte of it is counted, and compared. -/
theorem not_matchesMasked :
    ¬MatchesMasked .inet [10, 1, 2, 3] [10, 0, 9, 0] [0xff, 0, 0xff, 0] := by
  intro h
  have hmatches : Identification.matchesRange ⟨.addr .inet, [10, 1, 2, 3]⟩
      ⟨.addrSubnet .inet, [10, 0, 9, 0] ++ [0xff, 0, 0xff, 0]⟩ ≠ idMatchNone := by decide
  exact absurd (h.mp hmatches 2 (by decide)) (by decide)

end StrongSwan
