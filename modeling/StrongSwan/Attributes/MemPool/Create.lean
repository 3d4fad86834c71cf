import StrongSwan.Attributes.MemPool

/-!
# The addresses of a pool

Which addresses a new pool can assign. Addresses are compared as numbers (`Host.value`).

* `NewOffset`, `newOffset_iff`: the offsets `getNew` returns in some run are the first `size` ones,
  shifted by one for a pool based on its network id.
* `offset2host_spec`: the address of an offset, `offset2host_inj`: offsets with one address are one.
* **`created_exact`**: the constructors' pools assign exactly the addresses they are meant to.
* `not_size_pos`: a pool on the broadcast address of its subnet is empty.
-/

namespace StrongSwan

namespace MemPool

variable {Id : Type}

/-! ## Addresses of offsets -/

theorem length_lastBlock (family : Family) : lastBlock family + 4 = family.len := by
  cases family <;> rfl

theorem toNat_last (h : Host) :
    (untoh32 (h.address.drop (lastBlock h.family))).toNat = h.value % 2 ^ 32 := by
  have hlen := length_lastBlock h.family
  have hdrop : (h.address.drop (lastBlock h.family)).length = 4 := by
    rw [List.length_drop, h.length_address]
    omega
  rw [toNat_untoh32 hdrop, (Bytes.value_take_drop _ _).2, h.length_address,
    show h.family.len - lastBlock h.family = 4 by omega]
  rfl

variable {p : MemPool Id}

/-- **What an offset stands for**: the sum in the last four bytes of the base address. -/
theorem offset2host_spec {base : Host} (hbase : p.base = some base) {o : U32}
    (ho : ¬ o - 1 > p.size) :
    ∃ h, p.offset2host o = some h ∧ h.family = base.family ∧ h.port = 0 ∧
      h.value = base.value / 2 ^ 32 * 2 ^ 32 + ((o - 1).toNat + base.value) % 2 ^ 32 := by
  have hlen := length_lastBlock base.family
  have hlast := toNat_last base
  set last := untoh32 (base.address.drop (lastBlock base.family)) with hl
  set addr := base.address.take (lastBlock base.family) ++ htoun32 (o - 1 + last) with ha
  have haddr : addr.length = base.family.len := by
    rw [ha, List.length_append, List.length_take, length_htoun32, base.length_address]
    omega
  refine ⟨⟨base.family, addr, 0, haddr⟩, ?_, rfl, rfl, ?_⟩
  · rw [offset2host, if_neg ho, hbase, Option.bind_some]
    exact hostCreateFromChunk_of_length 0 haddr
  · change Bytes.value addr = _
    rw [ha, Bytes.value_append, length_htoun32, value_htoun32, (Bytes.value_take_drop _ _).1,
      base.length_address, show base.family.len - lastBlock base.family = 4 by omega,
      BitVec.toNat_add, hlast, Nat.add_mod_mod]
    rfl

theorem offset2host_of_lt {base : Host} (hbase : p.base = some base) {o : U32}
    (ho : ¬ o - 1 > p.size) (hlt : (o - 1).toNat + base.value % 2 ^ 32 < 2 ^ 32) :
    ∃ h, p.offset2host o = some h ∧ h.family = base.family ∧ h.port = 0 ∧
      h.value = base.value + (o - 1).toNat := by
  obtain ⟨h, hh, hf, hp, hv⟩ := offset2host_spec hbase ho
  refine ⟨h, hh, hf, hp, ?_⟩
  rw [hv]
  omega

theorem offset2host_inj {o₁ o₂ : U32} {h₁ h₂ : Host}
    (ho₁ : p.offset2host o₁ = some h₁) (ho₂ : p.offset2host o₂ = some h₂)
    (heq : h₁.value = h₂.value) : o₁ = o₂ := by
  have hle : ∀ {o h}, p.offset2host o = some h → ¬ o - 1 > p.size := by
    intro o h ho hgt
    rw [offset2host, if_pos hgt] at ho
    cases ho
  cases hbase : p.base with
  | none => simp [offset2host, hbase] at ho₁
  | some base =>
    obtain ⟨h₁', hh₁, -, -, hv₁⟩ := offset2host_spec hbase (hle ho₁)
    obtain ⟨h₂', hh₂, -, -, hv₂⟩ := offset2host_spec hbase (hle ho₂)
    obtain rfl := Option.some.inj (ho₁.symm.trans hh₁)
    obtain rfl := Option.some.inj (ho₂.symm.trans hh₂)
    have hsub : (o₁ - 1).toNat = (o₂ - 1).toNat := by omega
    bv_omega

theorem offset2host_family {base : Host} (hbase : p.base = some base) {o : U32}
    {h : Host} (ho : p.offset2host o = some h) : h.family = base.family ∧ h.port = 0 := by
  have hle : ¬ o - 1 > p.size := by
    intro hgt
    rw [offset2host, if_pos hgt] at ho
    cases ho
  obtain ⟨h', hh, hf, hp, -⟩ := offset2host_spec hbase hle
  obtain rfl := Option.some.inj (ho.symm.trans hh)
  exact ⟨hf, hp⟩

/-! ## Offsets of new leases -/

section NewOffset

variable (idHash : Id → U32) (idEquals : Id → Id → Bool) (chunkHashInc : Chunk → U32 → U32)

/-- `getNew` returns the offset in some run of calls to the pool. -/
def NewOffset (p : MemPool Id) (o : U32) : Prop :=
  ∃ calls q id peer, LTS.Steps (system idHash idEquals chunkHashInc) p calls q ∧
    (q.getNew chunkHashInc id peer).1 = o ∧ o ≠ 0

variable {p : MemPool Id}

theorem exists_steps_unused (id : Id) (hbase : p.base.isSome) (hunused : p.unused = 0) (n : ℕ)
    (hn : n ≤ p.size.toNat) :
    ∃ calls q, LTS.Steps (system idHash idEquals chunkHashInc) p calls q ∧ q.unused.toNat = n ∧
      q.base = p.base ∧ q.baseIsNetworkId = p.baseIsNetworkId ∧ q.size = p.size := by
  induction n with
  | zero => exact ⟨[], p, .refl, by rw [hunused]; rfl, rfl, rfl, rfl⟩
  | succ n ih =>
    obtain ⟨calls, q, hsteps, hq, hb, hf, hs⟩ := ih (by omega)
    obtain ⟨base, hbase⟩ := Option.isSome_iff_exists.mp hbase
    have hsize : q.size ≠ 0 := by
      rw [hs]
      intro h
      rw [h] at hn
      simp at hn
    have hlt : q.unused < q.size := by
      rw [BitVec.lt_def, hq, hs]
      omega
    -- a call for a new address
    have hacq : (q.acquireAddress chunkHashInc id base .new none).2 =
        (q.getNew chunkHashInc id none).2 := by
      rw [acquireAddress, if_neg hsize, if_neg (by rw [hb, hbase]; simp)]
    refine ⟨_, (q.acquireAddress chunkHashInc id base .new none).2,
      hsteps.snoc (step_acquire rfl), ?_⟩
    rw [hacq, getNew, if_pos hlt]
    refine ⟨?_, hb, hf, hs⟩
    change (q.unused + 1).toNat = n + 1
    have := q.size.isLt
    bv_omega

/-- **The offsets of new leases.** -/
theorem newOffset_iff (id : Id) (hbase : p.base.isSome) (hunused : p.unused = 0)
    (hfit : p.size.toNat + p.shift.toNat < 2 ^ 32) (o : U32) :
    NewOffset idHash idEquals chunkHashInc p o ↔
      ∃ u : ℕ, u < p.size.toNat ∧ (o - 1).toNat = u + p.shift.toNat := by
  constructor
  · rintro ⟨calls, q, id', peer, hsteps, hnew, ho⟩
    obtain ⟨-, hf, hs, -⟩ := static_steps hsteps (by rw [hunused, BitVec.le_def]; simp)
    unfold getNew at hnew
    split_ifs at hnew with hlt
    · rw [hs, BitVec.lt_def] at hlt
      refine ⟨q.unused.toNat, hlt, ?_⟩
      have hshift : q.shift = p.shift := by rw [shift, shift, hf]
      rw [← hnew]
      change (q.unused + 1 + q.shift - 1).toNat = _
      rw [hshift]
      bv_omega
    · exact absurd hnew.symm ho
  · rintro ⟨u, hu, ho⟩
    obtain ⟨calls, q, hsteps, hq, -, hf, hs⟩ :=
      exists_steps_unused idHash idEquals chunkHashInc id hbase hunused u hu.le
    have hshift : q.shift = p.shift := by rw [shift, shift, hf]
    have hlt : q.unused < q.size := by
      rw [BitVec.lt_def, hq, hs]
      exact hu
    refine ⟨calls, q, id, none, hsteps, ?_, ?_⟩
    · rw [getNew, if_pos hlt]
      change q.unused + 1 + q.shift = o
      rw [hshift]
      bv_omega
    · rintro rfl
      bv_omega

/-- The pool has an address to assign, every new lease has an address, and these are the ones of
`family` from `lo` to `hi`. -/
def Serves (p : MemPool Id) (family : Family) (lo hi : ℕ) : Prop :=
  1 ≤ p.size ∧
    (∀ o, NewOffset idHash idEquals chunkHashInc p o → ∃ h, p.offset2host o = some h) ∧
    ∀ h : Host, (∃ o, NewOffset idHash idEquals chunkHashInc p o ∧ p.offset2host o = some h) ↔
      h.family = family ∧ h.port = 0 ∧ lo ≤ h.value ∧ h.value ≤ hi

variable {idHash idEquals chunkHashInc}

theorem serves_of_fit (id : Id) {base : Host} (hbase : p.base = some base)
    (hunused : p.unused = 0) (hsize : 1 ≤ p.size.toNat)
    (hwrap : p.size.toNat + p.shift.toNat < 2 ^ 32)
    (hfit : base.value % 2 ^ 32 + p.shift.toNat + p.size.toNat ≤ 2 ^ 32) {lo hi : ℕ}
    (hlo : lo = base.value + p.shift.toNat) (hhi : hi + 1 = lo + p.size.toNat) :
    Serves idHash idEquals chunkHashInc p base.family lo hi := by
  have hshift : p.shift.toNat ≤ 1 := by
    unfold shift
    split_ifs <;> simp
  have hlt := p.size.isLt
  have hnew := newOffset_iff idHash idEquals chunkHashInc (p := p) id (by rw [hbase]; rfl) hunused
  -- offsets are in reach and their addresses in the last block
  have haddr : ∀ {o : U32} {u : ℕ}, u < p.size.toNat → (o - 1).toNat = u + p.shift.toNat →
      ∃ h, p.offset2host o = some h ∧ h.family = base.family ∧ h.port = 0 ∧
        h.value = base.value + (o - 1).toNat := by
    intro o u hu ho
    refine offset2host_of_lt hbase ?_ (by omega)
    rw [gt_iff_lt, BitVec.lt_def]
    omega
  refine ⟨by rw [BitVec.le_def]; simpa using hsize, fun o ho => ?_, fun h => ⟨?_, ?_⟩⟩
  · obtain ⟨u, hu, ho⟩ := (hnew hwrap o).mp ho
    obtain ⟨h, hh, -⟩ := haddr hu ho
    exact ⟨h, hh⟩
  · rintro ⟨o, ho, hh⟩
    obtain ⟨u, hu, ho⟩ := (hnew hwrap o).mp ho
    obtain ⟨h', hh', hf, hp, hv⟩ := haddr hu ho
    obtain rfl := Option.some.inj (hh.symm.trans hh')
    exact ⟨hf, hp, by omega, by omega⟩
  · rintro ⟨hf, hp, hl, hh⟩
    obtain ⟨u, hu⟩ : ∃ u, h.value = lo + u := ⟨h.value - lo, by omega⟩
    obtain ⟨o, ho⟩ : ∃ o : U32, (o - 1).toNat = u + p.shift.toNat :=
      ⟨BitVec.ofNat 32 (u + p.shift.toNat) + 1, by
        rw [BitVec.add_sub_cancel, BitVec.toNat_ofNat, Nat.mod_eq_of_lt (by omega)]⟩
    obtain ⟨h', hh', hf', hp', hv'⟩ := haddr (by omega) ho
    refine ⟨o, (hnew hwrap o).mpr ⟨u, by omega, ho⟩, ?_⟩
    rw [hh', Host.ext_value (hf.trans hf'.symm) (by omega) (hp.trans hp'.symm)]

end NewOffset

/-! ## Subnets -/

section Subnet

/-- The host bits of a subnet of which `bits` are network bits, limited to 31. -/
def hostBits (base : Host) (bits : ℤ) : ℕ :=
  min 31 (8 * base.family.len - (max 0 bits).toNat)

/-- The network id of the subnet around a host. -/
def networkId (base : Host) (n : ℕ) : ℕ := base.value / 2 ^ n * 2 ^ n

/-- The last address of the subnet around a host. -/
def broadcast (base : Host) (n : ℕ) : ℕ := networkId base n + (2 ^ n - 1)

theorem toNat_networkIdDiff (host : Host) {n : ℕ} (hn : n ≤ 31) :
    (networkIdDiff host n).toNat = host.value % 2 ^ n := by
  unfold networkIdDiff
  split_ifs with h
  · subst h
    simp [Nat.mod_one]
  have hdvd : 2 ^ n ∣ 2 ^ 32 := Nat.pow_dvd_pow 2 (by omega)
  have hpos : host.address.length - 4 = lastBlock host.family := by
    rw [host.length_address]
    have := length_lastBlock host.family
    omega
  dsimp only
  rw [hpos, BitVec.toNat_ushiftRight, BitVec.toNat_shiftLeft, toNat_last, Nat.shiftLeft_eq,
    Nat.shiftRight_eq_div_pow, show (2 : ℕ) ^ 32 = 2 ^ n * 2 ^ (4 * 8 - n) by
      rw [← pow_add]; congr 1; omega, Nat.mul_mod_mul_right,
    Nat.mul_div_cancel _ (by positivity), Nat.mod_mul_right_mod]

variable (idHash : Id → U32) (idEquals : Id → Id → Bool)

/-- **The branches of the constructor**: what is missing from `2 ^ n` addresses. -/
theorem memPoolCreate_spec (base : Host) (bits : ℤ) {n d : ℕ} (hn : n = hostBits base bits)
    (hd : d = base.value % 2 ^ n) {p : MemPool Id}
    (hp : p = memPoolCreate idHash idEquals (some base) bits) :
    p.base = some base ∧ p.unused = 0 ∧
      p.shift.toNat = (if 2 ≤ n ∧ d = 0 then 1 else 0) ∧
      p.size.toNat + (if 2 ≤ n then if d = 0 then 2 else d + 1 else d) = 2 ^ n := by
  have hle : n ≤ 31 := by rw [hn]; exact min_le_left _ _
  have hlt : d < 2 ^ n := by rw [hd]; exact Nat.mod_lt _ (by positivity)
  have hpow : 2 ^ n ≤ 2 ^ 31 := Nat.pow_le_pow_right (by norm_num) hle
  have hdiff : (networkIdDiff base n).toNat = d := by rw [toNat_networkIdDiff base hle, hd]
  have hdiff0 : networkIdDiff base n = 0 ↔ d = 0 := by
    rw [← hdiff, ← BitVec.toNat_inj]
    rfl
  have hbits : ∀ addrBits : ℤ, addrBits = 8 * base.family.len →
      (if addrBits - max 0 (min bits addrBits) > POOL_LIMIT then POOL_LIMIT
        else addrBits - max 0 (min bits addrBits)).toNat = n := by
    intro addrBits h
    have hlim : POOL_LIMIT = 31 := rfl
    rw [hn, hostBits]
    split_ifs <;> omega
  have hone : ((1 : U32) <<< n).toNat = 2 ^ n := by
    rw [BitVec.toNat_shiftLeft, Nat.shiftLeft_eq, show (1 : U32).toNat = 1 from rfl, one_mul,
      Nat.mod_eq_of_lt (by omega)]
  have haddr : (if base.family = .inet then 32 else 128 : ℤ) = 8 * base.family.len := by
    cases base.family <;> rfl
  have hbits := hbits _ haddr
  subst hp
  unfold memPoolCreate
  dsimp only
  rw [hbits]
  have htwo : (1 : U32) <<< n > 2 ↔ 2 ≤ n := by
    rw [gt_iff_lt, BitVec.lt_def, hone]
    change 2 ^ 1 < 2 ^ n ↔ _
    rw [Nat.pow_lt_pow_iff_right (by norm_num)]
    omega
  by_cases h2 : 2 ≤ n
  · have h4 : 2 ^ 2 ≤ 2 ^ n := Nat.pow_le_pow_right (by norm_num) h2
    rw [if_pos (htwo.mpr h2), if_pos h2]
    by_cases h0 : d = 0
    · rw [if_pos (hdiff0.mpr h0), if_pos ⟨h2, h0⟩, if_pos h0]
      refine ⟨rfl, rfl, rfl, ?_⟩
      change ((1 : U32) <<< n - 1 - 1).toNat + 2 = 2 ^ n
      bv_omega
    · rw [if_neg (mt hdiff0.mp h0), if_neg (fun h => h0 h.2), if_neg h0]
      refine ⟨rfl, rfl, rfl, ?_⟩
      change ((1 : U32) <<< n - networkIdDiff base n - 1).toNat + (d + 1) = 2 ^ n
      bv_omega
  · have hnot : ¬ (2 ≤ n ∧ d = 0) := fun h => h2 h.1
    rw [if_neg (mt htwo.mp h2), if_neg h2, if_neg hnot]
    by_cases h0 : d = 0
    · rw [if_neg (not_not_intro (hdiff0.mpr h0)), h0]
      exact ⟨rfl, rfl, rfl, hone⟩
    · rw [if_pos (mt hdiff0.mp h0)]
      refine ⟨rfl, rfl, rfl, ?_⟩
      change ((1 : U32) <<< n - 1).toNat + d = 2 ^ n
      have h2' : 2 ^ n ≤ 2 ^ 1 := Nat.pow_le_pow_right (by norm_num) (by omega)
      bv_omega

variable {idHash idEquals} {chunkHashInc : Chunk → U32 → U32}

/-- Not even a subnet of 31 host bits reaches over the last block of an address. -/
theorem networkId_add_le (base : Host) {n : ℕ} (hn : n ≤ 31) :
    base.value % 2 ^ 32 - base.value % 2 ^ n + 2 ^ n ≤ 2 ^ 32 := by
  obtain ⟨k, hk⟩ : 2 ^ n ∣ 2 ^ 32 := Nat.pow_dvd_pow 2 (by omega)
  have hmod : base.value % 2 ^ 32 % 2 ^ n = base.value % 2 ^ n :=
    Nat.mod_mod_of_dvd _ ⟨k, hk⟩
  have hlt : base.value % 2 ^ 32 < 2 ^ n * k := by
    rw [← hk]
    exact Nat.mod_lt _ (by positivity)
  have hdiv : base.value % 2 ^ 32 / 2 ^ n < k := Nat.div_lt_of_lt_mul hlt
  have hsplit := Nat.div_add_mod (base.value % 2 ^ 32) (2 ^ n)
  calc base.value % 2 ^ 32 - base.value % 2 ^ n + 2 ^ n
      = 2 ^ n * (base.value % 2 ^ 32 / 2 ^ n + 1) := by rw [mul_add, ← hmod]; omega
    _ ≤ 2 ^ n * k := Nat.mul_le_mul_left _ hdiv
    _ = 2 ^ 32 := hk.symm

/-- **The addresses of a subnet**: from the base or the one after the network id up to the one
before the broadcast address; without the latter two if there are less than two host bits. -/
theorem serves_memPoolCreate (id : Id) (base : Host) (bits : ℤ) {n : ℕ}
    (hn : n = hostBits base bits) {p : MemPool Id}
    (hp : p = memPoolCreate idHash idEquals (some base) bits) :
    (2 ≤ n → base.value = broadcast base n → p.size = 0) ∧
      (2 ≤ n → base.value ≠ broadcast base n → Serves idHash idEquals chunkHashInc p base.family
        (max base.value (networkId base n + 1)) (broadcast base n - 1)) ∧
      (n < 2 → Serves idHash idEquals chunkHashInc p base.family base.value
        (broadcast base n)) := by
  obtain ⟨hbase, hunused, hshift, hsize⟩ := memPoolCreate_spec idHash idEquals base bits hn rfl hp
  have hle : n ≤ 31 := by rw [hn]; exact min_le_left _ _
  have hpow : 2 ^ n ≤ 2 ^ 31 := Nat.pow_le_pow_right (by norm_num) hle
  have hlt : base.value % 2 ^ n < 2 ^ n := Nat.mod_lt _ (by positivity)
  have hin := networkId_add_le base hle
  have hnet : networkId base n + base.value % 2 ^ n = base.value := by
    rw [networkId, mul_comm]
    exact Nat.div_add_mod _ _
  have hlast : base.value % 2 ^ n ≤ base.value % 2 ^ 32 := by
    rw [← Nat.mod_mod_of_dvd base.value (Nat.pow_dvd_pow 2 (by omega : n ≤ 32))]
    exact Nat.mod_le _ _
  unfold broadcast
  generalize base.value % 2 ^ n = d at *
  refine ⟨fun h2 hbc => ?_, fun h2 hbc => ?_, fun h2 => ?_⟩
  · rw [if_pos h2] at hsize
    have h4 : 2 ^ 2 ≤ 2 ^ n := Nat.pow_le_pow_right (by norm_num) h2
    have hd : d ≠ 0 := by omega
    rw [if_neg hd] at hsize
    rw [← BitVec.toNat_inj]
    change _ = 0
    omega
  · have h4 : 2 ^ 2 ≤ 2 ^ n := Nat.pow_le_pow_right (by norm_num) h2
    rw [if_pos h2] at hsize
    by_cases hd : d = 0
    · rw [if_pos ⟨h2, hd⟩] at hshift
      rw [if_pos hd] at hsize
      apply serves_of_fit id hbase hunused <;> omega
    · rw [if_neg (fun h => hd h.2)] at hshift
      rw [if_neg hd] at hsize
      apply serves_of_fit id hbase hunused <;> omega
  · have hnot : ¬ 2 ≤ n := by omega
    rw [if_neg (fun h => hnot h.1)] at hshift
    rw [if_neg hnot] at hsize
    have h2' : 2 ^ n ≤ 2 ^ 1 := Nat.pow_le_pow_right (by norm_num) (by omega)
    apply serves_of_fit id hbase hunused <;> omega

end Subnet

/-! ## Ranges -/

section Range

variable {idHash : Id → U32} {idEquals : Id → Id → Bool} {chunkHashInc : Chunk → U32 → U32}

/-- **An accepted range** lies in one family and in one last block. -/
theorem memPoolCreateRange_spec {from_ to_ : Host} {p : MemPool Id}
    (h : memPoolCreateRange idHash idEquals from_ to_ = some p) :
    from_.family = to_.family ∧ from_.value / 2 ^ 32 = to_.value / 2 ^ 32 ∧
      from_.value ≤ to_.value ∧ p.base = some from_ ∧ p.unused = 0 ∧ p.shift = 0 ∧
      p.size.toNat = (to_.value - from_.value + 1) % 2 ^ 32 := by
  have hpos : ∀ a : Host, a.address.length - 4 = lastBlock a.family := by
    intro a
    have := length_lastBlock a.family
    rw [a.length_address]
    omega
  have hblock : ∀ a : Host, Bytes.value (a.address.take (a.address.length - 4)) =
      a.value / 2 ^ 32 := by
    intro a
    have := length_lastBlock a.family
    rw [(Bytes.value_take_drop _ _).1, a.length_address,
      show a.family.len - (a.family.len - 4) = 4 by omega]
    rfl
  unfold memPoolCreateRange at h
  dsimp only at h
  split_ifs at h with hinvalid hlarge
  simp only [not_or, not_not] at hinvalid
  obtain ⟨hf, hlen, hlen4, hcmp⟩ := hinvalid
  have hle : from_.value ≤ to_.value := by
    rw [Bytes.lexCmp_eq_compare hlen] at hcmp
    by_contra hgt
    exact hcmp (compare_gt_iff_gt.mpr (not_le.mp hgt))
  have hhigh : from_.value / 2 ^ 32 = to_.value / 2 ^ 32 := by
    rw [← hblock, ← hblock]
    by_cases h4 : from_.address.length > 4
    · have heq : from_.address.take (from_.address.length - 4) =
          to_.address.take (from_.address.length - 4) := by
        by_contra hne
        exact hlarge ⟨h4, hne⟩
      rw [heq, hlen]
    · rw [show from_.address.length - 4 = 0 by omega, show to_.address.length - 4 = 0 by omega]
      rfl
  obtain rfl := (Option.some.inj h).symm
  refine ⟨hf, hhigh, hle, rfl, rfl, rfl, ?_⟩
  change (untoh32 (to_.address.drop (to_.address.length - 4)) -
    untoh32 (from_.address.drop (from_.address.length - 4)) + 1).toNat = _
  have hto := toNat_last to_
  have hfrom := toNat_last from_
  rw [hpos, hpos]
  bv_omega

/-- **The addresses of a range.** -/
theorem serves_memPoolCreateRange (id : Id) {from_ to_ : Host} {p : MemPool Id}
    (h : memPoolCreateRange idHash idEquals from_ to_ = some p)
    (hspan : to_.value - from_.value ≠ 2 ^ 32 - 1) :
    Serves idHash idEquals chunkHashInc p from_.family from_.value to_.value := by
  obtain ⟨-, hblock, hle, hbase, hunused, hshift, hsize⟩ := memPoolCreateRange_spec h
  have hshift : p.shift.toNat = 0 := by
    rw [hshift]
    rfl
  apply serves_of_fit id hbase hunused <;> omega

end Range

/-! ## Both constructors -/

/-- **The pools of both constructors assign exactly the addresses of their subnet or range**, and
an address in every case; the pool of a subnet is empty if it is based on the broadcast address. -/
theorem created_exact (idHash : Id → U32) (idEquals : Id → Id → Bool)
    (chunkHashInc : Chunk → U32 → U32) (id : Id) :
    (∀ (base : Host) (bits : ℤ),
      let n := hostBits base bits
      let p := memPoolCreate idHash idEquals (some base) bits
      (2 ≤ n → base.value = broadcast base n → p.size = 0) ∧
        (2 ≤ n → base.value ≠ broadcast base n → Serves idHash idEquals chunkHashInc p base.family
          (max base.value (networkId base n + 1)) (broadcast base n - 1)) ∧
        (n < 2 → Serves idHash idEquals chunkHashInc p base.family base.value
          (broadcast base n))) ∧
      ∀ (from_ to_ : Host) (p : MemPool Id),
        memPoolCreateRange idHash idEquals from_ to_ = some p →
        to_.value - from_.value ≠ 2 ^ 32 - 1 →
        Serves idHash idEquals chunkHashInc p from_.family from_.value to_.value :=
  ⟨fun base bits => serves_memPoolCreate id base bits rfl rfl,
    fun _ _ _ h hspan => serves_memPoolCreateRange id h hspan⟩

/-- The subnet `10.0.0.0/30` and the range `10.0.0.1-10.0.0.5`. -/
theorem created_exact_ten :
    let host := fun last : U8 => (⟨.inet, [10, 0, 0, last], 0, rfl⟩ : Host)
    let idHash := fun _ : ℕ => (0 : U32)
    let idEquals := fun a b : ℕ => decide (a = b)
    Serves idHash idEquals (fun _ _ => 0) (memPoolCreate idHash idEquals (some (host 0)) 30)
        .inet 167772161 167772162 ∧
      ∃ p, memPoolCreateRange idHash idEquals (host 1) (host 5) = some p ∧
        Serves idHash idEquals (fun _ _ => 0) p .inet 167772161 167772165 := by
  intro host idHash idEquals
  obtain ⟨hsubnet, hrange⟩ := created_exact idHash idEquals (fun _ _ => 0) 0
  have hone : (host 1).value = 167772161 := by decide
  have hfive : (host 5).value = 167772165 := by decide
  have hfirst : max (host 0).value (networkId (host 0) (hostBits (host 0) 30) + 1) = 167772161 := by
    decide
  have hlast : broadcast (host 0) (hostBits (host 0) 30) - 1 = 167772162 := by decide
  have hserves := (hsubnet (host 0) 30).2.1 (by decide) (by decide)
  rw [hfirst, hlast] at hserves
  refine ⟨hserves, _, rfl, ?_⟩
  have hserves := hrange (host 1) (host 5) _ rfl (by rw [hone, hfive]; decide)
  rwa [hone, hfive] at hserves

/-- The subnet of `192.168.0.255/24` ends with its base address: the pool has no address. -/
theorem not_size_pos :
    ¬ ∀ (base : Host) (bits : ℤ),
      1 ≤ (memPoolCreate (fun _ : ℕ => 0) (fun a b => decide (a = b)) (some base) bits).size := by
  intro h
  have := h ⟨.inet, [192, 168, 0, 255], 0, rfl⟩ 24
  revert this
  decide

end MemPool

end StrongSwan
