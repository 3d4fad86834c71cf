import StrongSwan.Attributes.MemPool.Create
import StrongSwan.Attributes.MemPool.Lease

/-!
# Giving addresses back

Whether the address of a lease leads back to its offset.

* `Fits`: the end of the pool is not the end of the last block of its base address.
* `host2offset_offset2host`: then an address leads back to its offset, `host2offset_of_wrap`:
  otherwise none does.
* `GivesBack`: one online lease is taken back, and goes offline if it was the last.
* **`release_exact`**: addresses can be given back if and only if the pool fits.
-/

namespace StrongSwan

namespace MemPool

variable {Id : Type} {p : MemPool Id} {base : Host}

/-! ## Offsets of addresses -/

/-- The number behind the addresses of the pool is in the last block of its base address. -/
def Fits (p : MemPool Id) (base : Host) : Prop := base.value % 2 ^ 32 + p.size.toNat < 2 ^ 32

/-- The address is none from `base` to `base + size`. -/
def Outside (p : MemPool Id) (base address : Host) : Prop :=
  ¬(address.family = base.family ∧ base.value ≤ address.value ∧
    address.value ≤ base.value + p.size.toNat)

theorem last_eq (h : Host) : untoh32 (h.address.drop (lastBlock h.family)) = BitVec.ofNat 32 h.value :=
  BitVec.eq_of_toNat_eq (by rw [toNat_last, BitVec.toNat_ofNat])

theorem take_eq_iff {a b : Host} (hfamily : a.family = b.family) :
    a.address.take (lastBlock a.family) = b.address.take (lastBlock b.family) ↔
      a.value / 2 ^ 32 = b.value / 2 ^ 32 := by
  have hvalue : ∀ h : Host, Bytes.value (h.address.take (lastBlock h.family)) = h.value / 2 ^ 32 := by
    intro h
    have hlen := length_lastBlock h.family
    rw [(Bytes.value_take_drop _ _).1, h.length_address,
      show h.family.len - lastBlock h.family = 4 by omega]
    rfl
  rw [← hvalue, ← hvalue]
  refine (Bytes.value_inj ?_).symm
  rw [List.length_take, List.length_take, a.length_address, b.length_address, hfamily]

/-- **`host2offset` on numbers.** -/
theorem host2offset_eq (hbase : p.base = some base) (address : Host) :
    p.host2offset address =
      if address.family ≠ base.family ∨ address.value / 2 ^ 32 ≠ base.value / 2 ^ 32 then -1
      else if BitVec.ofNat 32 address.value > BitVec.ofNat 32 base.value + p.size then -1
      else BitVec.ofNat 32 address.value - BitVec.ofNat 32 base.value + 1 := by
  unfold host2offset
  rw [hbase]
  dsimp only
  by_cases hfamily : address.family = base.family
  · have htake := take_eq_iff hfamily
    have hlast := last_eq address
    have hlast' := last_eq base
    rw [← hfamily] at hlast' htake
    rw [if_neg (not_not.mpr hfamily), hlast, hlast']
    have hsame : address.value / 2 ^ 32 = base.value / 2 ^ 32 →
        ¬(address.family ≠ base.family ∨ address.value / 2 ^ 32 ≠ base.value / 2 ^ 32) :=
      fun hblock h => h.elim (fun hne => hne hfamily) fun hne => hne hblock
    cases hinet : address.family with
    | inet =>
      rw [hinet] at htake hsame
      rw [if_neg (by simp), if_neg (hsame (htake.mp rfl))]
    | inet6 =>
      rw [hinet] at htake hsame
      by_cases hblock : address.address.take 12 = base.address.take 12
      · rw [if_neg (by simp [hblock]), if_neg (hsame (htake.mp hblock))]
      · rw [if_pos ⟨rfl, hblock⟩, if_pos (.inr fun heq => hblock (htake.mpr heq))]
  · rw [if_pos hfamily, if_pos (.inl hfamily)]

theorem host2offset_of_fits (hbase : p.base = some base) (hfits : p.Fits base) {address : Host}
    {o : U32} (hfamily : address.family = base.family)
    (hvalue : address.value = base.value + (o - 1).toNat) (ho : (o - 1).toNat ≤ p.size.toNat) :
    p.host2offset address = o := by
  unfold Fits at hfits
  rw [host2offset_eq hbase, if_neg, if_neg]
  · rw [hvalue, BitVec.ofNat_add, BitVec.ofNat_toNat, BitVec.setWidth_eq]
    generalize BitVec.ofNat 32 base.value = x
    bv_omega
  · rw [hvalue, gt_iff_lt, BitVec.lt_def, BitVec.toNat_add, BitVec.toNat_ofNat, BitVec.toNat_ofNat]
    omega
  · rw [not_or, not_not, not_not, hvalue]
    exact ⟨hfamily, by omega⟩

theorem host2offset_of_wrap (hbase : p.base = some base)
    (hwrap : base.value % 2 ^ 32 + p.size.toNat = 2 ^ 32) {address : Host}
    (hblock : address.value / 2 ^ 32 = base.value / 2 ^ 32) (hle : base.value ≤ address.value) :
    p.host2offset address = -1 := by
  have hsize := p.size.isLt
  rw [host2offset_eq hbase]
  split_ifs with hother hgt
  · rfl
  · rfl
  · rw [gt_iff_lt, BitVec.lt_def, BitVec.toNat_add, BitVec.toNat_ofNat, BitVec.toNat_ofNat] at hgt
    omega

theorem host2offset_of_outside (hbase : p.base = some base) (hfits : p.Fits base) {address : Host}
    (houtside : p.Outside base address) {o : U32} (hpos : o ≠ 0) (hmax : o ≠ -1)
    (ho : (o - 1).toNat ≤ p.size.toNat) : p.host2offset address ≠ o := by
  unfold Fits at hfits
  unfold Outside at houtside
  rw [host2offset_eq hbase]
  split_ifs with hother hgt
  · exact hmax.symm
  · exact hmax.symm
  · rw [not_or, not_not, not_not] at hother
    obtain ⟨hfamily, hblock⟩ := hother
    rintro rfl
    rw [gt_iff_lt, BitVec.lt_def, BitVec.toNat_add, BitVec.toNat_ofNat, BitVec.toNat_ofNat] at hgt
    rw [BitVec.add_sub_cancel, BitVec.toNat_sub, BitVec.toNat_ofNat, BitVec.toNat_ofNat] at ho
    have hin : ¬(base.value ≤ address.value ∧ address.value ≤ base.value + p.size.toNat) :=
      fun h => houtside ⟨hfamily, h⟩
    have hbefore : address.value + 1 ≠ base.value := fun heq => hpos (by
      rw [← heq, BitVec.ofNat_add]
      generalize BitVec.ofNat 32 address.value = x
      bv_omega)
    omega

/-! ## Runs -/

section Runs

variable {idHash : Id → U32} {idEquals : Id → Id → Bool} {chunkHashInc : Chunk → U32 → U32}
  {q : MemPool Id}

theorem created_base (h : Created idHash idEquals p) (hsize : 1 ≤ p.size.toNat) :
    ∃ base, p.base = some base ∧ base.value % 2 ^ 32 + p.shift.toNat + p.size.toNat ≤ 2 ^ 32 ∧
      (p.shift.toNat = 0 ∨ p.size.toNat < 2 ^ 31) := by
  obtain ⟨base, bits, rfl⟩ | ⟨from_, to_, h⟩ := h
  · cases base with
    | none =>
      have hzero : (memPoolCreate idHash idEquals none bits).size.toNat = 0 := rfl
      omega
    | some base =>
      obtain ⟨hbase, -, hshift, hsum⟩ := memPoolCreate_spec idHash idEquals base bits rfl rfl rfl
      have hle : hostBits base bits ≤ 31 := min_le_left _ _
      have hin := networkId_add_le base hle
      have hlast : base.value % 2 ^ hostBits base bits ≤ base.value % 2 ^ 32 := by
        rw [← Nat.mod_mod_of_dvd base.value (Nat.pow_dvd_pow 2 (by omega : hostBits base bits ≤ 32))]
        exact Nat.mod_le _ _
      have hpow : 2 ^ hostBits base bits ≤ 2 ^ 31 := Nat.pow_le_pow_right (by norm_num) hle
      refine ⟨base, hbase, ?_⟩
      generalize base.value % 2 ^ hostBits base bits = d at *
      split_ifs at hshift hsum <;> omega
  · obtain ⟨-, hblock, hle, hbase, -, hshift, hsum⟩ := memPoolCreateRange_spec h
    have hzero : p.shift.toNat = 0 := by
      rw [hshift]
      rfl
    exact ⟨from_, hbase, by omega, .inl hzero⟩

/-- The offset is one the pool can assign. -/
def Assignable (p : MemPool Id) (o : U32) : Prop :=
  p.shift.toNat < o.toNat ∧ o.toNat ≤ p.size.toNat + p.shift.toNat

theorem newOffset_iff_assignable (id : Id) (h : Created idHash idEquals p)
    (hsize : 1 ≤ p.size.toNat) (o : U32) :
    NewOffset idHash idEquals chunkHashInc p o ↔ p.Assignable o := by
  obtain ⟨base, hbase, hfit, -⟩ := created_base h hsize
  obtain ⟨-, hunused, hroom⟩ := created_spec h
  rw [newOffset_iff idHash idEquals chunkHashInc id (by rw [hbase]; rfl) hunused hroom]
  unfold Assignable
  constructor
  · rintro ⟨u, hu, ho⟩
    have hle := p.shift.isLt
    have hne : o ≠ 0 := by
      rintro rfl
      have hmax : ((0 : U32) - 1).toNat = 2 ^ 32 - 1 := rfl
      omega
    bv_omega
  · rintro ⟨hlow, hhigh⟩
    exact ⟨o.toNat - 1 - p.shift.toNat, by omega, by bv_omega⟩

/-- `release_address` takes one lease of `id` on the address out of its online ones, and puts its
offset with the offline ones if it was the last. -/
def GivesBack (p : MemPool Id) (address : Host) (id : Id) : Prop :=
  ∃ l₁ pair l₂ lease entry,
    p.leases.entries = l₁ ++ pair :: l₂ ∧ p.leases.get id = some pair.value ∧
    lease ∈ pair.value.online.elems ∧ p.offset2host lease.offset = some address ∧
    (p.releaseAddress address id).1 = true ∧
    (p.releaseAddress address id).2.leases.entries = l₁ ++ { pair with value := entry } :: l₂ ∧
    pair.value.online.elems.Perm (lease :: entry.online.elems) ∧
    entry.offline.elems = pair.value.offline.elems ++
      if ∃ other ∈ entry.online.elems, other.offset = lease.offset then [] else [lease.offset]

theorem givesBack_of_host2offset (hsize : p.size ≠ 0) {id : Id} {address : Host}
    (honline : p.OnlineAt id address)
    (hback : ∀ o, p.offset2host o = some address → p.host2offset address = o) :
    p.GivesBack address id := by
  obtain ⟨entry, hget, lease, hlease, haddress⟩ := honline
  have hoffset := hback lease.offset haddress
  set matching := fun current : UniqueLease => decide (current.offset = p.host2offset address)
  have hany : entry.online.elems.any matching = true :=
    List.any_eq_true.mpr ⟨lease, hlease, decide_eq_true hoffset.symm⟩
  have hlt : entry.online.elems.findIdx matching < entry.online.elems.length :=
    List.findIdx_lt_length_of_exists ⟨lease, hlease, decide_eq_true hoffset.symm⟩
  have hfirst : matching entry.online.elems[entry.online.elems.findIdx matching] = true :=
    List.findIdx_getElem
  rw [decide_eq_true_eq, hoffset] at hfirst
  set online := entry.online.remove (entry.online.elems.findIdx matching)
  have helems : online.elems = entry.online.elems.eraseIdx (entry.online.elems.findIdx matching) :=
    Arr.elems_remove _ _
  set f : Entry Id → Entry Id := fun e =>
    { e with
      online := online
      offline := if online.elems.any matching then e.offline
        else e.offline.insert (p.host2offset address) }
  have hrelease : p.releaseAddress address id =
      (true, { p with leases := p.leases.update id f }) := by
    unfold releaseAddress
    rw [if_neg hsize, hget]
    dsimp only
    rw [if_pos hany]
  obtain ⟨l₁, pair, l₂, hentries, -, rfl, hentries'⟩ := Hashtable.entries_update hget f
  refine ⟨l₁, pair, l₂, pair.value.online.elems[pair.value.online.elems.findIdx matching],
    f pair.value, hentries, hget, List.getElem_mem hlt, by rw [hfirst]; exact haddress,
    by rw [hrelease], by rw [hrelease]; exact hentries', ?_, ?_⟩
  · change pair.value.online.elems.Perm (_ :: online.elems)
    rw [helems]
    exact (List.getElem_cons_eraseIdx_perm hlt).symm
  · have hmore : online.elems.any matching = true ↔
        ∃ other ∈ online.elems, other.offset = lease.offset := by
      rw [List.any_eq_true]
      simp only [matching, decide_eq_true_eq, hoffset]
    rw [hfirst]
    change (if online.elems.any matching then pair.value.offline
      else pair.value.offline.insert (p.host2offset address)).elems = _
    by_cases hrest : online.elems.any matching = true
    · rw [if_pos hrest, if_pos (hmore.mp hrest), List.append_nil]
    · rw [if_neg hrest, if_neg fun h => hrest (hmore.mpr h), Arr.elems_insert, hoffset]

/-! ## Exactness -/

theorem offset2host_assignable (h : Created idHash idEquals p) (hsize : 1 ≤ p.size.toNat)
    (hbase : p.base = some base) {o : U32} (ho : p.Assignable o) :
    ∃ address, p.offset2host o = some address ∧ address.family = base.family ∧
      address.value = base.value + (o - 1).toNat ∧ (o - 1).toNat ≤ p.size.toNat ∧ o ≠ 0 ∧
      (o - 1).toNat + base.value % 2 ^ 32 < 2 ^ 32 := by
  obtain ⟨base', hbase', hfit, -⟩ := created_base h hsize
  obtain rfl := Option.some.inj (hbase.symm.trans hbase')
  have hshift : p.shift.toNat ≤ 1 := by
    unfold shift
    split_ifs <;> simp
  obtain ⟨hlow, hhigh⟩ := ho
  have hne : o ≠ 0 := by
    rintro rfl
    exact absurd hlow (by simp)
  have hpred : (o - 1).toNat = o.toNat - 1 := by bv_omega
  have hle : ¬o - 1 > p.size := by
    rw [gt_iff_lt, BitVec.lt_def]
    omega
  obtain ⟨address, haddress, hfamily, -, hvalue⟩ :=
    offset2host_of_lt hbase hle (by omega)
  exact ⟨address, haddress, hfamily, hvalue, by omega, hne, by omega⟩

theorem host2offset_offset2host (hbase : p.base = some base) (hfits : p.Fits base) {o : U32}
    {address : Host} (haddress : p.offset2host o = some address) : p.host2offset address = o := by
  have hle : ¬o - 1 > p.size := fun hgt => by
    rw [offset2host, if_pos hgt] at haddress
    cases haddress
  have hle' := hle
  rw [gt_iff_lt, BitVec.lt_def, not_lt] at hle'
  obtain ⟨address', haddress', hfamily, -, hvalue⟩ :=
    offset2host_of_lt hbase hle (by unfold Fits at hfits; omega)
  obtain rfl := Option.some.inj (haddress.symm.trans haddress')
  exact host2offset_of_fits hbase hfits hfamily hvalue hle'

/-- An address of the other family. -/
def otherFamily (family : Family) : Host :=
  match family with
  | .inet => ⟨.inet6, List.replicate 16 0, 0, rfl⟩
  | .inet6 => ⟨.inet, List.replicate 4 0, 0, List.length_replicate⟩

theorem family_otherFamily (family : Family) : (otherFamily family).family ≠ family := by
  cases family <;> simp [otherFamily]

/-- **Addresses can be given back** if and only if the pool does not end at the end of the last block
of its base address (and has no offset that is the one of an error): then every offset the pool
assigns is that of its address, every address that is online for an identity can be released, and no
other address has an offset the pool assigns. -/
theorem release_exact (idHash : Id → U32) (idEquals : Id → Id → Bool)
    (chunkHashInc : Chunk → U32 → U32) (id : Id) {p : MemPool Id}
    (h : Created idHash idEquals p) (hsize : 1 ≤ p.size.toNat) :
    ∃ base, p.base = some base ∧
      (((∀ o, NewOffset idHash idEquals chunkHashInc p o →
          ∃ address, p.offset2host o = some address ∧ p.host2offset address = o) ∧
        (∀ calls q, LTS.Steps (system idHash idEquals chunkHashInc) p calls q →
          ∀ address id, q.OnlineAt id address → q.GivesBack address id) ∧
        ∀ o, NewOffset idHash idEquals chunkHashInc p o →
          ∀ address, p.Outside base address → p.host2offset address ≠ o) ↔
      base.value % 2 ^ 32 + p.size.toNat < 2 ^ 32 ∧ p.size.toNat ≠ 2 ^ 32 - 1) := by
  obtain ⟨base, hbase, hfit, hfew⟩ := created_base h hsize
  obtain ⟨-, hunused, hroom⟩ := created_spec h
  refine ⟨base, hbase, ?_⟩
  have hnew : ∀ o, NewOffset idHash idEquals chunkHashInc p o ↔ p.Assignable o :=
    newOffset_iff_assignable id h hsize
  simp only [hnew]
  constructor
  · rintro ⟨hall, -, houtside⟩
    constructor
    · by_contra hwrap
      have hshift : p.shift.toNat = 0 := by omega
      have hone : p.Assignable 1 := by
        unfold Assignable
        rw [hshift]
        exact ⟨Nat.one_pos, hsize⟩
      obtain ⟨address, haddress, hfamily, hvalue, -⟩ := offset2host_assignable h hsize hbase hone
      have hfirst : address.value = base.value := hvalue
      obtain ⟨address', haddress', hback⟩ := hall 1 hone
      obtain rfl := Option.some.inj (haddress.symm.trans haddress')
      rw [host2offset_of_wrap hbase (by omega) (by rw [hfirst]) hfirst.ge] at hback
      exact absurd hback (by decide)
    · intro hmax
      have hlast : p.Assignable (-1) := by
        have hminus : (-1 : U32).toNat = 2 ^ 32 - 1 := rfl
        unfold Assignable
        omega
      refine houtside (-1) hlast (otherFamily base.family) (fun hin => ?_) ?_
      · exact family_otherFamily base.family hin.1
      · rw [host2offset_eq hbase, if_pos (.inl (family_otherFamily base.family))]
  · rintro ⟨hfits, hmax⟩
    refine ⟨fun o ho => ?_, fun calls q hsteps address id honline => ?_, fun o ho address hout => ?_⟩
    · obtain ⟨address, haddress, -⟩ := offset2host_assignable h hsize hbase ho
      exact ⟨address, haddress, host2offset_offset2host hbase hfits haddress⟩
    · obtain ⟨hqbase, -, hqsize, -⟩ :=
        static_steps hsteps (by rw [hunused, BitVec.le_def]; simp)
      have hqfits : q.Fits base := by
        unfold Fits
        rw [hqsize]
        exact hfits
      have hqne : q.size ≠ 0 := fun hzero => by
        rw [hqsize] at hzero
        rw [hzero] at hsize
        exact absurd hsize (by decide)
      exact givesBack_of_host2offset hqne honline fun o ho =>
        host2offset_offset2host (hqbase.trans hbase) hqfits ho
    · obtain ⟨-, -, -, -, hle, hne, -⟩ := offset2host_assignable h hsize hbase ho
      refine host2offset_of_outside hbase hfits hout hne (fun heq => ?_) hle
      obtain ⟨-, hhigh⟩ := ho
      have hshift : p.shift.toNat ≤ 1 := by
        unfold shift
        split_ifs <;> simp
      have hminus : (-1 : U32).toNat = 2 ^ 32 - 1 := rfl
      rw [heq, hminus] at hhigh
      omega

end Runs

/-- The range `10.0.0.1-10.0.0.5` fits, and every run gives back what it leased. -/
theorem release_exact_ten :
    let host := fun last : U8 => (⟨.inet, [10, 0, 0, last], 0, rfl⟩ : Host)
    let idHash := fun _ : ℕ => (0 : U32)
    let idEquals := fun a b : ℕ => decide (a = b)
    ∃ p, memPoolCreateRange idHash idEquals (host 1) (host 5) = some p ∧
      ∀ calls q, LTS.Steps (system idHash idEquals fun _ _ => 0) p calls q →
        ∀ address id, q.OnlineAt id address → q.GivesBack address id := by
  intro host idHash idEquals
  have hcreate : memPoolCreateRange idHash idEquals (host 1) (host 5) = some _ := rfl
  obtain ⟨base, hbase, hexact⟩ := release_exact idHash idEquals (fun _ _ => 0) 0
    (.inr ⟨host 1, host 5, hcreate⟩) (by decide)
  obtain rfl : host 1 = base := Option.some.inj hbase
  exact ⟨_, hcreate, (hexact.mpr (by decide)).2.1⟩

/-- The range `255.255.255.250-255.255.255.255` ends with the last address of all: no address that is
leased from it leads back to its offset. -/
theorem not_release_exact :
    ¬ ∀ from_ to_ p, memPoolCreateRange (fun _ : ℕ => 0) (fun a b => decide (a = b)) from_ to_ = some p →
      1 ≤ p.size.toNat → ∀ o, NewOffset (fun _ => 0) (fun a b => decide (a = b)) (fun _ _ => 0) p o →
        ∃ address, p.offset2host o = some address ∧ p.host2offset address = o := by
  intro h
  let host := fun last : U8 => (⟨.inet, [255, 255, 255, last], 0, rfl⟩ : Host)
  have hcreate : memPoolCreateRange (fun _ : ℕ => 0) (fun a b => decide (a = b)) (host 250) (host 255) =
      some _ := rfl
  obtain ⟨address, haddress, hback⟩ := h _ _ _ hcreate (by decide) 1
    ((newOffset_iff_assignable 0 (.inr ⟨host 250, host 255, hcreate⟩) (by decide) 1).mpr (by
      unfold Assignable
      decide))
  have hfirst : some (host 250) = some address := by
    rw [← haddress]
    decide
  obtain rfl := Option.some.inj hfirst
  revert hback
  decide

end MemPool

end StrongSwan
