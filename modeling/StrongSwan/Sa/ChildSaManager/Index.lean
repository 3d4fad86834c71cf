import StrongSwan.Sa.ChildSaManager

/-!
# The tables of CHILD_SAs agree

* `Index`: the three tables hold the same entries, at different addresses that were not freed.
* `Index.step`: a call keeps the tables in agreement, unless it adds a CHILD_SA again under the unique
  identifier of one that is still there, with both other keys changed.
* **`along_after_iff`**: entries are live and found under their own keys in all tables after every call,
  if and only if no call does that.
-/

namespace StrongSwan

namespace ChildEntry

theorem ipEquals_equivalence : Equivalence fun a b => ipEquals a b = true := by
  refine ⟨fun a => ?_, fun {a b} hab => ?_, fun {a b c} hab hbc => ?_⟩
  · cases a with
    | none => rfl
    | some a => exact a.ipEquals_refl
  · cases a <;> cases b <;> simp_all [ipEquals]
    exact Host.ipEquals_symm hab
  · cases a <;> cases b <;> cases c <;> simp_all [ipEquals]
    exact Host.ipEquals_trans hab hbc

theorem equivalence_and {α β : Type} [DecidableEq α] [DecidableEq β] (f : ChildEntry → α)
    (g : ChildEntry → β) (host : ChildEntry → Option Host) :
    Equivalence fun a b : ChildEntry =>
      (decide (f a = f b) && decide (g a = g b) && ipEquals (host a) (host b)) = true := by
  simp only [Bool.and_eq_true, decide_eq_true_eq]
  refine ⟨fun a => ⟨⟨rfl, rfl⟩, ipEquals_equivalence.refl _⟩, ?_, ?_⟩
  · rintro a b ⟨⟨hf, hg⟩, hhost⟩
    exact ⟨⟨hf.symm, hg.symm⟩, ipEquals_equivalence.symm hhost⟩
  · rintro a b c ⟨⟨hf, hg⟩, hhost⟩ ⟨⟨hf', hg'⟩, hhost'⟩
    exact ⟨⟨hf.trans hf', hg.trans hg'⟩, ipEquals_equivalence.trans hhost hhost'⟩

theorem equalsIn_equivalence : Equivalence fun a b => equalsIn a b = true :=
  equivalence_and spiIn proto hostIn

theorem equalsOut_equivalence : Equivalence fun a b => equalsOut a b = true :=
  equivalence_and spiOut proto hostOut

theorem equalsId_equivalence : Equivalence fun a b => equalsId a b = true := by
  simp only [equalsId, decide_eq_true_eq]
  exact ⟨fun _ => rfl, fun h => h.symm, fun h h' => h.trans h'⟩

end ChildEntry

namespace ChildSaManager

open ChildEntry

/-- The three tables hold the entries of `s`, which are at different addresses that were not freed. -/
structure Index (key : Chunk) (this : ChildSaManager) (s : Multiset ChildEntry) : Prop where
  in_ : this.in_.LooseIndex s
  out : this.out.LooseIndex s
  ids : this.ids.LooseIndex s
  equals_ids : this.ids.equals = equalsId
  hash_ids : this.ids.hash = hashId key
  places : (s.map place + (this.freed : Multiset ℕ)).Nodup
  next : ∀ n ∈ s.map place + (this.freed : Multiset ℕ), n < this.next

section Index

variable {key : Chunk} {this : ChildSaManager} {s : Multiset ChildEntry}

theorem looseIndex_create_eight {hash : ChildEntry → U32} {equals : ChildEntry → ChildEntry → Bool}
    (h : Equivalence fun a b => equals a b = true) :
    (Hashtable.create hash equals 8).LooseIndex 0 := by
  have height : 8 = 2 ^ 3 := rfl
  rw [height]
  exact Hashtable.looseIndex_create h (by omega)

theorem index_create (key : Chunk) : (create key).Index key 0 where
  in_ := looseIndex_create_eight equalsIn_equivalence
  out := looseIndex_create_eight equalsOut_equivalence
  ids := looseIndex_create_eight equalsId_equivalence
  equals_ids := rfl
  hash_ids := rfl
  places := by simp [create]
  next := by simp [create]

theorem Index.mem_of_stored (h : this.Index key s) {e : ChildEntry} (he : this.Stored e) :
    e ∈ s := by
  obtain ⟨table, rfl | rfl | rfl, hp⟩ := he
  · exact h.in_.mem_iff.mpr hp
  · exact h.out.mem_iff.mpr hp
  · exact h.ids.mem_iff.mpr hp

theorem underOwnKey {table : Hashtable ChildEntry ChildEntry} (h : table.LooseIndex s)
    {e : ChildEntry} (he : e ∈ s) : UnderOwnKey table e :=
  ⟨h.get_self he, fun p hp hvalue => (h.own p hp).trans hvalue⟩

/-- **Tables that agree are sound.** -/
theorem Index.sound (h : this.Index key s) : this.Sound where
  live he hfreed :=
    Multiset.disjoint_left.mp (Multiset.nodup_add.mp h.places).2.2
      (Multiset.mem_map_of_mem place (h.mem_of_stored he)) (Multiset.mem_coe.mpr hfreed)
  own he :=
    have he := h.mem_of_stored he
    ⟨underOwnKey h.in_ he, underOwnKey h.out he, underOwnKey h.ids he⟩
  once := Multiset.coe_nodup.mp (Multiset.nodup_add.mp h.places).2.1

theorem Index.findById_eq_some_iff (h : this.Index key s) {uniqueId : U32} {e : ChildEntry} :
    this.findById uniqueId = some e ↔ e ∈ s ∧ e.uniqueId = uniqueId := by
  rw [findById, h.ids.get_eq_some_iff]
  refine and_congr_right fun _ => ?_
  rw [Hashtable.Matches, h.equals_ids, h.hash_ids, equalsId, decide_eq_true_eq, hashId, hashId]
  constructor
  · exact fun hmatches => hmatches.1.symm
  · rintro rfl
    exact ⟨rfl, rfl⟩

end Index

/-! ## Checking out -/

theorem checkoutIkesa_spec {manager : IkeSaId → Option IkeSa} {id : IkeSaId} {uniqueId : U32}
    {ikeSa : IkeSa} {childSa : ChildSa}
    (h : checkoutIkesa manager id uniqueId = some (ikeSa, childSa)) :
    childSa ∈ ikeSa.childSas ∧ childSa.uniqueId = uniqueId := by
  rw [checkoutIkesa] at h
  cases hmanager : manager id with
  | none => simp [hmanager] at h
  | some found =>
    rw [hmanager] at h
    obtain ⟨current, hfind, heq⟩ := Option.map_eq_some_iff.mp h
    obtain ⟨rfl, rfl⟩ := Prod.mk.inj heq
    exact ⟨List.mem_of_find?_eq_some hfind, by simpa using List.find?_some hfind⟩

theorem Index.checksOut {key : Chunk} {this : ChildSaManager} {s : Multiset ChildEntry}
    (h : this.Index key s) : this.ChecksOut where
  byId {manager uniqueId ikeSa childSa} hout := by
    rw [checkoutById] at hout
    cases hfind : this.findById uniqueId with
    | none => simp [hfind] at hout
    | some e =>
      rw [hfind] at hout
      obtain ⟨id, -, hout⟩ := Option.bind_eq_some_iff.mp hout
      obtain ⟨hmem, hid⟩ := checkoutIkesa_spec hout
      exact ⟨hmem, hid, e, rfl, (h.findById_eq_some_iff.mp hfind).2.trans hid.symm⟩
  bySpi {manager protocol spi dst ikeSa childSa} hout := by
    rw [checkout] at hout
    cases hfind : this.find protocol spi dst with
    | none => simp [hfind] at hout
    | some e =>
      rw [hfind] at hout
      obtain ⟨id, -, hout⟩ := Option.bind_eq_some_iff.mp hout
      obtain ⟨hmem, hid⟩ := checkoutIkesa_spec hout
      exact ⟨hmem, e, rfl, hid.symm⟩

/-! ## One call -/

section Step

variable {key : Chunk} {this : ChildSaManager} {s : Multiset ChildEntry}

theorem Index.destroy_new (h : this.Index key s) (e : ChildEntry) (he : e.place = this.next) :
    (childEntryDestroy { this with next := this.next + 1 } e).Index key s where
  in_ := h.in_
  out := h.out
  ids := h.ids
  equals_ids := h.equals_ids
  hash_ids := h.hash_ids
  places := by
    change (s.map place + (e.place ::ₘ (this.freed : Multiset ℕ))).Nodup
    rw [Multiset.add_cons, Multiset.nodup_cons]
    exact ⟨fun hmem => absurd (h.next _ hmem) (by omega), h.places⟩
  next n hn := by
    change n ∈ s.map place + (e.place ::ₘ (this.freed : Multiset ℕ)) at hn
    change n < this.next + 1
    rw [Multiset.add_cons, Multiset.mem_cons] at hn
    rcases hn with rfl | hn
    · omega
    · have := h.next n hn
      omega

theorem Index.put (h : this.Index key s) {e : ChildEntry} (he : e.place = this.next)
    (hin : this.in_.get e = none) (hout : this.out.get e = none) (hids : this.ids.get e = none) :
    Index key { this with
      in_ := (this.in_.put e e).2, out := (this.out.put e e).2, ids := (this.ids.put e e).2
      next := this.next + 1 } (e ::ₘ s) := by
  obtain ⟨-, hin', -, -⟩ := h.in_.put hin
  obtain ⟨-, hout', -, -⟩ := h.out.put hout
  obtain ⟨-, hids', hequals, hhash⟩ := h.ids.put hids
  refine ⟨hin', hout', hids', hequals.trans h.equals_ids, hhash.trans h.hash_ids, ?_, ?_⟩
  · dsimp only
    rw [Multiset.map_cons, Multiset.cons_add, Multiset.nodup_cons]
    exact ⟨fun hmem => absurd (h.next _ hmem) (by omega), h.places⟩
  · intro n hn
    dsimp only at hn ⊢
    rw [Multiset.map_cons, Multiset.cons_add, Multiset.mem_cons] at hn
    rcases hn with rfl | hn
    · omega
    · have := h.next n hn
      omega

theorem Index.add (h : this.Index key s) {childSa : ChildSa} {ikeSa : IkeSa}
    (hfresh : this.Fresh (.add childSa ikeSa)) : ∃ s', (this.add childSa ikeSa).Index key s' := by
  set e := this.newEntry childSa ikeSa with he
  have hplace : e.place = this.next := rfl
  rw [ChildSaManager.add]
  dsimp only
  rw [← he]
  split_ifs with hget
  · simp only [Bool.and_eq_true, Option.isNone_iff_eq_none] at hget
    have hids : this.ids.get e = none := by
      rcases hfresh with hids | hin | hout
      · exact hids
      · rw [← he, hget.1] at hin
        cases hin
      · rw [← he, hget.2] at hout
        cases hout
    rw [(h.ids.put hids).1]
    exact ⟨_, h.put hplace hget.1 hget.2 hids⟩
  · exact ⟨s, h.destroy_new e hplace⟩

/-- **Removing takes the entry out of all tables.** -/
theorem Index.remove (h : this.Index key s) (childSa : ChildSa) :
    ∃ s' ≤ s, (∀ e ∈ s', e.uniqueId ≠ childSa.uniqueId) ∧ (this.remove childSa).Index key s' := by
  rw [ChildSaManager.remove]
  dsimp only
  cases hfind : this.findById childSa.uniqueId with
  | none =>
    rw [h.ids.loose.remove_none hfind]
    refine ⟨s, le_rfl, fun e he hid => ?_, h⟩
    rw [h.findById_eq_some_iff.mpr ⟨he, hid⟩] at hfind
    cases hfind
  | some e =>
    obtain ⟨he, hid⟩ := h.findById_eq_some_iff.mp hfind
    obtain ⟨hfst, hequals, hhash, s', rfl, hids⟩ := h.ids.remove hfind
    obtain ⟨-, -, -, s₁, hs₁, hin⟩ := h.in_.remove (h.in_.get_self he)
    obtain ⟨-, -, -, s₂, hs₂, hout⟩ := h.out.remove (h.out.get_self he)
    rw [Multiset.cons_inj_right] at hs₁ hs₂
    subst hs₁ hs₂
    rw [hfst]
    refine ⟨s', Multiset.le_cons_self s' e, fun e' he' hid' => ?_, hin, hout, hids,
      hequals.trans h.equals_ids, hhash.trans h.hash_ids, ?_, ?_⟩
    · -- two entries with the same identifier are one
      have hfind' := h.findById_eq_some_iff.mpr ⟨Multiset.mem_cons_of_mem he', hid'⟩
      obtain rfl : e = e' := Option.some.inj (hfind.symm.trans hfind')
      exact (Multiset.nodup_cons.mp h.ids.nodup).1 he'
    · have hplaces := h.places
      rw [Multiset.map_cons, Multiset.cons_add] at hplaces
      change (s'.map place + (e.place ::ₘ (this.freed : Multiset ℕ))).Nodup
      rwa [Multiset.add_cons]
    · intro n hn
      change n ∈ s'.map place + (e.place ::ₘ (this.freed : Multiset ℕ)) at hn
      rw [Multiset.add_cons] at hn
      apply h.next
      rwa [Multiset.map_cons, Multiset.cons_add]

/-- **A call keeps the tables in agreement**, unless it replaces an entry by its unique identifier. -/
theorem Index.step (h : this.Index key s) {call : Call} (hfresh : this.Fresh call) :
    ∃ s', (this.step call).Index key s' := by
  cases call with
  | add childSa ikeSa => exact h.add hfresh
  | remove childSa =>
    obtain ⟨s', -, -, hs'⟩ := h.remove childSa
    exact ⟨s', hs'⟩

theorem Index.after (h : this.Index key s) {call : Call} (hfresh : this.Fresh call) :
    this.After call := by
  obtain ⟨s', hs'⟩ := h.step hfresh
  refine ⟨hs'.sound, ?_, hs'.checksOut⟩
  rintro childSa rfl e he
  obtain ⟨s₁, -, hids, hs₁⟩ := h.remove childSa
  exact hids e (hs₁.mem_of_stored he)

theorem Index.fresh (h : this.Index key s) {call : Call} (hsound : (this.step call).Sound) :
    this.Fresh call := by
  cases call with
  | remove childSa => trivial
  | add childSa ikeSa =>
    set e := this.newEntry childSa ikeSa with he
    by_contra hfresh
    rw [Fresh, ← he, not_or, not_or, Bool.not_eq_true, Bool.not_eq_true,
      Option.isSome_eq_false_iff, Option.isSome_eq_false_iff, Option.isNone_iff_eq_none,
      Option.isNone_iff_eq_none] at hfresh
    obtain ⟨hids, hin, hout⟩ := hfresh
    obtain ⟨old, hold⟩ := Option.ne_none_iff_exists'.mp hids
    have hmem := (h.ids.get_eq_some_iff.mp hold).1
    have hput : (this.ids.put e e).1 = some old := by
      rw [Hashtable.put]
      exact (h.ids.loose.get_eq e).symm.trans hold
    have hadd : this.step (.add childSa ikeSa) = childEntryDestroy { this with
        in_ := (this.in_.put e e).2, out := (this.out.put e e).2, ids := (this.ids.put e e).2
        next := this.next + 1 } old := by
      rw [ChildSaManager.step, ChildSaManager.add]
      dsimp only
      rw [← he, hin, hout]
      simp [hput]
    obtain ⟨-, hin', -, -⟩ := h.in_.put hin
    have hstored : (this.step (.add childSa ikeSa)).Stored old := by
      rw [hadd]
      exact ⟨_, .inl rfl, hin'.mem_iff.mp (Multiset.mem_cons_of_mem hmem)⟩
    refine hsound.live hstored ?_
    rw [hadd]
    exact List.mem_cons_self

end Step

/-! ## All calls -/

/-- **After every call entries are live and under their own keys in all tables**, if and only if no
CHILD_SA is added under the unique identifier of an entry that is still there, when no entry has its
inbound or outbound key. -/
theorem along_after_iff (key : Chunk) (calls : List Call) :
    LTS.Along step After (create key) calls ↔ LTS.Along step Fresh (create key) calls := by
  refine LTS.along_congr (I := fun this => ∃ s, this.Index key s) ?_ ?_ ⟨0, index_create key⟩
  · rintro this call ⟨s, h⟩ hfresh
    exact h.step hfresh
  · rintro this call ⟨s, h⟩
    exact ⟨fun hafter => h.fresh hafter.sound, h.after⟩

/-- An IKE_SA between 10.0.0.1 and 10.0.0.2. -/
def exampleIkeSa : IkeSa where
  id := ⟨ikev2MajorVersion, 1, 2, true⟩
  myHost := .ofLast 1 500
  otherHost := .ofLast 2 500
  childSas := []

/-- A CHILD_SA that is added again with other SPIs: its first entry is freed, and stays in two tables. -/
theorem not_after : ¬ LTS.Along step After (create [])
    [.add ⟨1, .esp, 0x100, 0x101⟩ exampleIkeSa, .add ⟨1, .esp, 0x200, 0x201⟩ exampleIkeSa] := by
  intro h
  have hafter := (LTS.along_cons.mp (LTS.along_cons.mp h).2).1
  set first := (create []).step (.add ⟨1, .esp, 0x100, 0x101⟩ exampleIkeSa) with hfirst
  have hfresh : (create []).Fresh (.add ⟨1, .esp, 0x100, 0x101⟩ exampleIkeSa) := .inl rfl
  obtain ⟨s, hs⟩ := (index_create []).step hfresh
  rcases hs.fresh hafter.sound with hids | hin | hout
  · have hsome : (first.ids.get (first.newEntry ⟨1, .esp, 0x200, 0x201⟩ exampleIkeSa)).isSome =
        true := by
      rw [hfirst]
      decide +kernel
    rw [hids] at hsome
    cases hsome
  · have hnone : (first.in_.get (first.newEntry ⟨1, .esp, 0x200, 0x201⟩ exampleIkeSa)).isSome =
        false := by
      rw [hfirst]
      decide +kernel
    rw [hnone] at hin
    cases hin
  · have hnone : (first.out.get (first.newEntry ⟨1, .esp, 0x200, 0x201⟩ exampleIkeSa)).isSome =
        false := by
      rw [hfirst]
      decide +kernel
    rw [hnone] at hout
    cases hout

end ChildSaManager

end StrongSwan
