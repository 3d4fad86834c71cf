import StrongSwan.Attributes.MemPool.Create

/-!
# Virtual addresses are unique

Every call to a pool keeps the ownership of offsets: an offset is listed by one entry, there at most
once offline, and not both online and offline.

* `Owned`: the ownership of a list of entries. `Owned.replace`, `Owned.reassign`: changing one entry
  and the loop of `getReassigned` keep it.
* `Inv`: ownership over a well-formed table, with all offsets in use.
* `Granted`, `granted_acquireAddress`: an acquired lease is online, and no other goes offline.
* **`leases_unique`**: ownership in every reachable state, and its consequences for addresses.
-/

namespace StrongSwan

open Hashtable

variable {Id : Type}

/-! ## Entries -/

namespace Entry

def offsets (e : Entry Id) : List U32 := e.online.elems.map UniqueLease.offset ++ e.offline.elems

/-- Offline offsets are listed once and not online. -/
structure Wf (e : Entry Id) : Prop where
  nodup : e.offline.elems.Nodup
  disjoint : ∀ lease ∈ e.online.elems, lease.offset ∉ e.offline.elems

theorem mem_offsets {e : Entry Id} {o : U32} :
    o ∈ e.offsets ↔ (∃ lease ∈ e.online.elems, lease.offset = o) ∨ o ∈ e.offline.elems := by
  simp [offsets]

theorem mem_offsets_of_online {e : Entry Id} {lease : UniqueLease} (h : lease ∈ e.online.elems) :
    lease.offset ∈ e.offsets := mem_offsets.mpr (.inl ⟨lease, h, rfl⟩)

theorem mem_offsets_of_offline {e : Entry Id} {o : U32} (h : o ∈ e.offline.elems) :
    o ∈ e.offsets := mem_offsets.mpr (.inr h)

theorem wf_create (id : Id) : (entryCreate id).Wf := ⟨List.nodup_nil, by simp [entryCreate]⟩

end Entry

/-! ## Ownership -/

/-- Every offset is listed by at most one entry of a list of well-formed ones. -/
structure Owned (l : List (Pair Id (Entry Id))) : Prop where
  wf : ∀ q ∈ l, q.value.Wf
  disjoint : l.Pairwise fun q r => q.value.offsets.Disjoint r.value.offsets

namespace Owned

variable {l l₁ l₂ : List (Pair Id (Entry Id))} {q r : Pair Id (Entry Id)} {o : U32}

theorem perm (h : Owned l₁) (hperm : l₂.Perm l₁) : Owned l₂ :=
  ⟨fun q hq => h.wf q (hperm.subset hq),
    (hperm.pairwise_iff fun hd => List.Disjoint.symm hd).mpr h.disjoint⟩

theorem cons_iff : Owned (q :: l) ↔
    q.value.Wf ∧ (∀ r ∈ l, q.value.offsets.Disjoint r.value.offsets) ∧ Owned l := by
  constructor
  · rintro ⟨hwf, hd⟩
    rw [List.pairwise_cons] at hd
    exact ⟨hwf q List.mem_cons_self, hd.1, fun r hr => hwf r (List.mem_cons_of_mem _ hr), hd.2⟩
  · rintro ⟨hwf, hd, hl⟩
    exact ⟨List.forall_mem_cons.mpr ⟨hwf, hl.wf⟩, List.pairwise_cons.mpr ⟨hd, hl.disjoint⟩⟩

theorem eq_of_mem (h : Owned l) (hq : q ∈ l) (hr : r ∈ l) (hoq : o ∈ q.value.offsets)
    (hor : o ∈ r.value.offsets) : q = r := by
  by_contra hne
  have hsymm : Std.Symm fun q r : Pair Id (Entry Id) => q.value.offsets.Disjoint r.value.offsets :=
    ⟨fun _ _ => List.Disjoint.symm⟩
  exact h.disjoint.forall hq hr hne hoq hor

/-- **An entry may change within its own offsets and take new ones.** -/
theorem replace (h : Owned (l₁ ++ q :: l₂)) {e : Entry Id} (hwf : e.Wf)
    (hsub : ∀ o ∈ e.offsets, o ∈ q.value.offsets ∨
      ∀ r ∈ l₁ ++ q :: l₂, o ∉ r.value.offsets) :
    Owned (l₁ ++ { q with value := e } :: l₂) := by
  have hperm : (l₁ ++ q :: l₂).Perm (q :: (l₁ ++ l₂)) := List.perm_middle
  obtain ⟨-, hd, hl⟩ := cons_iff.mp (h.perm hperm.symm)
  refine (cons_iff.mpr ⟨hwf, fun r hr o hoe hor => ?_, hl⟩).perm List.perm_middle
  obtain hoq | hnew := hsub o hoe
  · exact hd r hr hoq hor
  · exact hnew r (hperm.symm.subset (List.mem_cons_of_mem _ hr)) hor

end Owned

/-! ## The loop of `getReassigned` -/

/-- What the loop leaves: no offset is added, the one taken is listed nowhere anymore, and whatever
is online stays. -/
structure Reassigned (l l' : List (Pair Id (Entry Id))) (o : U32) : Prop where
  owned : Owned l'
  subset : ∀ q' ∈ l', ∃ q ∈ l, q'.value.offsets ⊆ q.value.offsets
  taken : o ≠ 0 → (∃ q ∈ l, o ∈ q.value.offsets) ∧ ∀ q' ∈ l', o ∉ q'.value.offsets
  online : ∀ q ∈ l, ∀ lease ∈ q.value.online.elems,
    ∃ q' ∈ l', q'.key = q.key ∧ lease ∈ q'.value.online.elems

theorem Entry.Wf.remove_head {e : Entry Id} (h : e.Wf) {o : U32}
    (ho : e.offline.elems.head? = some o) :
    ({ e with offline := e.offline.remove 0 } : Entry Id).Wf ∧
      ({ e with offline := e.offline.remove 0 } : Entry Id).offsets ⊆ e.offsets ∧
      o ∉ ({ e with offline := e.offline.remove 0 } : Entry Id).offsets := by
  obtain ⟨rest, hrest⟩ := List.head?_eq_some_iff.mp ho
  have hremove : (e.offline.remove 0).elems = rest := by simp [hrest]
  have hnodup := h.nodup
  rw [hrest, List.nodup_cons] at hnodup
  have hdisj : ∀ lease ∈ e.online.elems, lease.offset ≠ o ∧ lease.offset ∉ rest := by
    intro lease hl
    have := h.disjoint lease hl
    rwa [hrest, List.mem_cons, not_or] at this
  refine ⟨⟨by rw [hremove]; exact hnodup.2, fun lease hl => ?_⟩, fun x hx => ?_, fun hmem => ?_⟩
  · rw [hremove]
    exact (hdisj lease hl).2
  · rw [Entry.mem_offsets] at hx ⊢
    refine hx.imp_right fun hx => ?_
    rw [hremove] at hx
    rw [hrest]
    exact List.mem_cons_of_mem _ hx
  · rw [Entry.mem_offsets, hremove] at hmem
    obtain ⟨lease, hl, heq⟩ | hmem := hmem
    · exact (hdisj lease hl).1 heq
    · exact hnodup.1 hmem

theorem reassignEntry_of_none {e : Entry Id} (ho : e.offline.elems.head? = none) :
    MemPool.reassignEntry 0 e = (0, if e.online.elems.isEmpty then none else some e, false) := by
  have hnil := List.head?_eq_none_iff.mp ho
  simp [MemPool.reassignEntry, hnil]

theorem reassignEntry_of_some {e : Entry Id} {o : U32} (ho : e.offline.elems.head? = some o)
    (ho0 : o ≠ 0) : ∃ v, MemPool.reassignEntry 0 e = (o, v, true) ∧
      (v = some { e with offline := e.offline.remove 0 } ∨ v = none ∧ e.online.elems = []) := by
  simp only [MemPool.reassignEntry, ho, Option.getD_some, Option.isSome_some, if_true, ho0, ne_eq,
    not_false_eq_true, decide_true, Prod.mk.injEq, true_and, and_true, exists_eq_left']
  split_ifs with hempty
  · right
    rw [Bool.and_eq_true, List.isEmpty_iff] at hempty
    exact ⟨rfl, hempty.1⟩
  · left
    rfl

/-- **The loop of `getReassigned`** over entries whose offsets are not zero. -/
theorem Owned.reassign {l : List (Pair Id (Entry Id))} (h : Owned l)
    (hzero : ∀ q ∈ l, (0 : U32) ∉ q.value.offsets) (n : ℕ) :
    Reassigned l (visitRow MemPool.reassignEntry l ⟨0, n, false⟩).1
      (visitRow MemPool.reassignEntry l ⟨0, n, false⟩).2.state := by
  induction l generalizing n with
  | nil => exact ⟨h, by simp [visitRow], by simp [visitRow], by simp⟩
  | cons q l ih =>
    obtain ⟨hwf, hd, hl⟩ := Owned.cons_iff.mp h
    have ih := ih hl fun r hr => hzero r (List.mem_cons_of_mem _ hr)
    rw [visitRow]
    simp only [Bool.false_eq_true, if_false]
    cases ho : q.value.offline.elems.head? with
    | none =>
      -- nothing to take here: the entry stays or is empty
      rw [reassignEntry_of_none ho]
      by_cases hempty : q.value.online.elems.isEmpty
      · simp only [hempty, if_true]
        obtain ⟨hown, hsub, htaken, honline⟩ := ih (n - 1)
        refine ⟨hown, fun q' hq' => ?_, fun ho0 => ?_, fun r hr lease hlease => ?_⟩
        · obtain ⟨r, hr, hs⟩ := hsub q' hq'
          exact ⟨r, List.mem_cons_of_mem _ hr, hs⟩
        · obtain ⟨⟨r, hr, hor⟩, hnot⟩ := htaken ho0
          exact ⟨⟨r, List.mem_cons_of_mem _ hr, hor⟩, hnot⟩
        · obtain rfl | hr := List.mem_cons.mp hr
          · rw [List.isEmpty_iff.mp hempty] at hlease
            cases hlease
          · exact honline r hr lease hlease
      · simp only [hempty]
        obtain ⟨hown, hsub, htaken, honline⟩ := ih n
        refine ⟨Owned.cons_iff.mpr ⟨hwf, fun r hr o hoq hor => ?_, hown⟩, fun q' hq' => ?_,
          fun ho0 => ?_, fun r hr lease hlease => ?_⟩
        · obtain ⟨r', hr', hs⟩ := hsub r hr
          exact hd r' hr' hoq (hs hor)
        · obtain rfl | hq' := List.mem_cons.mp hq'
          · exact ⟨q, List.mem_cons_self, fun _ => id⟩
          · obtain ⟨r, hr, hs⟩ := hsub q' hq'
            exact ⟨r, List.mem_cons_of_mem _ hr, hs⟩
        · obtain ⟨⟨r, hr, hor⟩, hnot⟩ := htaken ho0
          refine ⟨⟨r, List.mem_cons_of_mem _ hr, hor⟩, List.forall_mem_cons.mpr ⟨fun hoq => ?_, hnot⟩⟩
          exact hd r hr hoq hor
        · obtain rfl | hr := List.mem_cons.mp hr
          · exact ⟨r, List.mem_cons_self, rfl, hlease⟩
          · obtain ⟨q', hq', hk, hin⟩ := honline r hr lease hlease
            exact ⟨q', List.mem_cons_of_mem _ hq', hk, hin⟩
    | some o =>
      -- this lease is taken and the loop left
      have hoq : o ∈ q.value.offsets :=
        Entry.mem_offsets_of_offline (List.mem_of_head? ho)
      have ho0 : o ≠ 0 := by
        rintro rfl
        exact hzero q List.mem_cons_self hoq
      have hrest : ∀ r ∈ l, o ∉ r.value.offsets := fun r hr hor => hd r hr hoq hor
      obtain ⟨v, hv, hcases⟩ := reassignEntry_of_some ho ho0
      rw [hv]
      obtain rfl | ⟨rfl, hnil⟩ := hcases
      · obtain ⟨hwf', hsub', hnot'⟩ := hwf.remove_head ho
        simp only [visitRow_done]
        refine ⟨Owned.cons_iff.mpr ⟨hwf', fun r hr x hx hxr => hd r hr (hsub' hx) hxr, hl⟩,
          List.forall_mem_cons.mpr ⟨⟨q, List.mem_cons_self, hsub'⟩, fun r hr =>
            ⟨r, List.mem_cons_of_mem _ hr, fun _ => id⟩⟩,
          fun _ => ⟨⟨q, List.mem_cons_self, hoq⟩, List.forall_mem_cons.mpr ⟨hnot', hrest⟩⟩,
          fun r hr lease hlease => ?_⟩
        obtain rfl | hr := List.mem_cons.mp hr
        · exact ⟨_, List.mem_cons_self, rfl, hlease⟩
        · exact ⟨r, List.mem_cons_of_mem _ hr, rfl, hlease⟩
      · simp only [visitRow_done]
        refine ⟨hl, fun r hr => ⟨r, List.mem_cons_of_mem _ hr, fun _ => id⟩,
          fun _ => ⟨⟨q, List.mem_cons_self, hoq⟩, hrest⟩, fun r hr lease hlease => ?_⟩
        obtain rfl | hr := List.mem_cons.mp hr
        · rw [hnil] at hlease
          cases hlease
        · exact ⟨r, hr, rfl, hlease⟩

/-! ## The invariant of a pool -/

namespace MemPool

/-- The offset has been handed out. -/
def Used (p : MemPool Id) (o : U32) : Prop :=
  p.shift.toNat < o.toNat ∧ o.toNat ≤ p.unused.toNat + p.shift.toNat

/-- No entry lists the offset. -/
def Fresh (p : MemPool Id) (o : U32) : Prop := ∀ q ∈ p.leases.entries, o ∉ q.value.offsets

/-- The offset is online for an identity. -/
def Online (p : MemPool Id) (id : Id) (o : U32) : Prop :=
  ∃ q ∈ p.leases.entries, p.leases.equals id q.key = true ∧
    ∃ lease ∈ q.value.online.elems, lease.offset = o

/-- What holds of a pool after every call. -/
structure Inv (idEquals : Id → Id → Bool) (p : MemPool Id) : Prop where
  leases : p.leases.Wf
  equals : p.leases.equals = idEquals
  owned : Owned p.leases.entries
  used : ∀ q ∈ p.leases.entries, ∀ o ∈ q.value.offsets, p.Used o
  unused : p.unused.toNat ≤ p.size.toNat
  size : p.size.toNat + p.shift.toNat < 2 ^ 32

theorem Used.ne_zero {p : MemPool Id} {o : U32} (h : p.Used o) : o ≠ 0 := by
  rintro rfl
  exact absurd h.1 (by simp)

section

variable {idEquals : Id → Id → Bool} {p : MemPool Id}

/-- **An offset is online for one identity.** -/
theorem Inv.equals_of_online (h : Inv idEquals p) {a b : Id} {o : U32} (ha : p.Online a o)
    (hb : p.Online b o) : idEquals a b = true := by
  obtain ⟨q, hq, haq, lease, hl, hlo⟩ := ha
  obtain ⟨r, hr, hbr, lease', hl', hlo'⟩ := hb
  have hqr : q = r := by
    refine h.owned.eq_of_mem (o := o) hq hr ?_ ?_
    · rw [← hlo]
      exact Entry.mem_offsets_of_online hl
    · rw [← hlo']
      exact Entry.mem_offsets_of_online hl'
  subst hqr
  rw [← h.equals]
  exact h.leases.consistent.trans haq (h.leases.consistent.symm hbr)

/-- What an acquisition guarantees: the invariant, the offset online, and no other one offline. -/
structure Granted (idEquals : Id → Id → Bool) (p : MemPool Id) (id : Id) (o : U32)
    (q : MemPool Id) : Prop where
  inv : Inv idEquals q
  online : o ≠ 0 → q.Online id o
  keeps : ∀ a x, p.Online a x → q.Online a x

theorem Granted.none (h : Inv idEquals p) (id : Id) : Granted idEquals p id 0 p :=
  ⟨h, fun h => absurd rfl h, fun _ _ hx => hx⟩

variable {e : Entry Id} {id : Id}

/-- **Changing an entry** within its offsets and fresh ones keeps the invariant. -/
theorem Inv.update (h : Inv idEquals p) (hget : p.leases.get id = some e)
    {f : Entry Id → Entry Id} (hwf : (f e).Wf)
    (hsub : ∀ o ∈ (f e).offsets, o ∈ e.offsets ∨ p.Used o ∧ p.Fresh o) :
    Inv idEquals { p with leases := p.leases.update id f } := by
  obtain ⟨l₁, q, l₂, hl, -, rfl, hu⟩ := Hashtable.entries_update hget f
  have howned := h.owned
  have hused := h.used
  simp only [Fresh] at hsub
  rw [hl] at howned hused hsub
  refine ⟨h.leases.update f, h.equals, ?_, ?_, h.unused, h.size⟩
  · change Owned (p.leases.update id f).entries
    rw [hu]
    exact howned.replace hwf fun o ho => (hsub o ho).imp_right And.right
  · change ∀ q ∈ (p.leases.update id f).entries, _
    rw [hu]
    intro r hr o ho
    rw [List.mem_append, List.mem_cons] at hr
    obtain hr | rfl | hr := hr
    · exact hused r (List.mem_append_left _ hr) o ho
    · obtain ho | ⟨ho, -⟩ := hsub o ho
      · exact hused q (by simp) o ho
      · exact ho
    · exact hused r (List.mem_append_right _ (List.mem_cons_of_mem _ hr)) o ho

theorem online_update
    (hget : p.leases.get id = some e) (f : Entry Id → Entry Id) :
    (∀ lease ∈ (f e).online.elems,
      Online { p with leases := p.leases.update id f } id lease.offset) ∧
    ((∀ lease ∈ e.online.elems, lease ∈ (f e).online.elems) →
      ∀ a x, p.Online a x → Online { p with leases := p.leases.update id f } a x) := by
  obtain ⟨l₁, q, l₂, hl, hkey, rfl, hu⟩ := Hashtable.entries_update hget f
  constructor
  · intro lease hlease
    refine ⟨{ q with value := f q.value }, ?_, hkey, lease, hlease, rfl⟩
    rw [hu]
    simp
  · rintro hmono a x ⟨r, hr, har, lease, hlease, hx⟩
    rw [hl, List.mem_append, List.mem_cons] at hr
    have hin : ∀ {r}, r ∈ l₁ ∨ r = { q with value := f q.value } ∨ r ∈ l₂ →
        r ∈ (p.leases.update id f).entries := by
      intro r hr
      rw [hu, List.mem_append, List.mem_cons]
      exact hr
    obtain hr | rfl | hr := hr
    · exact ⟨r, hin (.inl hr), har, lease, hlease, hx⟩
    · exact ⟨{ r with value := f r.value }, hin (.inr (.inl rfl)), har, lease, hmono _ hlease, hx⟩
    · exact ⟨r, hin (.inr (.inr hr)), har, lease, hlease, hx⟩

theorem Granted.insert (h : Inv idEquals p)
    (hget : p.leases.get id = some e) {lease : UniqueLease} (hused : p.Used lease.offset)
    (hfresh : p.Fresh lease.offset) :
    Granted idEquals p id lease.offset { p with
      leases := p.leases.update id fun e => { e with online := e.online.insert lease } } := by
  obtain ⟨q, hq, -, rfl⟩ := h.leases.get_eq_some_iff.mp hget
  have hwf := h.owned.wf q hq
  obtain ⟨hin, hmono⟩ := online_update hget fun e => { e with online := e.online.insert lease }
  refine ⟨h.update hget ⟨hwf.nodup, ?_⟩ ?_, fun _ => hin lease (by simp), hmono (by simp +contextual)⟩
  · intro l hl
    rw [Arr.elems_insert, List.mem_append, List.mem_singleton] at hl
    obtain hl | rfl := hl
    · exact hwf.disjoint l hl
    · exact fun hoff => hfresh q hq (Entry.mem_offsets_of_offline hoff)
  · intro o ho
    rw [Entry.mem_offsets, Arr.elems_insert] at ho
    simp only [List.mem_append, List.mem_singleton] at ho
    obtain ⟨l, hl | rfl, rfl⟩ | ho := ho
    · exact .inl (Entry.mem_offsets_of_online hl)
    · exact .inr ⟨hused, hfresh⟩
    · exact .inl (Entry.mem_offsets_of_offline ho)

theorem Inv.put (h : Inv idEquals p) (hget : p.leases.get id = none) :
    Inv idEquals { p with leases := (p.leases.put id (entryCreate id)).2 } ∧
      (∀ a x, p.Online a x → Online { p with leases := (p.leases.put id (entryCreate id)).2 } a x) ∧
      ∀ o, p.Fresh o → Fresh { p with leases := (p.leases.put id (entryCreate id)).2 } o := by
  obtain ⟨hwf, hperm, heq⟩ := h.leases.put_new hget (entryCreate id)
  refine ⟨⟨hwf, heq.trans h.equals, ?_, ?_, h.unused, h.size⟩, ?_, ?_⟩
  · refine (Owned.cons_iff.mpr ⟨Entry.wf_create id, fun r _ => ?_, h.owned⟩).perm hperm
    exact List.disjoint_nil_left _
  · intro q hq o ho
    obtain rfl | hq := List.mem_cons.mp (hperm.subset hq)
    · cases ho
    · exact h.used q hq o ho
  · rintro a x ⟨q, hq, haq, hx⟩
    refine ⟨q, hperm.symm.subset (List.mem_cons_of_mem _ hq), ?_, hx⟩
    change (p.leases.put id (entryCreate id)).2.equals a q.key = true
    rw [heq]
    exact haq
  · intro o hfresh q hq
    obtain rfl | hq := List.mem_cons.mp (hperm.subset hq)
    · exact List.not_mem_nil
    · exact hfresh q hq

/-- **`insertOnline`** with a fresh offset. -/
theorem granted_insertOnline (h : Inv idEquals p) (id : Id) (lease : UniqueLease)
    (hused : p.Used lease.offset) (hfresh : p.Fresh lease.offset) :
    Granted idEquals p id lease.offset (p.insertOnline id lease) := by
  unfold insertOnline
  cases hget : p.leases.get id with
  | some e => exact .insert h hget hused hfresh
  | none =>
    obtain ⟨hput, hmono, hfresh'⟩ := h.put hget
    have hget' := h.leases.get_put_self hget (entryCreate id)
    obtain ⟨hinv, hon, hkeeps⟩ := Granted.insert hput hget' hused (hfresh' _ hfresh)
    exact ⟨hinv, hon, fun a x hx => hkeeps a x (hmono a x hx)⟩

/-! ## Calls -/

variable (chunkHashInc : Chunk → U32 → U32)

theorem granted_getNew (h : Inv idEquals p) (id : Id) (peer : Option Host) :
    Granted idEquals p id (p.getNew chunkHashInc id peer).1 (p.getNew chunkHashInc id peer).2 := by
  unfold getNew
  split_ifs with hlt
  · rw [BitVec.lt_def] at hlt
    have hsize := h.size
    have hunused : (p.unused + 1).toNat = p.unused.toNat + 1 := by bv_omega
    have hoffset : (p.unused + 1 + p.shift).toNat = p.unused.toNat + 1 + p.shift.toNat := by
      bv_omega
    -- the next offset is above all used ones
    have hinv : Inv idEquals { p with unused := p.unused + 1 } := by
      refine ⟨h.leases, h.equals, h.owned, fun q hq o ho => ?_, ?_, h.size⟩
      · obtain ⟨h₁, h₂⟩ := h.used q hq o ho
        refine ⟨h₁, ?_⟩
        change o.toNat ≤ (p.unused + 1).toNat + p.shift.toNat
        omega
      · change (p.unused + 1).toNat ≤ p.size.toNat
        omega
    have hused : Used { p with unused := p.unused + 1 } (p.unused + 1 + p.shift) := by
      constructor
      · change p.shift.toNat < _
        omega
      · change _ ≤ (p.unused + 1).toNat + p.shift.toNat
        omega
    have hfresh : Fresh { p with unused := p.unused + 1 } (p.unused + 1 + p.shift) := by
      intro q hq ho
      have := (h.used q hq _ ho).2
      omega
    obtain ⟨hinv', hon, hkeeps⟩ := granted_insertOnline hinv id
      ⟨p.unused + 1 + p.shift, hashAddr chunkHashInc peer⟩ hused hfresh
    exact ⟨hinv', hon, hkeeps⟩
  · exact .none h id

theorem granted_getReassigned (h : Inv idEquals p) (id : Id) (peer : Option Host) :
    Granted idEquals p id (p.getReassigned chunkHashInc id peer).1
      (p.getReassigned chunkHashInc id peer).2 := by
  have hzero : ∀ q ∈ p.leases.entries, (0 : U32) ∉ q.value.offsets :=
    fun q hq h0 => (h.used q hq 0 h0).ne_zero rfl
  have hre := h.owned.reassign hzero p.leases.count
  obtain ⟨hentries, hstate⟩ := entries_enumerate reassignEntry p.leases 0
  rw [← hentries, ← hstate] at hre
  unfold getReassigned
  dsimp only
  set r := p.leases.enumerate reassignEntry 0 with hr
  have hwf : r.2.Wf := h.leases.enumerate reassignEntry 0
  have hinv : Inv idEquals { p with leases := r.2 } := by
    refine ⟨hwf, h.equals, hre.owned, fun q' hq' o ho => ?_, h.unused, h.size⟩
    obtain ⟨q, hq, hsub⟩ := hre.subset q' hq'
    exact h.used q hq o (hsub ho)
  have hkeeps : ∀ a x, p.Online a x → Online { p with leases := r.2 } a x := by
    rintro a x ⟨q, hq, haq, lease, hlease, hx⟩
    obtain ⟨q', hq', hk, hin⟩ := hre.online q hq lease hlease
    exact ⟨q', hq', by rw [hk]; exact haq, lease, hin, hx⟩
  split_ifs with ho
  · obtain ⟨⟨q, hq, hoq⟩, hnot⟩ := hre.taken ho
    obtain ⟨hinv', hon, hkeeps'⟩ := granted_insertOnline hinv id
      ⟨r.1, hashAddr chunkHashInc peer⟩ (h.used q hq _ hoq) hnot
    exact ⟨hinv', hon, fun a x hx => hkeeps' a x (hkeeps a x hx)⟩
  · exact ⟨hinv, fun h => absurd rfl h, hkeeps⟩

theorem Granted.refresh (h : Inv idEquals p)
    (hget : p.leases.get id = some e) {o : U32} (ho : e.offline.elems.head? = some o) (hash : U32) :
    Granted idEquals p id o { p with
      leases := p.leases.update id fun e => { e with
        online := e.online.insert ⟨o, hash⟩
        offline := e.offline.remove 0 } } := by
  obtain ⟨q, hq, -, rfl⟩ := h.leases.get_eq_some_iff.mp hget
  obtain ⟨hwf, hsub, hnot⟩ := (h.owned.wf q hq).remove_head ho
  obtain ⟨hin, hmono⟩ := online_update hget fun e => { e with
    online := e.online.insert ⟨o, hash⟩
    offline := e.offline.remove 0 }
  refine ⟨h.update hget ⟨hwf.nodup, ?_⟩ fun x hx => .inl ?_, fun _ => hin ⟨o, hash⟩ (by simp),
    hmono (by simp +contextual)⟩
  · intro l hl
    rw [Arr.elems_insert, List.mem_append, List.mem_singleton] at hl
    obtain hl | rfl := hl
    · exact hwf.disjoint l hl
    · exact fun hoff => hnot (Entry.mem_offsets_of_offline hoff)
  · rw [Entry.mem_offsets, Arr.elems_insert] at hx
    simp only [List.mem_append, List.mem_singleton] at hx
    obtain ⟨l, hl | rfl, rfl⟩ | hx := hx
    · exact Entry.mem_offsets_of_online hl
    · exact Entry.mem_offsets_of_offline (List.mem_of_head? ho)
    · exact hsub (Entry.mem_offsets_of_offline hx)

theorem Granted.duplicate (h : Inv idEquals p)
    (hget : p.leases.get id = some e) (i : ℕ) {lease : UniqueLease}
    (hlease : lease ∈ e.online.elems) :
    Granted idEquals p id lease.offset { p with
      leases := p.leases.update id fun e => { e with online := e.online.insertOwn i lease } } := by
  obtain ⟨q, hq, -, rfl⟩ := h.leases.get_eq_some_iff.mp hget
  have hwf := h.owned.wf q hq
  obtain ⟨x, hx, helems⟩ := Arr.elems_insertOwn (i := i) hlease
  obtain ⟨hin, hmono⟩ := online_update hget fun e => { e with online := e.online.insertOwn i lease }
  have hmem : ∀ l, l ∈ (q.value.online.insertOwn i lease).elems ↔ l ∈ q.value.online.elems := by
    intro l
    rw [helems, List.mem_append, List.mem_singleton]
    constructor
    · rintro (hl | rfl)
      · exact hl
      · exact hx
    · exact .inl
  refine ⟨h.update hget ⟨hwf.nodup, fun l hl => hwf.disjoint l ((hmem l).mp hl)⟩
    fun o ho => .inl ?_, fun _ => hin lease ((hmem lease).mpr hlease),
    hmono fun l hl => (hmem l).mpr hl⟩
  rw [Entry.mem_offsets] at ho ⊢
  obtain ⟨l, hl, hlo⟩ | ho := ho
  · exact .inl ⟨l, (hmem l).mp hl, hlo⟩
  · exact .inr ho

theorem granted_getExisting (h : Inv idEquals p) (id : Id) (requested : Host)
    (peer : Option Host) :
    Granted idEquals p id (p.getExisting chunkHashInc id requested peer).1
      (p.getExisting chunkHashInc id requested peer).2 := by
  unfold getExisting
  cases hget : p.leases.get id with
  | none => exact .none h id
  | some e =>
    dsimp only
    cases ho : e.offline.elems.head? with
    | some o =>
      obtain ⟨q, hq, -, rfl⟩ := h.leases.get_eq_some_iff.mp hget
      have ho0 : o ≠ 0 :=
        (h.used q hq o (Entry.mem_offsets_of_offline (List.mem_of_head? ho))).ne_zero
      simp only [Option.getD_some, Option.isSome_some, if_true, ne_eq, ho0, not_false_eq_true]
      exact .refresh h hget ho _
    | none =>
      simp only [Option.getD_none, Option.isSome_none, Bool.false_eq_true, if_false, ne_eq,
        not_true_eq_false, hget, Option.getD_some]
      split_ifs
      · exact .none h id
      · split
        · exact .none h id
        · next lease hfind => exact .duplicate h hget _ (List.mem_of_find?_eq_some hfind)

/-- **`acquire_address` gives out an offset that is online for the identity only.** -/
theorem granted_acquireAddress (h : Inv idEquals p) (hsize : p.size ≠ 0) (id : Id)
    (requested : Host) (operation : MemPoolOp) (peer : Option Host) :
    ∃ o, Granted idEquals p id o (p.acquireAddress chunkHashInc id requested operation peer).2 ∧
      ∀ x, (p.acquireAddress chunkHashInc id requested operation peer).1 = some x → o ≠ 0 ∧
        (p.acquireAddress chunkHashInc id requested operation peer).2.offset2host o = some x := by
  unfold acquireAddress
  rw [if_neg hsize]
  split_ifs with hfamily
  · exact ⟨0, .none h id, by simp⟩
  · have hanswer : ∀ r : U32 × MemPool Id, Granted idEquals p id r.1 r.2 →
        ∃ o, Granted idEquals p id o r.2 ∧
          ∀ x, (if r.1 ≠ 0 then r.2.offset2host r.1 else none) = some x →
            o ≠ 0 ∧ r.2.offset2host o = some x := by
      intro r hr
      refine ⟨r.1, hr, fun x hx => ?_⟩
      split_ifs at hx with ho
      exact ⟨ho, hx⟩
    cases operation with
    | existing => exact hanswer _ (granted_getExisting chunkHashInc h id requested peer)
    | new => exact hanswer _ (granted_getNew chunkHashInc h id peer)
    | reassign => exact hanswer _ (granted_getReassigned chunkHashInc h id peer)

/-- **`release_address` keeps the invariant.** -/
theorem inv_releaseAddress (h : Inv idEquals p) (address : Host) (id : Id) :
    Inv idEquals (p.releaseAddress address id).2 := by
  unfold releaseAddress
  split_ifs
  · exact h
  cases hget : p.leases.get id with
  | none => exact h
  | some e =>
    dsimp only
    by_cases hany : e.online.elems.any fun current => decide (current.offset = p.host2offset address)
    · rw [if_pos hany]
      obtain ⟨q, hq, -, rfl⟩ := h.leases.get_eq_some_iff.mp hget
      have hwf := h.owned.wf q hq
      set o := p.host2offset address
      set i := q.value.online.elems.findIdx fun current => decide (current.offset = o)
      obtain ⟨lease, hlease, hlo⟩ := List.any_eq_true.mp hany
      rw [decide_eq_true_eq] at hlo
      have hsub : ∀ l ∈ (q.value.online.remove i).elems, l ∈ q.value.online.elems := by
        intro l hl
        rw [Arr.elems_remove] at hl
        exact List.mem_of_mem_eraseIdx hl
      have hnot : o ∉ q.value.offline.elems := by
        rw [← hlo]
        exact hwf.disjoint lease hlease
      refine h.update hget ⟨?_, fun l hl => ?_⟩ fun x hx => .inl ?_
      · dsimp only
        split_ifs
        · exact hwf.nodup
        · rw [Arr.elems_insert]
          exact List.nodup_append.mpr ⟨hwf.nodup, List.nodup_singleton o, by
            rintro a ha b hb rfl
            rw [List.mem_singleton] at hb
            exact hnot (hb ▸ ha)⟩
      · dsimp only
        split_ifs with hmore
        · exact hwf.disjoint l (hsub l hl)
        · rw [Arr.elems_insert, List.mem_append, List.mem_singleton, not_or]
          refine ⟨hwf.disjoint l (hsub l hl), fun heq => hmore ?_⟩
          exact List.any_eq_true.mpr ⟨l, hl, decide_eq_true heq⟩
      · rw [Entry.mem_offsets] at hx
        obtain ⟨l, hl, rfl⟩ | hx := hx
        · exact Entry.mem_offsets_of_online (hsub l hl)
        · dsimp only at hx
          split_ifs at hx with hmore
          · exact Entry.mem_offsets_of_offline hx
          · rw [Arr.elems_insert, List.mem_append, List.mem_singleton] at hx
            obtain hx | rfl := hx
            · exact Entry.mem_offsets_of_offline hx
            · rw [← hlo]
              exact Entry.mem_offsets_of_online hlease
    · rw [if_neg hany]
      exact h

end

/-! ## Runs -/

section

variable {idHash : Id → U32} {idEquals : Id → Id → Bool} {chunkHashInc : Chunk → U32 → U32}
  {p q : MemPool Id}

theorem created_spec (h : Created idHash idEquals p) :
    p.leases = .create idHash idEquals 16 ∧ p.unused = 0 ∧
      p.size.toNat + p.shift.toNat < 2 ^ 32 := by
  obtain ⟨base, bits, rfl⟩ | ⟨from_, to_, h⟩ := h
  · cases base with
    | none => exact ⟨rfl, rfl, show 0 + 0 < 2 ^ 32 by decide⟩
    | some base =>
      obtain ⟨-, hunused, hshift, hsize⟩ := memPoolCreate_spec idHash idEquals base bits rfl rfl rfl
      refine ⟨?_, hunused, ?_⟩
      · unfold memPoolCreate
        dsimp only
        split_ifs <;> rfl
      · have hle : hostBits base bits ≤ 31 := min_le_left _ _
        have hpow : 2 ^ hostBits base bits ≤ 2 ^ 31 := Nat.pow_le_pow_right (by norm_num) hle
        have hshift' : (memPoolCreate idHash idEquals (some base) bits).shift.toNat ≤ 1 := by
          rw [hshift]
          split_ifs <;> simp
        omega
  · obtain ⟨-, -, -, -, hunused, hshift, hsize⟩ := memPoolCreateRange_spec h
    refine ⟨?_, hunused, ?_⟩
    · unfold memPoolCreateRange at h
      dsimp only at h
      split_ifs at h
      cases h
      rfl
    · rw [hshift]
      exact p.size.isLt

theorem inv_created (hc : Consistent idHash idEquals) (h : Created idHash idEquals p) :
    Inv idEquals p := by
  obtain ⟨hleases, hunused, hsize⟩ := created_spec h
  obtain ⟨hwf, hnil⟩ := wf_create (V := Entry Id) hc 16
  rw [← hleases] at hwf hnil
  refine ⟨hwf, by rw [hleases]; rfl, ?_, ?_, by rw [hunused]; simp, hsize⟩
  · rw [hnil]
    exact ⟨by simp, .nil⟩
  · rw [hnil]
    simp

/-- **One call keeps the invariant.** -/
theorem Inv.step (h : Inv idEquals p) (hsize : p.size ≠ 0) {call : Call Id}
    (hstep : (system idHash idEquals chunkHashInc).step p call q) : Inv idEquals q := by
  cases call with
  | acquire id requested operation peer result =>
    obtain ⟨o, hgranted, -⟩ :=
      granted_acquireAddress chunkHashInc h hsize id requested operation peer
    rw [show p.acquireAddress chunkHashInc id requested operation peer = (result, q) from hstep]
      at hgranted
    exact hgranted.inv
  | release address id result =>
    have := inv_releaseAddress h address id
    rwa [show p.releaseAddress address id = (result, q) from hstep] at this

theorem Inv.steps (h : Inv idEquals p) (hsize : p.size ≠ 0) {calls : List (Call Id)}
    (hsteps : LTS.Steps (system idHash idEquals chunkHashInc) p calls q) :
    Inv idEquals q ∧ q.size ≠ 0 := by
  refine hsteps.preserves (I := fun q => Inv idEquals q ∧ q.size ≠ 0) (C := fun _ => True) ?_
    (fun _ _ => trivial) ⟨h, hsize⟩
  rintro s call t - ⟨hs, hsize⟩ hstep
  exact ⟨hs.step hsize hstep, by rw [(static_step hstep).size]; exact hsize⟩

theorem online_steps (h : Inv idEquals p) (hsize : p.size ≠ 0) {calls : List (Call Id)}
    (hsteps : LTS.Steps (system idHash idEquals chunkHashInc) p calls q)
    (hacq : ∀ call ∈ calls, ∀ address id result, call ≠ .release address id result) {a : Id}
    {x : U32} (hx : p.Online a x) : q.Online a x := by
  have hall := hsteps.preserves (I := fun q => (Inv idEquals q ∧ q.size ≠ 0) ∧ q.Online a x)
    (C := fun call => ∀ address id result, call ≠ .release address id result) ?_ hacq
    ⟨⟨h, hsize⟩, hx⟩
  · exact hall.2
  rintro s call t hcall ⟨⟨hs, hsize⟩, hx⟩ hstep
  refine ⟨⟨hs.step hsize hstep, by rw [(static_step hstep).size]; exact hsize⟩, ?_⟩
  cases call with
  | acquire id requested operation peer result =>
    obtain ⟨o, hgranted, -⟩ :=
      granted_acquireAddress chunkHashInc hs hsize id requested operation peer
    rw [show s.acquireAddress chunkHashInc id requested operation peer = (result, t) from hstep]
      at hgranted
    exact hgranted.keeps a x hx
  | release address id result => exact absurd rfl (hcall address id result)

/-- The address is online for an identity. -/
def OnlineAt (p : MemPool Id) (id : Id) (address : Host) : Prop :=
  ∃ entry, p.leases.get id = some entry ∧
    ∃ lease ∈ entry.online.elems, p.offset2host lease.offset = some address

theorem offset_eq_of_ipEquals {o₁ o₂ : U32} {h₁ h₂ : Host} (ho₁ : p.offset2host o₁ = some h₁)
    (ho₂ : p.offset2host o₂ = some h₂) (heq : h₁.ipEquals h₂ = true) : o₁ = o₂ := by
  cases hbase : p.base with
  | none => simp [offset2host, hbase] at ho₁
  | some base =>
    have hf₁ := (offset2host_family hbase ho₁).1
    have hf₂ := (offset2host_family hbase ho₂).1
    have haddr := (Host.ipEquals_of_family_eq (hf₁.trans hf₂.symm)).mp heq
    exact offset2host_inj ho₁ ho₂ (by rw [Host.value, Host.value, haddr])

theorem Inv.equals_of_onlineAt (h : Inv idEquals p) {a b : Id} {x y : Host} (ha : p.OnlineAt a x)
    (hb : p.OnlineAt b y) (heq : x.ipEquals y = true) : idEquals a b = true := by
  have honline : ∀ {id address}, p.OnlineAt id address →
      ∃ o, p.Online id o ∧ p.offset2host o = some address := by
    rintro id address ⟨entry, hget, lease, hlease, haddr⟩
    obtain ⟨q, hq, hkey, rfl⟩ := h.leases.get_eq_some_iff.mp hget
    exact ⟨lease.offset, ⟨q, hq, hkey, lease, hlease, rfl⟩, haddr⟩
  obtain ⟨o₁, ho₁, hx⟩ := honline ha
  obtain ⟨o₂, ho₂, hy⟩ := honline hb
  obtain rfl := offset_eq_of_ipEquals hx hy heq
  exact h.equals_of_online ho₁ ho₂

/-- **Two acquisitions by different identities** without a release in between. -/
theorem Inv.ipEquals_eq_false (h : Inv idEquals p) (hsize : p.size ≠ 0) {a b : Id} {r₁ r₂ : Host}
    {op₁ op₂ : MemPoolOp} {peer₁ peer₂ : Option Host} {x y : Host} {between : List (Call Id)}
    (hsteps : LTS.Steps (system idHash idEquals chunkHashInc) p
      (.acquire a r₁ op₁ peer₁ (some x) :: between ++ [.acquire b r₂ op₂ peer₂ (some y)]) q)
    (hacq : ∀ call ∈ between, ∀ address id result, call ≠ .release address id result)
    (hne : idEquals a b = false) : x.ipEquals y = false := by
  obtain ⟨t, hsteps, hlast⟩ := LTS.steps_snoc.mp hsteps
  rw [← List.singleton_append] at hsteps
  obtain ⟨s, hfirst, hbetween⟩ := hsteps.of_append
  rw [LTS.steps_singleton] at hfirst
  -- the first identity is online from its acquisition on
  obtain ⟨o₁, hgranted₁, haddr₁⟩ :=
    granted_acquireAddress chunkHashInc h hsize a r₁ op₁ peer₁
  rw [show p.acquireAddress chunkHashInc a r₁ op₁ peer₁ = (some x, s) from hfirst] at hgranted₁ haddr₁
  obtain ⟨ho₁, hx⟩ := haddr₁ x rfl
  have hsize₁ : s.size ≠ 0 := by
    rw [(static_step hfirst).size]
    exact hsize
  obtain ⟨ht, hsize₂⟩ := hgranted₁.inv.steps hsize₁ hbetween
  have honline := online_steps hgranted₁.inv hsize₁ hbetween hacq (hgranted₁.online ho₁)
  obtain ⟨o₂, hgranted₂, haddr₂⟩ :=
    granted_acquireAddress chunkHashInc ht hsize₂ b r₂ op₂ peer₂
  rw [show t.acquireAddress chunkHashInc b r₂ op₂ peer₂ = (some y, q) from hlast] at hgranted₂ haddr₂
  obtain ⟨ho₂, hy⟩ := haddr₂ y rfl
  -- both are online at the end
  have heq : ¬ o₁ = o₂ := by
    rintro rfl
    have := hgranted₂.inv.equals_of_online (hgranted₂.keeps a _ honline) (hgranted₂.online ho₂)
    rw [hne] at this
    cases this
  rw [Bool.eq_false_iff]
  intro hip
  refine heq (offset_eq_of_ipEquals (p := q) ?_ hy hip)
  rw [← hx]
  obtain ⟨hb, -, hs, -⟩ := static_steps hbetween hgranted₁.inv.unused
  have hlast' := static_step hlast
  simp only [offset2host, hlast'.base, hlast'.size, hb, hs]

end

end MemPool

end StrongSwan
