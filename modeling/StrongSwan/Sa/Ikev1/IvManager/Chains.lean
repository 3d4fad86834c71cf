import StrongSwan.Sa.Ikev1.IvManager

/-!
# The chain of IVs of an exchange

What calls make of the data of one exchange depends on the calls for that exchange alone, as long as the
data is kept.

* `Wf`: what any calls keep; `advance`: what a call for an exchange makes of its data.
* `call_own`, `call_other`: one call; `Follows`: the data after calls.
* **`IvManager.chains`**: the IV of an exchange is the block that was confirmed last.
-/

namespace StrongSwan

namespace Ikev1

variable (allocateHash : Chunk → Option Chunk) {mid : U32} {iv : IvData} {calls past : List Call}
  {waiting : Bool} {initial : Chunk}

namespace IvManager

variable {this : IvManager} {c : Call} {others : Finset U32}

/-- Calls keep the message IDs distinct and phase 1 apart. -/
structure Wf (this : IvManager) : Prop where
  distinct : Recent.Distinct IvData.mid this.ivs
  phase1 : this.phase1Iv.mid = 0
  max : 1 ≤ this.maxExchanges

/-- What a call for an exchange makes of its data -/
def advance (allocateHash : Chunk → Option Chunk) (this : IvManager) (iv : IvData) : Call → IvData
  | .getIv _ => iv
  | .updateIv _ lastBlock => { iv with lastBlock := chunkClone lastBlock }
  | .confirmIv _ => (this.generateIv allocateHash iv).2

theorem generateIv_mid (this : IvManager) (iv : IvData) :
    (this.generateIv allocateHash iv).2.mid = iv.mid := by
  unfold generateIv
  split
  · rfl
  · split <;> rfl

theorem advance_mid (this : IvManager) (iv : IvData) (c : Call) :
    (this.advance allocateHash iv c).mid = iv.mid := by
  cases c with
  | getIv | updateIv => rfl
  | confirmIv => exact generateIv_mid allocateHash this iv

/-- A new IV does not depend on the data that is kept. -/
theorem generateIv_ivs (this : IvManager) (ivs : List IvData) (iv : IvData) :
    { this with ivs := ivs }.generateIv allocateHash iv = this.generateIv allocateHash iv := rfl

/-! ## The data that is found -/

theorem lookupIv_zero (this : IvManager) :
    this.lookupIv allocateHash 0 = (this, some this.phase1Iv) := if_pos rfl

theorem lookupIv_fst (hmid : mid ≠ 0) (this : IvManager) :
    (this.lookupIv allocateHash mid).1 =
      match (this.lookupIv allocateHash mid).2 with
      | some iv => { this with ivs := Recent.touch IvData.mid this.maxExchanges iv this.ivs }
      | none => this := by
  unfold lookupIv
  rw [if_neg hmid]
  dsimp only
  split <;> rfl

theorem lookupIv_mid (hwf : this.Wf) (hlookup : (this.lookupIv allocateHash mid).2 = some iv) :
    iv.mid = mid := by
  by_cases hmid : mid = 0
  · subst hmid
    rw [lookupIv_zero, Option.some.injEq] at hlookup
    rw [← hlookup, hwf.phase1]
  · unfold lookupIv at hlookup
    rw [if_neg hmid] at hlookup
    cases hfind : Recent.find IvData.mid mid this.ivs with
    | some found =>
      simp only [hfind, Option.some.injEq] at hlookup
      rw [← hlookup]
      simpa using List.find?_some hfind
    | none =>
      rw [hfind] at hlookup
      cases hgenerate : this.generateIv allocateHash { mid := mid } with
      | mk success generated =>
        cases success with
        | false => simp [hgenerate] at hlookup
        | true =>
          simp only [hgenerate, Option.some.injEq] at hlookup
          have hgenerated := generateIv_mid allocateHash this { mid := mid }
          rw [hgenerate] at hgenerated
          rw [← hlookup]
          exact hgenerated

theorem lookupIv_behind (hwf : this.Wf) (hmid : iv.mid ≠ 0)
    (hbehind : Recent.Behind IvData.mid iv others this.ivs) :
    (this.lookupIv allocateHash iv.mid).2 = some iv := by
  have hfind := (Recent.find_eq_some_iff hwf.distinct).2 hbehind.mem
  unfold lookupIv
  rw [if_neg hmid, hfind]

theorem lookupIv_new {hash : Chunk} (hmid : mid ≠ 0)
    (hfind : Recent.find IvData.mid mid this.ivs = none)
    (hhash : allocateHash (this.phase1Iv.iv.getD [] ++ htoun32 mid) = some hash) :
    (this.lookupIv allocateHash mid).2 =
      some { mid := mid, iv := some (hash.take this.blockSize) } := by
  have hgenerate : this.generateIv allocateHash { mid := mid } =
      (true, { mid := mid, iv := some (hash.take this.blockSize) }) := by
    unfold generateIv
    rw [if_neg (by simpa using hmid), hhash]
  unfold lookupIv
  rw [if_neg hmid, hfind, hgenerate]

/-! ## One call -/

theorem call_phase1 (hwf : this.Wf) (hmid : c.mid = 0) :
    this.call allocateHash c =
      { this with phase1Iv := this.advance allocateHash this.phase1Iv c } := by
  cases c with
  | getIv mid =>
    simp only [Call.mid] at hmid
    subst hmid
    rfl
  | updateIv mid lastBlock =>
    simp only [Call.mid] at hmid
    subst hmid
    simp only [call, updateIv, lookupIv_zero, store, hwf.phase1, if_true, advance]
  | confirmIv mid =>
    simp only [Call.mid] at hmid
    subst hmid
    have hgenerated := generateIv_mid allocateHash this this.phase1Iv
    rw [hwf.phase1] at hgenerated
    simp only [call, confirmIv, lookupIv_zero, store, hgenerated, if_true, advance]

/-- **A call for another exchange**: the data that is found goes to the front, and is changed. -/
theorem call_exchange (hwf : this.Wf) (hmid : c.mid ≠ 0) :
    ((this.lookupIv allocateHash c.mid).2 = none ∧ this.call allocateHash c = this) ∨
      ∃ iv ivs, (this.lookupIv allocateHash c.mid).2 = some iv ∧
        this.call allocateHash c = { this with ivs := ivs } ∧
        ((this.advance allocateHash iv c = iv ∧
            ivs = Recent.touch IvData.mid this.maxExchanges iv this.ivs) ∨
          ivs = Recent.store IvData.mid (this.advance allocateHash iv c)
            (Recent.touch IvData.mid this.maxExchanges iv this.ivs)) := by
  have hfst := lookupIv_fst allocateHash hmid this
  cases hlookup : (this.lookupIv allocateHash c.mid).2 with
  | none =>
    rw [hlookup] at hfst
    have heq : this.lookupIv allocateHash c.mid = (this, none) := Prod.ext hfst hlookup
    refine Or.inl ⟨rfl, ?_⟩
    cases c with
    | getIv | updateIv | confirmIv =>
      simp only [Call.mid] at heq
      simp only [call, getIv, updateIv, confirmIv, heq]
  | some iv =>
    rw [hlookup] at hfst
    have heq : this.lookupIv allocateHash c.mid =
        ({ this with ivs := Recent.touch IvData.mid this.maxExchanges iv this.ivs }, some iv) :=
      Prod.ext hfst hlookup
    have hivmid : iv.mid ≠ 0 := by
      rw [lookupIv_mid allocateHash hwf hlookup]
      exact hmid
    refine Or.inr ?_
    cases c with
    | getIv mid =>
      simp only [Call.mid] at heq
      refine ⟨iv, _, rfl, ?_, Or.inl ⟨rfl, rfl⟩⟩
      simp only [call, getIv, heq]
    | updateIv mid lastBlock =>
      simp only [Call.mid] at heq
      refine ⟨iv, _, rfl, ?_, Or.inr rfl⟩
      simp only [call, updateIv, heq, store, if_neg hivmid, advance]
    | confirmIv mid =>
      simp only [Call.mid] at heq
      refine ⟨iv, _, rfl, ?_, Or.inr rfl⟩
      have hgenerated : (this.generateIv allocateHash iv).2.mid ≠ 0 := by
        rw [generateIv_mid]
        exact hivmid
      simp only [call, confirmIv, heq, generateIv_ivs, store, hgenerated, if_false, advance]

theorem Wf.call (hwf : this.Wf) (c : Call) :
    (this.call allocateHash c).Wf := by
  by_cases hmid : c.mid = 0
  · rw [call_phase1 allocateHash hwf hmid]
    refine ⟨hwf.distinct, ?_, hwf.max⟩
    rw [advance_mid]
    exact hwf.phase1
  · obtain ⟨-, heq⟩ | ⟨iv, ivs, -, heq, ⟨-, rfl⟩ | rfl⟩ :=
      call_exchange allocateHash hwf hmid
    · rw [heq]
      exact hwf
    · rw [heq]
      exact ⟨hwf.distinct.touch iv, hwf.phase1, hwf.max⟩
    · rw [heq]
      exact ⟨(hwf.distinct.touch iv).store _, hwf.phase1, hwf.max⟩

theorem maxExchanges_call (hwf : this.Wf) (c : Call) :
    (this.call allocateHash c).maxExchanges = this.maxExchanges := by
  by_cases hmid : c.mid = 0
  · rw [call_phase1 allocateHash hwf hmid]
  · obtain ⟨-, heq⟩ | ⟨iv, ivs, -, heq, -⟩ :=
      call_exchange allocateHash hwf hmid
    · rw [heq]
    · rw [heq]

theorem phase1Iv_call (hwf : this.Wf) (hmid : c.mid ≠ 0) :
    (this.call allocateHash c).phase1Iv = this.phase1Iv := by
  obtain ⟨-, heq⟩ | ⟨iv, ivs, -, heq, -⟩ := call_exchange allocateHash hwf hmid
  · rw [heq]
  · rw [heq]

/-- **A call for the exchange** changes its data, which is the first then. -/
theorem call_own (hwf : this.Wf) (hmid : c.mid ≠ 0)
    (hlookup : (this.lookupIv allocateHash c.mid).2 = some iv) :
    Recent.Behind IvData.mid (this.advance allocateHash iv c) ∅
      (this.call allocateHash c).ivs := by
  have htouch : Recent.Behind IvData.mid iv ∅
      (Recent.touch IvData.mid this.maxExchanges iv this.ivs) :=
    Recent.behind_touch hwf.max iv this.ivs
  obtain ⟨hnone, -⟩ | ⟨iv', ivs, hfound, heq, hivs⟩ :=
    call_exchange allocateHash hwf hmid
  · rw [hlookup] at hnone
    exact absurd hnone (Option.some_ne_none iv)
  · rw [hlookup, Option.some.injEq] at hfound
    subst hfound
    rw [heq]
    rcases hivs with ⟨hadvance, rfl⟩ | rfl
    · rw [hadvance]
      exact htouch
    · exact htouch.store (hwf.distinct.touch iv) (advance_mid allocateHash this iv c)

/-- **A call for another exchange** keeps the data, if there are not too many. -/
theorem call_other (hwf : this.Wf) (hmid : c.mid ≠ 0) (hne : c.mid ≠ iv.mid)
    (hbehind : Recent.Behind IvData.mid iv others this.ivs)
    (hcard : (insert c.mid others).card < this.maxExchanges) :
    Recent.Behind IvData.mid iv (insert c.mid others) (this.call allocateHash c).ivs := by
  obtain ⟨-, heq⟩ | ⟨iv', ivs, hfound, heq, hivs⟩ :=
    call_exchange allocateHash hwf hmid
  · rw [heq]
    exact hbehind.mono (Finset.subset_insert _ _)
  · have hivmid : iv'.mid = c.mid := lookupIv_mid allocateHash hwf hfound
    rw [← hivmid] at hne hcard ⊢
    have htouch := hbehind.touch hwf.distinct hne hcard
    rw [heq]
    rcases hivs with ⟨-, rfl⟩ | rfl
    · exact htouch
    · refine htouch.store_other ?_
      rw [advance_mid]
      exact hne

end IvManager

/-! ## Many calls -/

theorem lastUpdate_updateIv (mid : U32) (past : List Call) (lastBlock : Chunk) :
    lastUpdate mid (past ++ [.updateIv mid lastBlock]) = some lastBlock := by
  simp [lastUpdate]

variable {c : Call}

theorem lastUpdate_other (hc : ∀ lastBlock, c ≠ .updateIv mid lastBlock)
    (past : List Call) : lastUpdate mid (past ++ [c]) = lastUpdate mid past := by
  cases c with
  | getIv | confirmIv => simp [lastUpdate]
  | updateIv mid' lastBlock =>
    have hne : mid' ≠ mid := by
      rintro rfl
      exact hc lastBlock rfl
    simp [lastUpdate, hne]

theorem confirmedIv_confirmIv (mid : U32) (past : List Call) :
    confirmedIv mid (past ++ [.confirmIv mid]) = lastUpdate mid past := by
  rw [confirmedIv, List.rdropWhile_concat_neg _ _ _ (by simp)]
  exact lastUpdate_other (by simp) past

theorem confirmedIv_other (hc : c ≠ .confirmIv mid) (past : List Call) :
    confirmedIv mid (past ++ [c]) = confirmedIv mid past := by
  rw [confirmedIv, List.rdropWhile_concat_pos _ _ _ (by simpa using hc), confirmedIv]

/-- The data of an exchange after calls, of which an update may wait for its confirmation -/
structure Follows (mid : U32) (initial : Chunk) (past : List Call) (waiting : Bool) (iv : IvData) :
    Prop where
  current : iv.iv = some ((confirmedIv mid past).getD initial)
  pending : waiting = true → iv.lastBlock ≠ none ∧ lastUpdate mid past = iv.lastBlock

theorem Follows.getIv (h : Follows mid initial past waiting iv) (mid' : U32) :
    Follows mid initial (past ++ [.getIv mid']) waiting iv := by
  constructor
  · rw [confirmedIv_other (by simp), h.current]
  · rw [lastUpdate_other (by simp)]
    exact h.pending

theorem Follows.other (h : Follows mid initial past waiting iv) (hc : c.mid ≠ mid) :
    Follows mid initial (past ++ [c]) waiting iv := by
  constructor
  · rw [confirmedIv_other (by rintro rfl; exact hc rfl), h.current]
  · rw [lastUpdate_other (by rintro lastBlock rfl; exact hc rfl)]
    exact h.pending

theorem Follows.updateIv (h : Follows mid initial past waiting iv) (lastBlock : Chunk) :
    Follows mid initial (past ++ [.updateIv mid lastBlock]) (lastBlock ≠ [])
      { iv with lastBlock := chunkClone lastBlock } := by
  constructor
  · rw [confirmedIv_other (by simp), ← h.current]
  · intro hne
    have hclone : chunkClone lastBlock = some lastBlock := if_neg (of_decide_eq_true hne)
    rw [lastUpdate_updateIv]
    exact ⟨hclone ▸ Option.some_ne_none lastBlock, hclone.symm⟩

/-- **A confirmation** takes the block of the update that waits for it. -/
theorem Follows.confirmIv (h : Follows mid initial past true iv) (this : IvManager) :
    Follows mid initial (past ++ [.confirmIv mid]) false (this.generateIv allocateHash iv).2 := by
  obtain ⟨hnone, hlast⟩ := h.pending rfl
  have hgenerate : this.generateIv allocateHash iv =
      (true, { iv with iv := iv.lastBlock, lastBlock := none }) := by
    refine if_pos (Or.inr ?_)
    rw [h.current]
    exact Option.some_ne_none _
  obtain ⟨lastBlock, hblock⟩ := Option.ne_none_iff_exists'.1 hnone
  rw [hgenerate]
  constructor
  · rw [confirmedIv_confirmIv, hlast, hblock]
    rfl
  · simp

theorem Follows.own (h : Follows mid initial past waiting iv) (this : IvManager)
    (hmid : c.mid = mid) (hconfirmable : Confirmable mid waiting (c :: calls)) :
    ∃ waiting', Follows mid initial (past ++ [c]) waiting' (this.advance allocateHash iv c) ∧
      Confirmable mid waiting' calls := by
  cases c with
  | getIv mid' => exact ⟨waiting, h.getIv mid', hconfirmable⟩
  | updateIv mid' lastBlock =>
    obtain rfl : mid' = mid := hmid
    rw [Confirmable, if_pos rfl] at hconfirmable
    exact ⟨lastBlock ≠ [], h.updateIv lastBlock, hconfirmable⟩
  | confirmIv mid' =>
    obtain rfl : mid' = mid := hmid
    rw [Confirmable, if_pos rfl] at hconfirmable
    obtain ⟨rfl, hconfirmable⟩ := hconfirmable
    exact ⟨false, h.confirmIv allocateHash this, hconfirmable⟩

theorem Confirmable.other (h : Confirmable mid waiting (c :: calls)) (hc : c.mid ≠ mid) :
    Confirmable mid waiting calls := by
  cases c with
  | getIv => exact h
  | updateIv mid' lastBlock => exact (if_neg hc).mp h
  | confirmIv mid' => exact (if_neg hc).mp h

theorem Kept.card_lt {max : ℕ} {others : Finset U32} (h : Kept max mid others calls) :
    others.card < max := by
  cases calls with
  | nil => exact h
  | cons => exact h.1

namespace IvManager

variable {this : IvManager} {others : Finset U32}

theorem run_cons (this : IvManager) (c : Call) (calls : List Call) :
    this.run allocateHash (c :: calls) = (this.call allocateHash c).run allocateHash calls := rfl

theorem Wf.run (hwf : this.Wf) (calls : List Call) : (this.run allocateHash calls).Wf := by
  induction calls generalizing this with
  | nil => exact hwf
  | cons c calls ih => exact ih (hwf.call allocateHash c)

theorem maxExchanges_run (hwf : this.Wf) (calls : List Call) :
    (this.run allocateHash calls).maxExchanges = this.maxExchanges := by
  induction calls generalizing this with
  | nil => rfl
  | cons c calls ih =>
    rw [run_cons, ih (hwf.call allocateHash c), maxExchanges_call allocateHash hwf]

theorem follows_phase1 (hwf : this.Wf)
    (hfollows : Follows 0 initial past waiting this.phase1Iv)
    (hconfirmable : Confirmable 0 waiting calls) :
    ∃ waiting', Follows 0 initial (past ++ calls) waiting'
      (this.run allocateHash calls).phase1Iv := by
  induction calls generalizing this past waiting with
  | nil =>
    rw [List.append_nil]
    exact ⟨waiting, hfollows⟩
  | cons c calls ih =>
    have hwf' := hwf.call allocateHash c
    have happend : past ++ c :: calls = past ++ [c] ++ calls := by simp
    rw [happend, run_cons]
    by_cases hmid : c.mid = 0
    · obtain ⟨waiting', hown, hrest⟩ := hfollows.own allocateHash this hmid hconfirmable
      refine ih hwf' ?_ hrest
      rw [call_phase1 allocateHash hwf hmid]
      exact hown
    · refine ih hwf' ?_ (hconfirmable.other hmid)
      rw [phase1Iv_call allocateHash hwf hmid]
      exact hfollows.other hmid

/-- **Calls keep the data of an exchange** what it is after them. -/
theorem follows_exchange (hwf : this.Wf) (hzero : mid ≠ 0) (hmid : iv.mid = mid)
    (hbehind : Recent.Behind IvData.mid iv others this.ivs)
    (hfollows : Follows mid initial past waiting iv) (hconfirmable : Confirmable mid waiting calls)
    (hkept : Kept this.maxExchanges mid others calls) :
    ∃ waiting' iv' others', iv'.mid = mid ∧ Follows mid initial (past ++ calls) waiting' iv' ∧
      Recent.Behind IvData.mid iv' others' (this.run allocateHash calls).ivs := by
  induction calls generalizing this past waiting iv others with
  | nil =>
    rw [List.append_nil]
    exact ⟨waiting, iv, others, hmid, hfollows, hbehind⟩
  | cons c calls ih =>
    have hwf' := hwf.call allocateHash c
    have hmax := maxExchanges_call allocateHash hwf c
    have happend : past ++ c :: calls = past ++ [c] ++ calls := by simp
    rw [happend, run_cons]
    rw [Kept] at hkept
    by_cases hown : c.mid = mid
    · -- the exchange itself
      rw [if_pos hown] at hkept
      obtain ⟨waiting', hadvance, hrest⟩ := hfollows.own allocateHash this hown hconfirmable
      have hlookup : (this.lookupIv allocateHash c.mid).2 = some iv := by
        rw [hown, ← hmid]
        exact lookupIv_behind allocateHash hwf (hmid ▸ hzero) hbehind
      refine ih hwf' ?_ (call_own allocateHash hwf (hown ▸ hzero) hlookup) hadvance hrest ?_
      · rw [advance_mid, hmid]
      · rw [hmax]
        exact hkept.2
    · have hother := hfollows.other hown
      have hrest := hconfirmable.other hown
      rw [if_neg hown] at hkept
      by_cases hphase1 : c.mid = 0
      · rw [if_pos hphase1] at hkept
        have hbehind' : Recent.Behind IvData.mid iv others (this.call allocateHash c).ivs := by
          rw [call_phase1 allocateHash hwf hphase1]
          exact hbehind
        exact ih hwf' hmid hbehind' hother hrest (hmax ▸ hkept.2)
      · rw [if_neg hphase1] at hkept
        refine ih hwf' hmid ?_ hother hrest (hmax ▸ hkept.2)
        exact call_other allocateHash hwf hphase1 (hmid ▸ hown) hbehind hkept.2.card_lt

theorem behind_run (hwf : this.Wf)
    (hbehind : Recent.Behind IvData.mid iv others this.ivs)
    (hother : ∀ c ∈ calls, c.mid ≠ iv.mid) (hkept : Kept this.maxExchanges iv.mid others calls) :
    ∃ others', Recent.Behind IvData.mid iv others' (this.run allocateHash calls).ivs := by
  induction calls generalizing this others with
  | nil => exact ⟨others, hbehind⟩
  | cons c calls ih =>
    obtain ⟨hne, hrest⟩ := List.forall_mem_cons.1 hother
    have hwf' := hwf.call allocateHash c
    have hmax := maxExchanges_call allocateHash hwf c
    rw [run_cons]
    rw [Kept, if_neg hne] at hkept
    by_cases hphase1 : c.mid = 0
    · rw [if_pos hphase1] at hkept
      have hbehind' : Recent.Behind IvData.mid iv others (this.call allocateHash c).ivs := by
        rw [call_phase1 allocateHash hwf hphase1]
        exact hbehind
      exact ih hwf' hbehind' hrest (hmax ▸ hkept.2)
    · rw [if_neg hphase1] at hkept
      have hbehind' := call_other allocateHash hwf hphase1 hne hbehind hkept.2.card_lt
      exact ih hwf' hbehind' hrest (hmax ▸ hkept.2)

theorem phase1Iv_run (hwf : this.Wf) (hother : ∀ c ∈ calls, c.mid ≠ 0) :
    (this.run allocateHash calls).phase1Iv = this.phase1Iv := by
  induction calls generalizing this with
  | nil => rfl
  | cons c calls ih =>
    obtain ⟨hne, hrest⟩ := List.forall_mem_cons.1 hother
    rw [run_cons, ih (hwf.call allocateHash c) hrest, phase1Iv_call allocateHash hwf hne]

theorem run_append (this : IvManager) (earlier calls : List Call) :
    this.run allocateHash (earlier ++ calls) =
      (this.run allocateHash earlier).run allocateHash calls := List.foldl_append

/-! ## The IV that is returned -/

theorem getIv_snd (this : IvManager) (mid : U32) :
    (this.getIv allocateHash mid).2 =
      (this.lookupIv allocateHash mid).2.map fun iv => iv.iv.getD [] := by
  unfold getIv
  rcases this.lookupIv allocateHash mid with ⟨that, _ | iv⟩ <;> rfl

theorem getIv_behind (hwf : this.Wf) (hzero : iv.mid ≠ 0)
    (hbehind : Recent.Behind IvData.mid iv others this.ivs) :
    (this.getIv allocateHash iv.mid).2 = some (iv.iv.getD []) := by
  rw [getIv_snd, lookupIv_behind allocateHash hwf hzero hbehind, Option.map_some]

theorem getIv_phase1 (hwf : this.Wf) (hinitial : this.phase1Iv.iv = some initial)
    (hconfirmable : Confirmable 0 false calls) :
    ((this.run allocateHash calls).getIv allocateHash 0).2 =
      some ((confirmedIv 0 calls).getD initial) := by
  have hfollows : Follows 0 initial [] false this.phase1Iv := ⟨hinitial, by simp⟩
  obtain ⟨waiting, hafter⟩ := follows_phase1 allocateHash hwf hfollows hconfirmable
  rw [getIv_snd, lookupIv_zero, Option.map_some, hafter.current]
  rfl

/-- **The IV of an exchange** after calls since it is tracked -/
theorem getIv_exchange (hwf : this.Wf) (hzero : mid ≠ 0)
    (hlookup : (this.lookupIv allocateHash mid).2 = some { mid := mid, iv := some initial })
    (hfirst : ∀ c ∈ calls.head?, c.mid = mid) (hconfirmable : Confirmable mid false calls)
    (hkept : Kept this.maxExchanges mid ∅ calls) :
    ((this.run allocateHash calls).getIv allocateHash mid).2 =
      some ((confirmedIv mid calls).getD initial) := by
  have hfollows : Follows mid initial [] false { mid := mid, iv := some initial } :=
    ⟨rfl, by simp⟩
  cases calls with
  | nil =>
    rw [getIv_snd]
    exact congrArg (Option.map _) hlookup
  | cons c calls =>
    obtain rfl : c.mid = mid := hfirst c rfl
    obtain ⟨waiting, hadvance, hrest⟩ := hfollows.own allocateHash this rfl hconfirmable
    rw [Kept, if_pos rfl, ← maxExchanges_call allocateHash hwf c] at hkept
    obtain ⟨waiting', iv, others, hmid, hafter, hbehind⟩ :=
      follows_exchange allocateHash (hwf.call allocateHash c) hzero
        (advance_mid allocateHash this _ c) (call_own allocateHash hwf hzero hlookup) hadvance hrest
        hkept.2
    have hwf' := (hwf.call allocateHash c).run allocateHash calls
    rw [run_cons, ← hmid, getIv_behind allocateHash hwf' (hmid ▸ hzero) hbehind, hafter.current,
      hmid]
    rfl

/-- **Calls for other exchanges** do not change the IV. -/
theorem getIv_other {c : Call} {current : Chunk} (hwf : this.Wf)
    (hcurrent : ((this.call allocateHash c).getIv allocateHash c.mid).2 = some current)
    (hother : ∀ c' ∈ calls, c'.mid ≠ c.mid)
    (hkept : c.mid ≠ 0 → Kept this.maxExchanges c.mid ∅ calls) :
    (((this.call allocateHash c).run allocateHash calls).getIv allocateHash c.mid).2 =
      some current := by
  have hwf' := hwf.call allocateHash c
  by_cases hzero : c.mid = 0
  · rw [hzero] at hother hcurrent ⊢
    rw [getIv_snd, lookupIv_zero, phase1Iv_run allocateHash hwf' hother, ← hcurrent, getIv_snd,
      lookupIv_zero]
  · cases hlookup : (this.lookupIv allocateHash c.mid).2 with
    | none =>
      obtain ⟨-, heq⟩ | ⟨iv, ivs, hsome, -⟩ := call_exchange allocateHash hwf hzero
      · rw [heq, getIv_snd, hlookup] at hcurrent
        exact absurd hcurrent.symm (Option.some_ne_none current)
      · rw [hlookup] at hsome
        exact absurd hsome.symm (Option.some_ne_none iv)
    | some iv =>
      have hown := call_own allocateHash hwf hzero hlookup
      have hmid : (this.advance allocateHash iv c).mid = c.mid := by
        rw [advance_mid]
        exact lookupIv_mid allocateHash hwf hlookup
      have hkept' := hkept hzero
      rw [← hmid] at hzero hother hcurrent hkept' ⊢
      rw [← maxExchanges_call allocateHash hwf c] at hkept'
      obtain ⟨others, hbehind⟩ := behind_run allocateHash hwf' hown hother hkept'
      rw [getIv_behind allocateHash (hwf'.run allocateHash calls) hzero hbehind, ← hcurrent,
        getIv_behind allocateHash hwf' hzero hown]

theorem getIv_mem (hwf : this.Wf) {current : Chunk}
    (hcurrent : (this.getIv allocateHash mid).2 = some current) :
    ∃ iv ∈ (this.getIv allocateHash mid).1.phase1Iv :: (this.getIv allocateHash mid).1.ivs,
      iv.mid = mid ∧ iv.iv.getD [] = current := by
  rw [getIv_snd, Option.map_eq_some_iff] at hcurrent
  obtain ⟨iv, hlookup, rfl⟩ := hcurrent
  have hmid := lookupIv_mid allocateHash hwf hlookup
  refine ⟨iv, ?_, hmid, rfl⟩
  by_cases hzero : mid = 0
  · subst hzero
    rw [lookupIv_zero, Option.some.injEq] at hlookup
    exact hlookup ▸ List.mem_cons_self
  · subst hmid
    have hown := call_own allocateHash hwf (c := .getIv iv.mid) hzero hlookup
    exact List.mem_cons_of_mem _ hown.mem

theorem lookupQuickMode_mem (hmax : 1 ≤ this.maxExchanges) (mid : U32) :
    (this.lookupQuickMode mid).2 ∈ (this.lookupQuickMode mid).1.qms :=
  (Recent.behind_touch hmax _ _).mem

theorem lookupQuickMode_mid (this : IvManager) (mid : U32) :
    (this.lookupQuickMode mid).2.mid = mid := by
  unfold lookupQuickMode
  cases hfind : Recent.find QmData.mid mid this.qms with
  | none => simp
  | some qm =>
    rw [Option.getD_some]
    simpa using List.find?_some hfind

theorem wf_create {max : ℕ} (hmax : 1 ≤ max) : (create max).Wf :=
  ⟨List.nodup_nil, rfl, hmax⟩

theorem initIvChain_eq {max blockSize : ℕ} {data : Chunk} {this : IvManager}
    (hinit : (create max).initIvChain allocateHash data blockSize = (this, true)) :
    ∃ hash, allocateHash data = some hash ∧ this =
      { create max with
        blockSize := blockSize
        phase1Iv := { mid := 0, iv := some (hash.take blockSize) } } := by
  unfold initIvChain at hinit
  cases hhash : allocateHash data with
  | none => simp [hhash] at hinit
  | some hash =>
    simp only [hhash, Prod.mk.injEq, and_true] at hinit
    exact ⟨hash, rfl, hinit.symm⟩

theorem blockSize_call (hwf : this.Wf) (c : Call) :
    (this.call allocateHash c).blockSize = this.blockSize := by
  by_cases hmid : c.mid = 0
  · rw [call_phase1 allocateHash hwf hmid]
  · obtain ⟨-, heq⟩ | ⟨iv, ivs, -, heq, -⟩ := call_exchange allocateHash hwf hmid
    · rw [heq]
    · rw [heq]

theorem blockSize_run (hwf : this.Wf) (calls : List Call) :
    (this.run allocateHash calls).blockSize = this.blockSize := by
  induction calls generalizing this with
  | nil => rfl
  | cons c calls ih =>
    rw [run_cons, ih (hwf.call allocateHash c), blockSize_call allocateHash hwf]

end IvManager

end Ikev1

end StrongSwan
