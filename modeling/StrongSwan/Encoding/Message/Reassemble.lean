import StrongSwan.Encoding.Message.Defrag
import StrongSwan.Lib.Pieces

/-!
# Fragmentation and reassembly

The fragments of a message are fed to one that is put together, in any order and any number of times.

* `CarriesPiece`: a received message with a fragment.
* `Seen`: what is stored when some of the fragments were fed; **`Seen.addFragmentV2`**.
* **`reassembled_contents`**: when all were fed, their contents are put together.
-/

namespace StrongSwan

namespace Message

/-- The codes that feeding messages returns. -/
def statuses : Message → List Message → List Status
  | _, [] => []
  | this, message :: messages =>
    (this.addFragmentV2 message).1 :: (this.addFragmentV2 message).2.statuses messages

theorem statuses_append (this : Message) (messages messages' : List Message) :
    this.statuses (messages ++ messages') =
      this.statuses messages ++ (this.feed messages).statuses messages' := by
  induction messages generalizing this with
  | nil => rfl
  | cons message messages ih => exact congrArg _ (ih _)

theorem feed_append (this : Message) (messages messages' : List Message) :
    this.feed (messages ++ messages') = (this.feed messages).feed messages' :=
  List.foldl_append

theorem statuses_of_frag_none (this : Message) (h : this.frag = none) (messages : List Message) :
    this.statuses messages = List.replicate messages.length .invalidState := by
  induction messages with
  | nil => rfl
  | cons message messages ih =>
    have hadd : this.addFragmentV2 message = (.invalidState, this) := by
      simp only [addFragmentV2, h]
    rw [statuses, hadd, ih, List.length_cons, List.replicate_succ]

theorem feed_of_frag_none (this : Message) (h : this.frag = none) (messages : List Message) :
    this.feed messages = this := by
  induction messages with
  | nil => rfl
  | cons message messages ih =>
    have hadd : this.addFragmentV2 message = (.invalidState, this) := by
      simp only [addFragmentV2, h]
    change feed (this.addFragmentV2 message).2 messages = this
    rw [hadd, ih]

/-! ## What is stored -/

/-- A fragment with its contents. -/
def piece (contents : List Chunk) (k : ℕ) : Fragment :=
  ⟨BitVec.ofNat 8 (k + 1), contents.getD k []⟩

/-- A received message with the `k`-th fragment of a message with an ID. -/
def CarriesPiece (mid : U32) (contents : List Chunk) (next : PayloadType) (k : ℕ)
    (message : Message) : Prop :=
  message.messageId = mid ∧ ∃ payload, message.fragmentV2 = some payload ∧
    payload.fragmentNumber.toNat = k + 1 ∧ payload.totalFragments.toNat = contents.length ∧
    payload.plain = contents.getD k [] ∧ (k = 0 → payload.nextPayload = next)

/-- The fragments `ks` were fed, not all of them. -/
structure Seen (mid : U32) (contents : List Chunk) (next : PayloadType) (maxPacket : ℕ) (ks : List ℕ)
    (frag : FragmentData) (fragments : List Fragment) (this : Message) : Prop where
  messageId : this.messageId = mid
  frag_eq : this.frag = some frag
  maxPacket : frag.maxPacket = maxPacket
  last : ks ≠ [] → frag.last.toNat = contents.length
  isNone : this.fragments = none ↔ ks = []
  fragments_eq : this.fragments.getD [] = fragments
  collected : Collected frag fragments
  mem : ∀ f, f ∈ fragments ↔ ∃ k ∈ ks, f = piece contents k
  first : 0 ∈ ks → this.firstPayload = next

section Pieces

variable {contents : List Chunk} (hlength : contents.length ≤ maxFragments)
include hlength

theorem number_piece {k : ℕ} (hk : k < contents.length) : (piece contents k).number = k + 1 := by
  unfold maxFragments at hlength
  rw [piece, Fragment.number, BitVec.toNat_ofNat, Nat.mod_eq_of_lt (by omega)]

theorem numbered_pieces :
    Pieces.Numbered Fragment.number ((List.range contents.length).map (piece contents)) := by
  refine List.pairwise_map.mpr (List.pairwise_lt_range.imp_of_mem fun hi hj hlt => ?_)
  rw [number_piece hlength (List.mem_range.mp hi), number_piece hlength (List.mem_range.mp hj)]
  omega

omit hlength in
theorem contents_pieces :
    Message.contents ((List.range contents.length).map (piece contents)) = contents.flatten := by
  have hmap : (List.range contents.length).map (fun k => contents.getD k []) = contents := by
    refine List.ext_getElem (by simp) fun k h₁ h₂ => ?_
    simp [List.getElem?_eq_getElem h₂]
  rw [Message.contents, List.flatMap_map]
  change (List.range contents.length).flatMap (fun k => contents.getD k []) = _
  rw [List.flatMap_def, hmap]

variable {mid : U32} {next : PayloadType} {maxPacket : ℕ} {ks : List ℕ} {frag : FragmentData}
  {fragments : List Fragment} {this message : Message}

omit hlength in
theorem sum_length_le {l : List Fragment} (hnodup : l.Nodup)
    (h : ∀ f ∈ l, ∃ k < contents.length, f = piece contents k) :
    (l.map (·.data.length)).sum ≤ (contents.map List.length).sum := by
  have hsub : l.Subperm ((List.range contents.length).map (piece contents)) := by
    refine List.subperm_of_subset hnodup fun f hf => ?_
    obtain ⟨k, hk, rfl⟩ := h f hf
    exact List.mem_map_of_mem (List.mem_range.mpr hk)
  obtain ⟨l', hperm, hsublist⟩ := hsub
  have hle := (hsublist.map fun f : Fragment => f.data.length).sum_le_sum fun _ _ => Nat.zero_le _
  have hall : (((List.range contents.length).map (piece contents)).map (·.data.length)).sum =
      (contents.map List.length).sum := by
    rw [← List.length_flatten, ← contents_pieces, Message.contents, List.length_flatMap]
  rw [← (hperm.map _).sum_eq]
  exact hle.trans hall.le

theorem length_eq_iff (hks : ∀ k ∈ ks, k < contents.length)
    (hnumbered : Pieces.Numbered Fragment.number fragments)
    (hmem : ∀ f, f ∈ fragments ↔ ∃ k ∈ ks, f = piece contents k) :
    (fragments.length = contents.length ↔ ∀ k < contents.length, k ∈ ks) ∧
      ((∀ k < contents.length, k ∈ ks) →
        fragments = (List.range contents.length).map (piece contents)) := by
  have hrange : ∀ f ∈ fragments, 1 ≤ f.number ∧ f.number ≤ contents.length := by
    intro f hf
    obtain ⟨k, hk, rfl⟩ := (hmem f).mp hf
    have hlt := hks k hk
    rw [number_piece hlength hlt]
    omega
  have hall : (∀ k < contents.length, k ∈ ks) →
      fragments = (List.range contents.length).map (piece contents) := by
    intro hall
    refine Pieces.eq_of_perm hnumbered (numbered_pieces hlength) ?_
    refine (List.perm_ext_iff_of_nodup hnumbered.nodup (numbered_pieces hlength).nodup).mpr fun f => ?_
    rw [hmem, List.mem_map]
    constructor
    · rintro ⟨k, hk, rfl⟩
      exact ⟨k, List.mem_range.mpr (hks k hk), rfl⟩
    · rintro ⟨k, hk, rfl⟩
      exact ⟨k, hall k (List.mem_range.mp hk), rfl⟩
  refine ⟨⟨fun hlen k hk => ?_, fun h => by simp [hall h]⟩, hall⟩
  have hnumbers := Pieces.numbers_of_complete hnumbered hrange hlen
  have hk' : k + 1 ∈ fragments.map Fragment.number := by
    rw [hnumbers]
    exact List.mem_range'_1.mpr (by omega)
  obtain ⟨f, hf, hnumber⟩ := List.mem_map.mp hk'
  obtain ⟨j, hj, rfl⟩ := (hmem f).mp hf
  rw [number_piece hlength (hks j hj)] at hnumber
  obtain rfl : j = k := by omega
  exact hj

omit hlength in
theorem Seen.begin (h : Seen mid contents next maxPacket ks frag fragments this)
    {payload : EncryptedFragmentPayload}
    (htotal : payload.totalFragments.toNat = contents.length) :
    (this.beginV2 frag payload).1.len = frag.len ∧
      (this.beginV2 frag payload).1.last.toNat = contents.length ∧
      (this.beginV2 frag payload).2 = fragments := by
  unfold beginV2
  by_cases hks : ks = []
  · have hnone := h.isNone.mpr hks
    have hempty : fragments = [] := by rw [← h.fragments_eq, hnone]; rfl
    have hlen : frag.len = 0 := by rw [h.collected.len, hempty]; rfl
    rw [if_pos (by simp [startsV2, hnone])]
    exact ⟨hlen.symm, htotal, hempty.symm⟩
  · have hlast := h.last hks
    have hsome : this.fragments.isNone = false := by
      rw [← Bool.not_eq_true, Option.isNone_iff_eq_none, h.isNone]
      exact hks
    have hnot : ¬ payload.totalFragments > frag.last := by
      rw [gt_iff_lt, BitVec.lt_def]
      omega
    rw [if_neg (by simp [startsV2, hsome, hnot])]
    exact ⟨rfl, hlast, h.fragments_eq⟩

/-- **What a fragment does**: a duplicate is ignored, and another one stored. -/
theorem Seen.addFragmentV2 (h : Seen mid contents next maxPacket ks frag fragments this)
    (hks : ∀ k ∈ ks, k < contents.length) (hsize : (contents.map List.length).sum ≤ maxPacket)
    {k : ℕ} (hk : k < contents.length) (hcarries : CarriesPiece mid contents next k message)
    (hmore : ¬ ∀ j < contents.length, j ∈ ks) :
    ∃ frag' fragments' this', Seen mid contents next maxPacket (ks ++ [k]) frag' fragments' this' ∧
      this.addFragmentV2 message = if ∀ j < contents.length, j ∈ ks ++ [k] then
        (.success, this'.completeV2 message) else (.needMore, this') := by
  obtain ⟨hid, payload, hpayload, hnum, htotal, hplain, hnext⟩ := hcarries
  obtain ⟨hlen, hlast, hbegin⟩ := Seen.begin h htotal
  have hle : payload.fragmentNumber ≤ payload.totalFragments := by
    rw [BitVec.le_def]
    omega
  have hks' : ∀ j ∈ ks ++ [k], j < contents.length := by
    intro j hj
    obtain hj | hj := List.mem_append.mp hj
    · exact hks j hj
    · exact List.mem_singleton.mp hj ▸ hk
  have hmem' : ∀ f, f ∈ piece contents k :: fragments ↔ ∃ j ∈ ks ++ [k], f = piece contents j := by
    intro f
    rw [List.mem_cons, h.mem]
    constructor
    · rintro (rfl | ⟨j, hj, rfl⟩)
      · exact ⟨k, by simp, rfl⟩
      · exact ⟨j, by simp [hj], rfl⟩
    · rintro ⟨j, hj, rfl⟩
      obtain hj | hj := List.mem_append.mp hj
      · exact .inr ⟨j, hj, rfl⟩
      · exact .inl (by rw [List.mem_singleton.mp hj])
  have hpiece : (⟨payload.fragmentNumber.setWidth 8, payload.plain⟩ : Fragment) = piece contents k := by
    rw [piece, hplain]
    congr 1
    apply BitVec.eq_of_toNat_eq
    rw [BitVec.toNat_setWidth, hnum, BitVec.toNat_ofNat]
  have hfrag := h.frag_eq
  have hcol : Collected frag (this.fragments.getD []) := by rw [h.fragments_eq]; exact h.collected
  obtain ⟨-, hfail⟩ | ⟨heq, hstarts, f, hf, hnumber⟩ | ⟨frag', inserted, hstored, heq⟩ :=
    Message.addFragmentV2_spec hfrag hcol hpayload (h.messageId.trans hid.symm) hle
  · -- there is room for all fragments
    exfalso
    obtain ⟨hnew, hlarge⟩ := hfail (by omega)
    rw [hbegin] at hnew
    have hnodup : (piece contents k :: fragments).Nodup := by
      refine List.nodup_cons.mpr ⟨fun hmem => hnew _ hmem ?_, h.collected.numbered.nodup⟩
      rw [number_piece hlength hk, hnum]
    have hpieces : ∀ f ∈ piece contents k :: fragments, ∃ j < contents.length,
        f = piece contents j := by
      intro f hf
      obtain ⟨j, hj, rfl⟩ := (hmem' f).mp hf
      exact ⟨j, hks' j hj, rfl⟩
    have hsum := sum_length_le hnodup hpieces
    rw [List.map_cons, List.sum_cons, ← h.collected.len] at hsum
    rw [hlen, hplain, h.maxPacket] at hlarge
    have hdata : (piece contents k).data.length = (contents.getD k []).length := rfl
    omega
  · -- a duplicate
    rw [h.fragments_eq] at hf
    obtain ⟨j, hj, rfl⟩ := (h.mem f).mp hf
    rw [number_piece hlength (hks j hj), hnum] at hnumber
    obtain rfl : j = k := by omega
    have hsame : ∀ i, i ∈ ks ++ [j] ↔ i ∈ ks := by
      intro i
      rw [List.mem_append, List.mem_singleton]
      exact ⟨fun h => h.elim (fun h => h) fun h => h ▸ hj, .inl⟩
    refine ⟨frag, fragments, this, ⟨h.messageId, h.frag_eq, h.maxPacket, fun _ => ?_, ?_,
      h.fragments_eq, h.collected, fun f => ?_, fun h0 => h.first ((hsame 0).mp h0)⟩, ?_⟩
    · exact h.last (List.ne_nil_of_mem hj)
    · rw [h.isNone]
      simp [List.ne_nil_of_mem hj]
    · simp only [h.mem, hsame]
    · rw [if_neg fun hall => hmore fun i hi => (hsame i).mp (hall i hi)]
      exact heq
  · have hperm := hstored.perm
    rw [hbegin, hpiece] at hperm
    have hmem : ∀ f, f ∈ inserted ↔ ∃ j ∈ ks ++ [k], f = piece contents j :=
      fun f => hperm.mem_iff.trans (hmem' f)
    obtain ⟨hcomplete, -⟩ := length_eq_iff hlength hks' hstored.collected.numbered hmem
    refine ⟨frag', inserted, { this with
      fragments := some inserted, frag := some frag' }.withFirst message payload, ?_, ?_⟩
    · refine ⟨?_, by rw [frag_withFirst], hstored.maxPacket.trans h.maxPacket, fun _ => ?_, ?_, ?_,
        hstored.collected, hmem, fun hfirst => ?_⟩
      · rw [messageId_withFirst]
        exact h.messageId
      · rw [hstored.last]
        exact hlast
      · simp
      · rw [fragments_withFirst]
        rfl
      · unfold withFirst
        split_ifs with hone
        · have hzero : k = 0 := by
            rw [hone] at hnum
            exact (Nat.succ.inj hnum).symm
          exact hnext hzero
        · have hne : k ≠ 0 := by
            rintro rfl
            exact hone (BitVec.eq_of_toNat_eq hnum)
          have hseen : 0 ∈ ks := by
            obtain hseen | hzero := List.mem_append.mp hfirst
            · exact hseen
            · exact absurd (List.mem_singleton.mp hzero).symm hne
          exact h.first hseen
    · rw [heq, htotal]
      simp only [hcomplete]

variable {defrag : Message} {fed : List (ℕ × Message)}

omit hlength in
theorem seen_nil (hfresh : defrag.resetDefrag ⟨0, 0, maxPacket⟩ = defrag)
    (hid : defrag.messageId = mid) : Seen mid contents next maxPacket [] ⟨0, 0, maxPacket⟩ [] defrag := by
  rw [← hfresh] at hid ⊢
  refine ⟨hid, rfl, rfl, fun h => absurd rfl h, ⟨fun _ => rfl, fun _ => rfl⟩, rfl,
    collected_nil ⟨0, 0, maxPacket⟩,
    fun f => ?_, fun h => by cases h⟩
  simp

/-- **As long as some fragment is missing**, more are needed. -/
theorem seen_feed (hfresh : defrag.resetDefrag ⟨0, 0, maxPacket⟩ = defrag)
    (hid : defrag.messageId = mid) (hsize : (contents.map List.length).sum ≤ maxPacket)
    (hfed : ∀ p ∈ fed, p.1 < contents.length ∧ CarriesPiece mid contents next p.1 p.2)
    (hmore : ¬ ∀ k < contents.length, k ∈ fed.map Prod.fst) :
    (∃ frag fragments, Seen mid contents next maxPacket (fed.map Prod.fst) frag fragments
      (defrag.feed (fed.map Prod.snd))) ∧
    defrag.statuses (fed.map Prod.snd) = List.replicate fed.length .needMore := by
  induction fed using List.reverseRecOn with
  | nil => exact ⟨⟨_, _, seen_nil hfresh hid⟩, rfl⟩
  | append_singleton fed p ih =>
    have hbefore : ¬ ∀ k < contents.length, k ∈ fed.map Prod.fst := by
      intro hall
      refine hmore fun k hk => ?_
      rw [List.map_append]
      exact List.mem_append_left _ (hall k hk)
    obtain ⟨⟨frag, fragments, hseen⟩, hstatuses⟩ :=
      ih (fun q hq => hfed q (List.mem_append_left _ hq)) hbefore
    have hks : ∀ k ∈ fed.map Prod.fst, k < contents.length := by
      intro k hk
      obtain ⟨q, hq, rfl⟩ := List.mem_map.mp hk
      exact (hfed q (List.mem_append_left _ hq)).1
    obtain ⟨hlt, hcarries⟩ := hfed p (by simp)
    obtain ⟨frag', fragments', this', hseen', hadd⟩ :=
      Seen.addFragmentV2 hlength hseen hks hsize hlt hcarries hbefore
    rw [List.map_append, List.map_singleton] at hmore
    rw [if_neg hmore] at hadd
    rw [List.map_append, List.map_append, feed_append, statuses_append, hstatuses, List.length_append,
      List.length_singleton, List.replicate_succ']
    simp only [List.map_singleton, feed, List.foldl_cons, List.foldl_nil, statuses]
    rw [show List.foldl _ defrag (fed.map Prod.snd) = defrag.feed (fed.map Prod.snd) from rfl, hadd]
    exact ⟨⟨frag', fragments', hseen'⟩, rfl⟩

/-- Fed all fragments in any order and any number of times, a message is put together with them as its
contents. More are needed until all were fed, and after that no more are taken. -/
def Reassembled (mid : U32) (contents : List Chunk) (next : PayloadType) (defrag : Message)
    (data : Chunk) : Prop :=
  ∀ fed : List (ℕ × Message),
    (∀ p ∈ fed, p.1 < contents.length ∧ CarriesPiece mid contents next p.1 p.2) →
    (∀ k < contents.length, k ∈ fed.map Prod.fst) →
    ∃ before p after, fed = before ++ p :: after ∧
      (¬ ∀ k < contents.length, k ∈ before.map Prod.fst) ∧
      (∀ k < contents.length, k ∈ (before ++ [p]).map Prod.fst) ∧
      defrag.statuses (fed.map Prod.snd) = List.replicate before.length .needMore ++
        .success :: List.replicate after.length .invalidState ∧
      (defrag.feed (fed.map Prod.snd)).payloads.getLast? = some (.encrypted ⟨next, 0, data, true⟩)

/-- **All fragments are put together.** -/
theorem reassembled_contents (hfresh : defrag.resetDefrag ⟨0, 0, maxPacket⟩ = defrag)
    (hid : defrag.messageId = mid) (hsize : (contents.map List.length).sum ≤ maxPacket)
    (hne : contents ≠ []) : Reassembled mid contents next defrag contents.flatten := by
  intro fed hfed hall
  have hpos := List.length_pos_iff.mpr hne
  obtain ⟨before, p, after, rfl, hmore, hcomplete⟩ := Pieces.exists_first
    (P := fun fed : List (ℕ × Message) => ∀ k < contents.length, k ∈ fed.map Prod.fst)
    (fun h => by simpa using h 0 hpos) hall
  have hbefore : ∀ q ∈ before, q.1 < contents.length ∧ CarriesPiece mid contents next q.1 q.2 :=
    fun q hq => hfed q (List.mem_append_left _ hq)
  obtain ⟨⟨frag, fragments, hseen⟩, hstatuses⟩ := seen_feed hlength hfresh hid hsize hbefore hmore
  have hks : ∀ k ∈ before.map Prod.fst, k < contents.length := by
    intro k hk
    obtain ⟨q, hq, rfl⟩ := List.mem_map.mp hk
    exact (hbefore q hq).1
  obtain ⟨hlt, hcarries⟩ := hfed p (by simp)
  obtain ⟨frag', fragments', this', hseen', hadd⟩ :=
    Seen.addFragmentV2 hlength hseen hks hsize hlt hcarries hmore
  have hcomplete' := hcomplete
  rw [List.map_append, List.map_singleton] at hcomplete'
  rw [if_pos hcomplete'] at hadd
  have hfeed : defrag.feed ((before ++ p :: after).map Prod.snd) = this'.completeV2 p.2 := by
    rw [List.map_append, List.map_cons, feed_append]
    change feed (addFragmentV2 _ _).2 _ = _
    rw [hadd]
    exact feed_of_frag_none _ rfl _
  refine ⟨before, p, after, rfl, hmore, hcomplete, ?_, ?_⟩
  · have hclosed := statuses_of_frag_none (this'.completeV2 p.2) rfl (after.map Prod.snd)
    rw [List.map_append, List.map_cons, statuses_append, hstatuses, statuses, hadd, hclosed,
      List.length_map]
  · have hks' : ∀ k ∈ before.map Prod.fst ++ [p.1], k < contents.length := by
      intro k hk
      obtain hk | hk := List.mem_append.mp hk
      · exact hks k hk
      · exact List.mem_singleton.mp hk ▸ hlt
    have hfragments := (length_eq_iff hlength hks' hseen'.collected.numbered hseen'.mem).2 hcomplete'
    have hdata : Message.contents (this'.fragments.getD []) = contents.flatten := by
      rw [hseen'.fragments_eq, hfragments, contents_pieces]
    rw [hfeed]
    simp only [completeV2, mergeFragments, hdata, hseen'.first (hcomplete' 0 hpos),
      List.getLast?_append, List.getLast?_singleton, Option.some_or]

end Pieces

end Message

end StrongSwan
