import StrongSwan.Lib.Dominance
import StrongSwan.Sa.IkeSa

/-!
# Selecting configs

Backends offer IKE configs and peer configs. The backend manager selects the IKE config that matches
best, and sorts peer configs by how well they match. How configs match hosts, and how identities match
one another, are parameters.

* `getIkeMatch`, `getPeerMatch`: how a config matches.
* `getIkeCfg`: **`getIkeCfg_eq_some_iff`**.
* `createPeerCfgEnumerator`: **`best_first`**.
-/

namespace StrongSwan

/-- `ike_cfg_t`: the version, and how addresses match -/
structure IkeCfg (Host : Type*) where
  version : IkeVersion
  matchMe : Host → ℕ
  matchOther : Host → ℕ

/-- `peer_cfg_t`: its IKE config, and the identities of the local and remote auth configs -/
structure PeerCfg (Host Id : Type*) where
  ikeCfg : IkeCfg Host
  authCfgs (isLocal : Bool) : List (Option Id)

structure Backend (Host Id : Type*) where
  createIkeCfgEnumerator : Option Host → Option Host → List (IkeCfg Host)
  createPeerCfgEnumerator : Option Id → Option Id → List (PeerCfg Host Id)

namespace BackendManager

variable {Host Id : Type*}

/-! ## Matches -/

/-- `MATCH_ANY` -/
def matchAny : ℕ := 0x01

/-- `MATCH_VERSION` -/
def matchVersion : ℕ := 0x04

/-- `MATCH_ME` -/
def matchMe : ℕ := 0x08

/-- `MATCH_OTHER` -/
def matchOther : ℕ := 0x10

/-- How one of the hosts matches, if it does -/
def hostMatch (quality : Host → ℕ) (weight : ℕ) : Option Host → Option ℕ
  | some host => if quality host = 0 then none else some (quality host * weight)
  | none => some matchAny

/-- `get_ike_match`, `0` is `MATCH_NONE`. -/
def getIkeMatch (cand : IkeCfg Host) (me other : Option Host) (version : IkeVersion) : ℕ :=
  if cand.version ≠ .any ∧ version ≠ cand.version then 0
  else
    match hostMatch cand.matchMe matchMe me, hostMatch cand.matchOther matchOther other with
    | some mine, some others =>
      -- improve the match if the version of the candidate is specified
      mine + others + if cand.version ≠ .any then matchVersion else 0
    | _, _ => 0

/-- `ID_MATCH_ANY` -/
def idMatchAny : ℕ := 1

/-- `get_peer_match`, `0` is `ID_MATCH_NONE`. Only the first auth config is compared. -/
def getPeerMatch (idMatches : Id → Id → ℕ) (id : Option Id) (cfg : PeerCfg Host Id)
    (isLocal : Bool) : ℕ :=
  match id with
  | none => idMatchAny
  | some id =>
    match cfg.authCfgs isLocal with
    | [] => 0
    | none :: _ => idMatchAny
    | some candidate :: _ =>
      -- match vice-versa, as the proposed identity might be %any
      if idMatches id candidate = 0 then idMatches candidate id else idMatches id candidate

/-! ## Selection -/

/-- The best config so far, and how it matches -/
def selectIkeCfg (me other : Option Host) (version : IkeVersion) :
    List (IkeCfg Host) → Option (IkeCfg Host) × ℕ → Option (IkeCfg Host) × ℕ
  | [], best => best
  | current :: configs, (found, best) =>
    let quality := getIkeMatch current me other version
    if quality ≠ 0 ∧ quality > best then
      selectIkeCfg me other version configs (some current, quality)
    else selectIkeCfg me other version configs (found, best)

/-- The IKE configs of all backends -/
def ikeCfgs (backends : List (Backend Host Id)) (me other : Option Host) : List (IkeCfg Host) :=
  backends.flatMap fun backend => backend.createIkeCfgEnumerator me other

def getIkeCfg (backends : List (Backend Host Id)) (me other : Option Host) (version : IkeVersion) :
    Option (IkeCfg Host) :=
  (selectIkeCfg me other version (ikeCfgs backends me other) (none, matchAny)).1

structure MatchEntry (Host Id : Type*) where
  matchPeer : ℕ
  matchIke : ℕ
  cfg : PeerCfg Host Id

/-- At least as good a match, and one of them better -/
def Dominates (a b : MatchEntry Host Id) : Prop :=
  a.matchIke > b.matchIke ∧ a.matchPeer ≥ b.matchPeer ∨
    a.matchIke ≥ b.matchIke ∧ a.matchPeer > b.matchPeer

instance (a b : MatchEntry Host Id) : Decidable (Dominates a b) :=
  inferInstanceAs (Decidable (_ ∨ _))

/-- `insert_sorted`, with the entry until it is inserted, and what is left in the helper list -/
def insertSorted : Option (MatchEntry Host Id) → List (MatchEntry Host Id) →
    List (MatchEntry Host Id)
  | entry, [] => entry.toList
  | none, current :: helper => current :: insertSorted none helper
  | some entry, current :: helper =>
    if Dominates entry current then entry :: current :: insertSorted none helper
    else current :: insertSorted (some entry) helper

/-- The entry of a config, if all matches are non-zero -/
def matchEntry (idMatches : Id → Id → ℕ) (me other : Option Host) (myId otherId : Option Id)
    (version : IkeVersion) (cfg : PeerCfg Host Id) : Option (MatchEntry Host Id) :=
  let matchPeerMe := getPeerMatch idMatches myId cfg true
  let matchPeerOther := getPeerMatch idMatches otherId cfg false
  let matchIke := getIkeMatch cfg.ikeCfg me other version
  if matchPeerMe ≠ 0 ∧ matchPeerOther ≠ 0 ∧ matchIke ≠ 0 then
    some ⟨matchPeerMe + matchPeerOther, matchIke, cfg⟩
  else none

/-- The configs of all backends -/
def peerCfgs (backends : List (Backend Host Id)) (myId otherId : Option Id) :
    List (PeerCfg Host Id) :=
  backends.flatMap fun backend => backend.createPeerCfgEnumerator myId otherId

/-- Sort the entries of some configs into a list. -/
def sortCfgs (entry : PeerCfg Host Id → Option (MatchEntry Host Id)) :
    List (PeerCfg Host Id) → List (MatchEntry Host Id) → List (MatchEntry Host Id)
  | [], configs => configs
  | cfg :: rest, configs =>
    match entry cfg with
    | some entry' => sortCfgs entry rest (insertSorted (some entry') configs)
    | none => sortCfgs entry rest configs

def createPeerCfgEnumerator (backends : List (Backend Host Id)) (idMatches : Id → Id → ℕ)
    (me other : Option Host) (myId otherId : Option Id) (version : IkeVersion) :
    List (PeerCfg Host Id) :=
  let cfgs := peerCfgs backends myId otherId
  if me.isNone ∧ other.isNone ∧ myId.isNone ∧ otherId.isNone then cfgs
  else (sortCfgs (matchEntry idMatches me other myId otherId version) cfgs []).map (·.cfg)

/-! ## IKE configs -/

section IkeCfgs

variable {me other : Option Host} {version : IkeVersion}

theorem getIkeMatch_version {cand : IkeCfg Host} (h : getIkeMatch cand me other version ≠ 0) :
    cand.version = .any ∨ cand.version = version := by
  by_contra hne
  rw [not_or] at hne
  exact h (if_pos ⟨hne.1, fun heq => hne.2 heq.symm⟩)

theorem hostMatch_pos {quality : Host → ℕ} {weight m : ℕ} {host : Option Host} (hweight : 0 < weight)
    (h : hostMatch quality weight host = some m) : 0 < m := by
  cases host with
  | none => exact Option.some.inj h ▸ (by decide : 0 < matchAny)
  | some host =>
    rw [hostMatch] at h
    split_ifs at h with hzero
    exact Option.some.inj h ▸ Nat.mul_pos (Nat.pos_of_ne_zero hzero) hweight

theorem matchAny_lt_getIkeMatch {cand : IkeCfg Host} (h : getIkeMatch cand me other version ≠ 0) :
    matchAny < getIkeMatch cand me other version := by
  have hversion : ¬(cand.version ≠ .any ∧ version ≠ cand.version) := fun hne => h (if_pos hne)
  rw [getIkeMatch, if_neg hversion] at h ⊢
  split at h
  · next mine others hmine hothers =>
    have hpos := hostMatch_pos (by decide) hmine
    have hpos' := hostMatch_pos (by decide) hothers
    simp only [matchAny]
    omega
  · exact absurd rfl h

/-- The first of some values that is greatest -/
def FirstBest {α : Type*} (quality : α → ℕ) (l : List α) (a : α) : Prop :=
  ∃ before after, l = before ++ a :: after ∧ (∀ b ∈ before, quality b < quality a) ∧
    ∀ b ∈ after, quality b ≤ quality a

theorem FirstBest.eq {α : Type*} {quality : α → ℕ} {l : List α} {a b : α}
    (ha : FirstBest quality l a) (hb : FirstBest quality l b) : a = b := by
  obtain ⟨before, after, rfl, hbefore, hafter⟩ := ha
  obtain ⟨before', after', heq, hbefore', hafter'⟩ := hb
  rcases List.append_eq_append_iff.mp heq with ⟨mid, rfl, hmid⟩ | ⟨mid, rfl, hmid⟩
  · cases mid with
    | nil => exact (List.cons.inj hmid).1
    | cons c mid =>
      obtain ⟨rfl, rfl⟩ := List.cons.inj hmid
      have h := hafter b (by simp)
      have h' := hbefore' a (by simp)
      omega
  · cases mid with
    | nil => exact (List.cons.inj hmid).1.symm
    | cons c mid =>
      obtain ⟨rfl, rfl⟩ := List.cons.inj hmid
      have h := hafter' a (by simp)
      have h' := hbefore b (by simp)
      omega

theorem selectIkeCfg_spec (configs : List (IkeCfg Host)) (found : Option (IkeCfg Host)) (best : ℕ) :
    (∀ c ∈ configs, getIkeMatch c me other version ≤ best) ∧
        selectIkeCfg me other version configs (found, best) = (found, best) ∨
      ∃ c, FirstBest (getIkeMatch · me other version) configs c ∧
        best < getIkeMatch c me other version ∧
        selectIkeCfg me other version configs (found, best) =
          (some c, getIkeMatch c me other version) := by
  induction configs generalizing found best with
  | nil => exact .inl ⟨by simp, rfl⟩
  | cons current configs ih =>
    rw [selectIkeCfg]
    split_ifs with h
    · rcases ih (some current) (getIkeMatch current me other version) with
        ⟨hall, hselect⟩ | ⟨c, ⟨before, after, hsplit, hbefore, hafter⟩, hlt, hselect⟩
      · exact .inr ⟨current, ⟨[], configs, rfl, by simp, hall⟩, h.2, hselect⟩
      · refine .inr ⟨c, ⟨current :: before, after, by simp [hsplit], ?_, hafter⟩, by omega, hselect⟩
        intro b hb
        rcases List.mem_cons.mp hb with rfl | hb
        · exact hlt
        · exact hbefore b hb
    · have hle : getIkeMatch current me other version ≤ best := by omega
      rcases ih found best with
        ⟨hall, hselect⟩ | ⟨c, ⟨before, after, hsplit, hbefore, hafter⟩, hlt, hselect⟩
      · refine .inl ⟨fun c hc => ?_, hselect⟩
        rcases List.mem_cons.mp hc with rfl | hc
        · exact hle
        · exact hall c hc
      · refine .inr ⟨c, ⟨current :: before, after, by simp [hsplit], ?_, hafter⟩, hlt, hselect⟩
        intro b hb
        rcases List.mem_cons.mp hb with rfl | hb
        · exact hle.trans_lt hlt
        · exact hbefore b hb

end IkeCfgs

/-- **The first of the best IKE configs is selected**, if there is one that matches. -/
theorem getIkeCfg_eq_some_iff (backends : List (Backend Host Id)) (me other : Option Host)
    (version : IkeVersion) (cfg : IkeCfg Host) :
    getIkeCfg backends me other version = some cfg ↔
      FirstBest (getIkeMatch · me other version) (ikeCfgs backends me other) cfg ∧
        getIkeMatch cfg me other version ≠ 0 := by
  rcases @selectIkeCfg_spec _ me other version (ikeCfgs backends me other) none matchAny with ⟨hall, hselect⟩ | ⟨c, hc, hlt, hselect⟩
  · rw [getIkeCfg, hselect]
    refine ⟨fun h => (by cases h), fun ⟨⟨before, after, hsplit, _, _⟩, hne⟩ => ?_⟩
    have := hall cfg (by simp [hsplit])
    have := matchAny_lt_getIkeMatch hne
    omega
  · rw [getIkeCfg, hselect]
    constructor
    · intro h
      obtain rfl := Option.some.inj h
      exact ⟨hc, by simp only [matchAny] at hlt; omega⟩
    · rintro ⟨hcfg, -⟩
      exact congrArg some (hc.eq hcfg)

theorem getIkeCfg_eq_none_iff (backends : List (Backend Host Id)) (me other : Option Host)
    (version : IkeVersion) : getIkeCfg backends me other version = none ↔
      ∀ cfg ∈ ikeCfgs backends me other, getIkeMatch cfg me other version = 0 := by
  rcases @selectIkeCfg_spec _ me other version (ikeCfgs backends me other) none matchAny with ⟨hall, hselect⟩ | ⟨c, hc, hlt, hselect⟩
  · rw [getIkeCfg, hselect]
    refine iff_of_true rfl fun cfg hcfg => ?_
    by_contra hne
    have := hall cfg hcfg
    have := matchAny_lt_getIkeMatch hne
    omega
  · rw [getIkeCfg, hselect]
    refine iff_of_false (by simp) fun h => ?_
    obtain ⟨before, after, hsplit, -, -⟩ := hc
    have := h c (by simp [hsplit])
    omega

/-! ## Peer configs -/

section PeerCfgs

theorem insertSorted_none (list : List (MatchEntry Host Id)) : insertSorted none list = list := by
  induction list with
  | nil => rfl
  | cons current helper ih => rw [insertSorted, ih]

theorem insertSorted_eq (entry : MatchEntry Host Id) (list : List (MatchEntry Host Id)) :
    insertSorted (some entry) list = list.orderedInsert Dominates entry := by
  induction list with
  | nil => rfl
  | cons current helper ih => rw [insertSorted, List.orderedInsert_cons, insertSorted_none, ih]

theorem sortCfgs_eq (entry : PeerCfg Host Id → Option (MatchEntry Host Id))
    (cfgs : List (PeerCfg Host Id)) (configs : List (MatchEntry Host Id)) :
    sortCfgs entry cfgs configs = Dominance.insertAll Dominates (cfgs.filterMap entry) configs := by
  induction cfgs generalizing configs with
  | nil => rfl
  | cons cfg rest ih =>
    cases h : entry cfg with
    | none =>
      rw [List.filterMap_cons_none h, ← ih, sortCfgs]
      simp only [h]
    | some entry' =>
      rw [List.filterMap_cons_some h, sortCfgs]
      simp only [h]
      rw [ih, insertSorted_eq]
      rfl

instance : IsStrictOrder (MatchEntry Host Id) Dominates where
  irrefl a := by
    simp only [Dominates]
    omega
  trans a b c hab hbc := by
    simp only [Dominates] at *
    omega

variable (idMatches : Id → Id → ℕ) (me other : Option Host) (myId otherId : Option Id)
  (version : IkeVersion)

/-- How well a config matches: the identities, and the IKE config -/
def score (cfg : PeerCfg Host Id) : ℕ × ℕ :=
  (getPeerMatch idMatches myId cfg true + getPeerMatch idMatches otherId cfg false,
    getIkeMatch cfg.ikeCfg me other version)

/-- All matches of a config are non-zero. -/
def Matches (cfg : PeerCfg Host Id) : Prop :=
  getPeerMatch idMatches myId cfg true ≠ 0 ∧ getPeerMatch idMatches otherId cfg false ≠ 0 ∧
    getIkeMatch cfg.ikeCfg me other version ≠ 0

instance : DecidablePred (Matches idMatches me other myId otherId version) := fun _ =>
  inferInstanceAs (Decidable (_ ∧ _))

/-- A better score: at least as good in both parts, but not the same -/
def Better (a b : ℕ × ℕ) : Prop := b ≤ a ∧ a ≠ b

theorem better_iff (a b : ℕ × ℕ) : Better a b ↔ a.2 > b.2 ∧ a.1 ≥ b.1 ∨ a.2 ≥ b.2 ∧ a.1 > b.1 := by
  obtain ⟨a₁, a₂⟩ := a
  obtain ⟨b₁, b₂⟩ := b
  simp only [Better, Prod.mk_le_mk, ne_eq, Prod.mk.injEq]
  omega

theorem filterMap_matchEntry (cfgs : List (PeerCfg Host Id)) :
    cfgs.filterMap (matchEntry idMatches me other myId otherId version) =
      (cfgs.filter (Matches idMatches me other myId otherId version)).map fun cfg =>
        ⟨(score idMatches me other myId otherId version cfg).1,
          (score idMatches me other myId otherId version cfg).2, cfg⟩ := by
  induction cfgs with
  | nil => rfl
  | cons cfg cfgs ih =>
    by_cases h : Matches idMatches me other myId otherId version cfg
    · have hentry : matchEntry idMatches me other myId otherId version cfg =
          some ⟨_, _, cfg⟩ := if_pos h
      rw [List.filterMap_cons_some hentry, List.filter_cons_of_pos (by simpa using h), ih]
      rfl
    · have hentry : matchEntry idMatches me other myId otherId version cfg = none := if_neg h
      rw [List.filterMap_cons_none hentry, List.filter_cons_of_neg (by simpa using h), ih]

/-- What the enumerator yields, unless it is a listing of all configs -/
theorem createPeerCfgEnumerator_eq (backends : List (Backend Host Id))
    (hgiven : me.isSome ∨ other.isSome ∨ myId.isSome ∨ otherId.isSome) :
    createPeerCfgEnumerator backends idMatches me other myId otherId version =
      (Dominance.insertAll Dominates (((peerCfgs backends myId otherId).filter
        (Matches idMatches me other myId otherId version)).map fun cfg =>
          ⟨(score idMatches me other myId otherId version cfg).1,
            (score idMatches me other myId otherId version cfg).2, cfg⟩) []).map (·.cfg) := by
  have hnone : ¬(me.isNone ∧ other.isNone ∧ myId.isNone ∧ otherId.isNone) := by
    rintro ⟨h₁, h₂, h₃, h₄⟩
    simp_all
  rw [createPeerCfgEnumerator, if_neg hnone, sortCfgs_eq, filterMap_matchEntry]

/-- **The best configs come first.** The enumerator yields the configs that match in all respects, none
behind one that it is better than, and those that match alike in the order of the backends. The IKE
config that is selected is the first of those that match best, and not one for another version. -/
theorem best_first (backends : List (Backend Host Id)) (idMatches : Id → Id → ℕ)
    (me other : Option Host) (myId otherId : Option Id) (version : IkeVersion)
    (hgiven : me.isSome ∨ other.isSome ∨ myId.isSome ∨ otherId.isSome) :
    let yielded := createPeerCfgEnumerator backends idMatches me other myId otherId version
    let matching := (peerCfgs backends myId otherId).filter
      (Matches idMatches me other myId otherId version)
    let score := score idMatches me other myId otherId version
    yielded.Perm matching ∧
      (yielded.Pairwise fun a b => ¬Better (score b) (score a)) ∧
      (∀ s, (yielded.filter fun cfg => score cfg = s) = matching.filter fun cfg => score cfg = s) ∧
      (∀ cfg, getIkeCfg backends me other version = some cfg ↔
        FirstBest (getIkeMatch · me other version) (ikeCfgs backends me other) cfg ∧
          getIkeMatch cfg me other version ≠ 0) ∧
      (getIkeCfg backends me other version = none ↔
        ∀ cfg ∈ ikeCfgs backends me other, getIkeMatch cfg me other version = 0) ∧
      ∀ cfg, getIkeCfg backends me other version = some cfg →
        cfg.version = .any ∨ cfg.version = version := by
  intro yielded matching score'
  have hyielded := createPeerCfgEnumerator_eq idMatches me other myId otherId version backends hgiven
  set entries := matching.map fun cfg => (⟨(score' cfg).1, (score' cfg).2, cfg⟩ : MatchEntry Host Id)
    with hentries
  have hcfg : entries.map (·.cfg) = matching := by
    rw [hentries, List.map_map]
    exact List.map_id _
  have hperm : (Dominance.insertAll Dominates entries []).Perm entries :=
    Dominance.perm_insertAll entries []
  have hscore : ∀ e ∈ Dominance.insertAll Dominates entries [],
      (e.matchPeer, e.matchIke) = score' e.cfg := by
    intro e he
    obtain ⟨cfg, -, rfl⟩ := List.mem_map.mp (hperm.subset he)
    rfl
  have hnil : Dominance.Undominated (@Dominates Host Id) [] := List.Pairwise.nil
  refine ⟨?_, ?_, ?_, getIkeCfg_eq_some_iff backends me other version,
    getIkeCfg_eq_none_iff backends me other version, ?_⟩
  · change List.Perm (createPeerCfgEnumerator _ _ _ _ _ _ _) _
    rw [hyielded, ← hcfg]
    exact hperm.map _
  · change List.Pairwise _ (createPeerCfgEnumerator _ _ _ _ _ _ _)
    rw [hyielded, List.pairwise_map]
    refine (hnil.insertAll entries).imp_of_mem fun {a b} ha hb hdom hbetter => hdom ?_
    rw [← hscore a ha, ← hscore b hb, better_iff] at hbetter
    exact hbetter
  · intro s
    have hfilter : (Dominance.insertAll Dominates entries []).filter
        (fun e => (e.matchPeer, e.matchIke) = s) =
        entries.filter fun e => (e.matchPeer, e.matchIke) = s := by
      refine hnil.filter_insertAll (fun x y z hx hy hxz => ?_) entries
      obtain ⟨hpeer, hike⟩ := Prod.mk.inj ((of_decide_eq_true hx).trans (of_decide_eq_true hy).symm)
      rwa [Dominates, ← hpeer, ← hike]
    change List.filter _ (createPeerCfgEnumerator _ _ _ _ _ _ _) = _
    rw [hyielded, List.filter_map, ← hcfg, List.filter_map]
    refine congrArg _ (Eq.trans (List.filter_congr fun e he => ?_) (hfilter.trans
      (List.filter_congr fun e he => ?_)))
    · exact congrArg (fun t => decide (t = s)) (hscore e he).symm
    · exact congrArg (fun t => decide (t = s)) (hscore e (hperm.symm.subset he))
  · intro cfg h
    exact getIkeMatch_version ((getIkeCfg_eq_some_iff backends me other version cfg).mp h).2

/-- A config for any address and version, and one for an address and IKEv2 -/
def office : Backend ℕ ℕ where
  createIkeCfgEnumerator _ _ := [⟨.any, fun _ => 1, fun _ => 1⟩,
    ⟨.ikev2, fun host => if host = 1 then 129 else 0, fun _ => 1⟩]
  createPeerCfgEnumerator _ _ := [⟨⟨.any, fun _ => 1, fun _ => 1⟩, fun _ => [none]⟩,
    ⟨⟨.ikev2, fun host => if host = 1 then 129 else 0, fun _ => 1⟩, fun _ => [none]⟩]

theorem best_first_office :
    (createPeerCfgEnumerator [office] (fun _ _ => 0) (some 1) (some 2) none none .ikev2).map
        (·.ikeCfg.version) = [.ikev2, .any] ∧
      (createPeerCfgEnumerator [office] (fun _ _ => 0) (some 1) (some 2) none none .ikev2).Perm
        ((peerCfgs [office] none none).filter
          fun cfg => Matches (fun _ _ => 0) (some 1) (some 2) none none .ikev2 cfg) :=
  ⟨by decide, (best_first [office] _ (some 1) (some 2) none none .ikev2 (.inl rfl)).1⟩

end PeerCfgs

end BackendManager

end StrongSwan
