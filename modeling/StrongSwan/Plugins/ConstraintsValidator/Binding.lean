import StrongSwan.Plugins.ConstraintsValidator.Chain

/-!
# Equal names and repeated constraints

Names are equal without case, but constraints are matched byte by byte.

* `typeMatches_name`: a name is under a constraint if it ends with it and they join.
* `forall_alike_matches_iff`, `forall_alike_not_matches_iff`: when names that are equal are bound as well.
* `typeMatches_self_iff`: the constraints that are under themselves.
* **`checkChain_binds_iff`**: the constraints of a checked chain bind all that equals a name of the end
  entity, if their letters do not matter.
-/

namespace StrongSwan

/-! ## Letters -/

/-- ASCII letters -/
def isLetter (c : U8) : Bool := (0x41 ≤ c && c ≤ 0x5A) || (0x61 ≤ c && c ≤ 0x7A)

/-- The letter in the other case. -/
def swapCase (c : U8) : U8 := if isLetter c then c ^^^ 0x20 else c

theorem tolower_swapCase : ∀ c, tolower (swapCase c) = tolower c := by decide

theorem swapCase_eq_self_iff : ∀ c, swapCase c = c ↔ isLetter c = false := by decide

theorem isLetter_tolower_of_ne : ∀ c, tolower c ≠ c → isLetter (tolower c) = true := by decide

theorem tolower_of_isLetter_eq_false : ∀ c, isLetter c = false → tolower c = c := by decide

theorem eq_of_tolower_eq {c d : U8} (hc : isLetter c = false) (h : tolower d = tolower c) : d = c := by
  rw [tolower_of_isLetter_eq_false c hc] at h
  by_contra hne
  have hletter := isLetter_tolower_of_ne d (by rw [h]; exact Ne.symm hne)
  rw [h, hc] at hletter
  cases hletter

theorem eq_of_map_tolower_eq {s t : Chunk} (hs : ∀ c ∈ s, isLetter c = false)
    (h : t.map tolower = s.map tolower) : t = s := by
  induction s generalizing t with
  | nil => exact List.map_eq_nil_iff.mp h
  | cons c s ih =>
    cases t with
    | nil => cases h
    | cons d t =>
      rw [List.map_cons, List.map_cons, List.cons.injEq] at h
      rw [List.forall_mem_cons] at hs
      rw [eq_of_tolower_eq hs.1 h.1, ih hs.2 h.2]

theorem caseless_eq_map {s : Chunk} (h : 0 ∉ s) : caseless s = s.map tolower := by
  induction s with
  | nil => rfl
  | cons c s ih =>
    rw [List.mem_cons, not_or] at h
    rw [caseless, if_neg (Ne.symm h.1), ih h.2, List.map_cons]

theorem tolower_eq_iff {c d : U8} (hd : isLetter d = false) : tolower c = d ↔ c = d := by
  constructor
  · intro h
    exact eq_of_tolower_eq hd (h.trans (tolower_of_isLetter_eq_false d hd).symm)
  · rintro rfl
    exact tolower_of_isLetter_eq_false c hd

theorem getLast?_map_tolower {s : Chunk} {d : U8} (hd : isLetter d = false) :
    (s.map tolower).getLast? = some d ↔ s.getLast? = some d := by
  rw [List.getLast?_map, Option.map_eq_some_iff]
  simp only [tolower_eq_iff hd, exists_eq_right]

theorem head?_map_tolower {s : Chunk} {d : U8} (hd : isLetter d = false) :
    (s.map tolower).head? = some d ↔ s.head? = some d := by
  rw [List.head?_map, Option.map_eq_some_iff]
  simp only [tolower_eq_iff hd, exists_eq_right]

theorem mem_map_tolower {s : Chunk} {d : U8} (hd : isLetter d = false) :
    d ∈ s.map tolower ↔ d ∈ s := by
  rw [List.mem_map]
  simp only [tolower_eq_iff hd, exists_eq_right]

namespace ConstraintsValidator

variable {c n n' : Identification}

/-! ## Names under a constraint -/

/-- Whether a constraint may follow that. -/
def Joins (c : Identification) (diff : Chunk) : Prop :=
  if c.type = .fqdn then diff = [] ∨ c.encoded.head? = some 0x2e ∨ diff.getLast? = some 0x2e
  else if 0x40 ∈ c.encoded then diff = []
  else diff ≠ [] ∧ (c.encoded.head? = some 0x2e ∨ diff.getLast? = some 0x40)

theorem typeMatches_name (h : c.IsName) : typeMatches c n = true ↔
    c.encoded ≠ [] ∧ ∃ diff, n.encoded = diff ++ c.encoded ∧ Joins c diff := by
  unfold typeMatches
  rcases h with h | h
  · simp only [h, fqdnMatches_iff, Joins, if_true]
  · simp only [h, emailMatches_iff, Joins, reduceCtorEq, if_false]
    refine and_congr_right fun _ => ?_
    split_ifs with hat
    · simp [eq_comm]
    · exact exists_congr fun diff => by tauto

/-- The name in lower case. -/
def lower (id : Identification) : Identification := { id with encoded := id.encoded.map tolower }

theorem joins_lower {diff : Chunk} : Joins (lower c) (diff.map tolower) ↔ Joins c diff := by
  have hdot : isLetter 0x2e = false := by decide
  have hat : isLetter 0x40 = false := by decide
  simp only [Joins, lower, List.map_eq_nil_iff, ne_eq, getLast?_map_tolower hdot,
    getLast?_map_tolower hat, head?_map_tolower hdot, mem_map_tolower hat]

/-- **A name is under a constraint without case** if one that is equal to it is under the constraint. -/
theorem typeMatches_lower_iff (h : c.IsName) : typeMatches (lower c) (lower n) = true ↔
    ∃ s : Chunk, s.map tolower = n.encoded.map tolower ∧ typeMatches c { n with encoded := s } = true := by
  have hlower : (lower c).IsName := h
  simp only [typeMatches_name h, typeMatches_name hlower]
  have hne : (lower c).encoded ≠ [] ↔ c.encoded ≠ [] := by simp [lower]
  rw [hne]
  constructor
  · rintro ⟨hc, diff, hn, hjoins⟩
    obtain ⟨diff, t, hsplit, rfl, ht⟩ := List.map_eq_append_iff.mp hn
    refine ⟨diff ++ c.encoded, ?_, hc, diff, rfl, joins_lower.mp hjoins⟩
    rw [hsplit, List.map_append, List.map_append, ht]
    rfl
  · rintro ⟨s, hs, hc, diff, rfl, hjoins⟩
    refine ⟨hc, diff.map tolower, ?_, joins_lower.mpr hjoins⟩
    rw [List.map_append] at hs
    exact hs.symm

/-- The identities of the type of a name that are equal to it, and the name. -/
def Alike (n n' : Identification) : Prop := n' = n ∨ n.equals n' = true ∧ n'.type = n.type

theorem alike_name (h : n.IsName) (hnul : 0 ∉ n.encoded) :
    Alike n n' ↔ n'.type = n.type ∧ n'.encoded.map tolower = n.encoded.map tolower := by
  rw [Alike, Identification.equals_name h]
  constructor
  · rintro (rfl | ⟨⟨-, -, -, hnul', hcase⟩, htype⟩)
    · exact ⟨rfl, rfl⟩
    · rw [caseless_eq_map hnul, caseless_eq_map hnul'] at hcase
      exact ⟨htype, hcase.symm⟩
  · rintro ⟨htype, hcase⟩
    have hzero : tolower 0 = 0 := by decide
    have hnul' : 0 ∉ n'.encoded := by
      intro hmem
      have hmem' := List.mem_map_of_mem (f := tolower) hmem
      rw [hcase, hzero, mem_map_tolower (by decide)] at hmem'
      exact hnul hmem'
    refine .inr ⟨⟨htype.symm, ?_, hnul, hnul', ?_⟩, htype⟩
    · rw [← List.length_map (f := tolower), ← hcase, List.length_map]
    · rw [caseless_eq_map hnul, caseless_eq_map hnul', hcase]

theorem alike_nul (h : n.IsName) (hnul : 0 ∈ n.encoded) : Alike n n' ↔ n' = n := by
  rw [Alike, Identification.equals_name h]
  exact ⟨fun h => h.elim id fun h => absurd hnul h.1.2.2.1, .inl⟩

/-- **A constraint without letters** is that of all names that are equal to one under it. -/
theorem forall_alike_matches_iff (hc : c.IsName) (hn : n.IsName) (hnul : 0 ∉ n.encoded)
    (hmatches : typeMatches c n = true) :
    (∀ n', Alike n n' → typeMatches c n' = true) ↔ ∀ b ∈ c.encoded, isLetter b = false := by
  obtain ⟨hne, diff, hdiff, hjoins⟩ := (typeMatches_name hc).mp hmatches
  constructor
  · intro h
    have hswap : Alike n { n with encoded := n.encoded.map swapCase } := by
      refine (alike_name hn hnul).mpr ⟨rfl, ?_⟩
      rw [List.map_map]
      exact List.map_congr_left fun b _ => tolower_swapCase b
    obtain ⟨-, diff', hdiff', -⟩ := (typeMatches_name hc).mp (h _ hswap)
    dsimp only at hdiff'
    rw [hdiff, List.map_append] at hdiff'
    have hsame := (List.append_inj' hdiff' (by rw [List.length_map])).2
    intro b hb
    refine (swapCase_eq_self_iff b).mp ?_
    have hid : c.encoded.map swapCase = c.encoded.map id := by rw [hsame, List.map_id]
    exact List.map_inj_left.mp hid b hb
  · intro h n' halike
    obtain ⟨-, hcase⟩ := (alike_name hn hnul).mp halike
    rw [hdiff, List.map_append] at hcase
    obtain ⟨diff', t, hsplit, hdiff', ht⟩ := List.map_eq_append_iff.mp hcase
    refine (typeMatches_name hc).mpr ⟨hne, diff', ?_, ?_⟩
    · rw [hsplit, eq_of_map_tolower_eq h ht]
    · rw [← joins_lower, hdiff', joins_lower]
      exact hjoins

/-- **No name that is equal to this one is under a constraint** if this one is not, without case. -/
theorem forall_alike_not_matches_iff (hc : c.IsName) (hn : n.IsName) (hnul : 0 ∉ n.encoded) :
    (∀ n', Alike n n' → typeMatches c n' = false) ↔ typeMatches (lower c) (lower n) = false := by
  rw [← Bool.not_eq_true, typeMatches_lower_iff hc]
  constructor
  · rintro h ⟨s, hs, hmatches⟩
    have halike : Alike n { n with encoded := s } := (alike_name hn hnul).mpr ⟨rfl, hs⟩
    rw [h _ halike] at hmatches
    cases hmatches
  · intro h n' halike
    obtain ⟨htype, hcase⟩ := (alike_name hn hnul).mp halike
    by_contra hmatches
    refine h ⟨n'.encoded, hcase, ?_⟩
    rw [← htype]
    exact Bool.not_eq_false _ ▸ hmatches

/-! ## Chains -/

section Binding

variable {ee issuer subject : X509} {cas : List X509}

/-- The constraints of all CAs bind what is equal to a name of the end entity. -/
structure BindsChain (ee : X509) (cas : List X509) : Prop where
  permitted : ∀ n ∈ names ee, ∀ n', Alike n n' → ∀ ca ∈ cas, ∀ c ∈ ca.permitted, c.type = n.type →
    typeMatches c n' = true
  excluded : ∀ n ∈ names ee, ∀ n', Alike n n' → ∀ ca ∈ cas, ∀ c ∈ ca.excluded, c.type = n.type →
    typeMatches c n' = false
  implemented : ∀ ca ∈ cas, ∀ c ∈ ca.excluded, ¬ Implemented c.type → ∀ n ∈ names ee, n.type ≠ c.type

/-- The constraints do not depend on the case of the names. -/
structure Respects (ee : X509) (cas : List X509) : Prop where
  permitted : ∀ n ∈ names ee, n.IsName → 0 ∉ n.encoded → ∀ ca ∈ cas, ∀ c ∈ ca.permitted,
    c.type = n.type → ∀ b ∈ c.encoded, isLetter b = false
  excluded : ∀ n ∈ names ee, n.IsName → 0 ∉ n.encoded → ∀ ca ∈ cas, ∀ c ∈ ca.excluded,
    c.type = n.type → typeMatches (lower c) (lower n) = false
  /-- constraints do not tell apart DNs that are equal -/
  dn : ∀ n ∈ names ee, n.type = .derAsn1Dn → ∀ encoded, compareDn n.encoded encoded = true →
    ∀ ca ∈ cas, ∀ c ∈ constraints ca true ++ constraints ca false, c.type = .derAsn1Dn →
      dnMatches c ⟨.derAsn1Dn, encoded⟩ = dnMatches c n
  /-- the issuer excludes nothing of a type that is not implemented -/
  implemented : ∀ issuer ∈ cas.head?, ∀ c ∈ issuer.excluded, ¬ Implemented c.type →
    ∀ n ∈ names ee, n.type ≠ c.type

theorem typeMatches_dn (h : c.type = .derAsn1Dn) : typeMatches c n = dnMatches c n := by
  rw [typeMatches, h]

theorem alike_dn (h : n.type = .derAsn1Dn) :
    Alike n n' ↔ n' = n ∨ compareDn n.encoded n'.encoded = true ∧ n'.type = .derAsn1Dn := by
  rw [Alike, Identification.equals_dn h, h]

theorem typeMatches_eq_false (h : ¬ Implemented c.type) : typeMatches c n = false := by
  by_contra hne
  exact h (implemented_of_matches (by simpa using hne))

theorem names_permitted (h : Respects ee cas) (hn : n ∈ names ee) (hname : c.IsName) {ca : X509}
    (hca : ca ∈ cas) (hc : c ∈ ca.permitted) (htype : c.type = n.type) (hmatches : typeMatches c n = true)
    (halike : Alike n n') : typeMatches c n' = true := by
  have hname' : n.IsName := by rwa [Identification.IsName, ← htype]
  by_cases hnul : 0 ∈ n.encoded
  · rw [(alike_nul hname' hnul).mp halike]
    exact hmatches
  · exact (forall_alike_matches_iff hname hname' hnul hmatches).mpr
      (h.permitted n hn hname' hnul ca hca c hc htype) n' halike

theorem names_not_excluded (h : Respects ee cas) (hn : n ∈ names ee) (hname : c.IsName) {ca : X509}
    (hca : ca ∈ cas) (hc : c ∈ ca.excluded) (htype : c.type = n.type) (hmatches : typeMatches c n = false)
    (halike : Alike n n') : typeMatches c n' = false := by
  have hname' : n.IsName := by rwa [Identification.IsName, ← htype]
  by_cases hnul : 0 ∈ n.encoded
  · rw [(alike_nul hname' hnul).mp halike]
    exact hmatches
  · exact (forall_alike_not_matches_iff hname hname' hnul).mpr
      (h.excluded n hn hname' hnul ca hca c hc htype) n' halike

/-- **What a checked chain binds**: equal names as well, if constraints do not depend on their case. -/
theorem bindsChain_iff (hcheck : checkChain ee cas = true) (hcas : ∀ ca ∈ cas, ca.isCa = true) :
    BindsChain ee cas ↔ Respects ee cas := by
  have hbound := names_bound hcheck hcas
  have hexcluded : ∀ n ∈ names ee, ∀ ca ∈ cas, ∀ c ∈ ca.excluded, c.type = n.type →
      typeMatches c n = false := fun n hn ca hca c hc htype => by
    by_contra hmatches
    exact (hbound n hn ca hca).2 ⟨c, hc, htype, by simpa using hmatches⟩
  constructor
  · intro h
    refine ⟨fun n hn hname hnul ca hca c hc htype => ?_, fun n hn hname hnul ca hca c hc htype => ?_,
      fun n hn hdn encoded hequal ca hca c hc htype => ?_, fun issuer hissuer => ?_⟩
    · have hcname : c.IsName := by rwa [Identification.IsName, htype]
      exact (forall_alike_matches_iff hcname hname hnul ((hbound n hn ca hca).1 c hc htype)).mp
        fun n' halike => h.permitted n hn n' halike ca hca c hc htype
    · have hcname : c.IsName := by rwa [Identification.IsName, htype]
      exact (forall_alike_not_matches_iff hcname hname hnul).mp
        fun n' halike => h.excluded n hn n' halike ca hca c hc htype
    · have halike : Alike n ⟨.derAsn1Dn, encoded⟩ := (alike_dn hdn).mpr (.inr ⟨hequal, rfl⟩)
      have hsame : c.type = n.type := htype.trans hdn.symm
      rw [← typeMatches_dn htype, ← typeMatches_dn htype]
      rcases List.mem_append.mp hc with hc | hc
      · rw [h.permitted n hn _ halike ca hca c hc hsame, (hbound n hn ca hca).1 c hc hsame]
      · rw [h.excluded n hn _ halike ca hca c hc hsame, hexcluded n hn ca hca c hc hsame]
    · exact h.implemented issuer (List.mem_of_mem_head? hissuer)
  · intro h
    refine ⟨fun n hn n' halike ca hca c hc htype => ?_, fun n hn n' halike ca hca c hc htype => ?_,
      fun ca hca c hc hnot => ?_⟩
    · have hmatches := (hbound n hn ca hca).1 c hc htype
      rcases implemented_of_matches hmatches with hfqdn | hemail | hdn
      · exact names_permitted h hn (.inl hfqdn) hca hc htype hmatches halike
      · exact names_permitted h hn (.inr hemail) hca hc htype hmatches halike
      · rcases (alike_dn (htype.symm.trans hdn)).mp halike with rfl | ⟨hequal, hdn'⟩
        · exact hmatches
        · have hsame := h.dn n hn (htype.symm.trans hdn) _ hequal ca hca c
            (List.mem_append_left _ hc) hdn
          rw [← typeMatches_dn hdn, ← typeMatches_dn hdn, hmatches, ← hdn'] at hsame
          exact hsame
    · have hmatches := hexcluded n hn ca hca c hc htype
      by_cases himplemented : Implemented c.type
      · rcases himplemented with hfqdn | hemail | hdn
        · exact names_not_excluded h hn (.inl hfqdn) hca hc htype hmatches halike
        · exact names_not_excluded h hn (.inr hemail) hca hc htype hmatches halike
        · rcases (alike_dn (htype.symm.trans hdn)).mp halike with rfl | ⟨hequal, hdn'⟩
          · exact hmatches
          · have hsame := h.dn n hn (htype.symm.trans hdn) _ hequal ca hca c
              (List.mem_append_right _ hc) hdn
            rw [← typeMatches_dn hdn, ← typeMatches_dn hdn, hmatches, ← hdn'] at hsame
            exact hsame
      · exact typeMatches_eq_false himplemented
    · exact h.implemented ca (excluded_of_not_implemented hcheck hcas hca hc hnot) c hc hnot

def AcceptsRepeats (issuer : X509) : Prop :=
  ∀ subject : X509, subject.isCa = true → (∀ c ∈ issuer.permitted, c ∈ subject.permitted) →
    (∀ c ∈ issuer.excluded, c ∈ subject.excluded) →
    (∀ c ∈ issuer.permitted, nameConstraintInherited c subject true = true) ∧
      ∀ c ∈ issuer.excluded, nameConstraintInherited c subject false = true

/-- The constraint is under itself. -/
def UnderItself (c : Identification) : Prop :=
  c.type = .derAsn1Dn ∨ c.type = .fqdn ∧ c.encoded ≠ [] ∨ c.type = .rfc822Addr ∧ 0x40 ∈ c.encoded

theorem typeMatches_self_iff : typeMatches c c = true ↔ UnderItself c := by
  by_cases hname : c.IsName
  · rw [typeMatches_name hname]
    have hdiff : ∀ diff : Chunk, c.encoded = diff ++ c.encoded ↔ diff = [] := fun diff => by
      rw [List.self_eq_append_left]
    simp only [hdiff, exists_eq_left, Joins, UnderItself]
    rcases hname with htype | htype
    · simp [htype]
    · simp only [htype, reduceCtorEq, if_false, false_or, false_and, true_and]
      split_ifs with hat
      · exact iff_of_true ⟨List.ne_nil_of_mem hat, trivial⟩ hat
      · exact iff_of_false (fun h => h.2.1 rfl) hat
  · by_cases hdn : c.type = .derAsn1Dn
    · exact iff_of_true (by rw [typeMatches_dn hdn, dnMatches_iff]) (.inl hdn)
    · refine iff_of_false (fun h => ?_) (fun h => ?_)
      · rcases implemented_of_matches h with h | h | h
        · exact hname (.inl h)
        · exact hname (.inr h)
        · exact hdn h
      · rcases h with h | ⟨h, -⟩ | ⟨h, -⟩
        · exact hdn h
        · exact hname (.inl h)
        · exact hname (.inr h)

/-- Each constraint is under itself, or there are others that stand for it. -/
structure Repeatable (issuer : X509) : Prop where
  permitted : ∀ c ∈ issuer.permitted, UnderItself c ∨
    ∃ d ∈ issuer.permitted, d.type = c.type ∧ typeMatches c d = true
  excluded : ∀ c ∈ issuer.excluded, UnderItself c ∨
    ∃ d ∈ issuer.excluded, d.type = c.type ∧ typeMatches d c = true

theorem acceptsRepeats_iff : AcceptsRepeats issuer ↔ Repeatable issuer := by
  constructor
  · intro h
    let repeats : X509 := { issuer with isCa := true }
    have hca : repeats.isCa = true := rfl
    obtain ⟨hpermitted, hexcluded⟩ := h repeats hca (fun _ hc => hc) fun _ hc => hc
    exact ⟨fun c hc => .inr ((inherited_permitted hca).mp (hpermitted c hc)),
      fun c hc => .inr ((inherited_excluded hca).mp (hexcluded c hc))⟩
  · intro h subject hca hpermitted hexcluded
    refine ⟨fun c hc => (inherited_permitted hca).mpr ?_, fun c hc => (inherited_excluded hca).mpr ?_⟩
    · rcases h.permitted c hc with hself | ⟨d, hd, htype, hmatches⟩
      · exact ⟨c, hpermitted c hc, rfl, typeMatches_self_iff.mpr hself⟩
      · exact ⟨d, hpermitted d hd, htype, hmatches⟩
    · rcases h.excluded c hc with hself | ⟨d, hd, htype, hmatches⟩
      · exact ⟨c, hexcluded c hc, rfl, typeMatches_self_iff.mpr hself⟩
      · exact ⟨d, hexcluded d hd, htype, hmatches⟩

/-- A certificate with an empty subject. -/
def exampleCert (isCa : Bool) (names permitted excluded : List Identification) : X509 where
  subject := ⟨.derAsn1Dn, [0x30, 0]⟩
  subject_type := rfl
  subjectAltNames := names
  isCa := isCa
  permitted := permitted
  excluded := excluded

end Binding

end ConstraintsValidator

end StrongSwan
