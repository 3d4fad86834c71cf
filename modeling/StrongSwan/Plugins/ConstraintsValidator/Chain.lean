import StrongSwan.Plugins.ConstraintsValidator
import StrongSwan.Utils.Identification.Equality

/-!
# Name constraints of a whole chain

* `fqdnMatches_iff`, `emailMatches_iff`, `dnMatches_iff`; `typeMatches_trans`: what is under a constraint
  that is under another one is under that one.
* `checkNameConstraints_iff`: what a check says about a certificate and its issuer.
* **`names_bound`**: the names of the end entity are bound by all CAs of the chain.
-/

namespace StrongSwan

namespace ConstraintsValidator

variable {c i j : Identification}

/-! ## Matching -/

theorem chunkEquals_drop {s t : Chunk} (hne : s ≠ []) (hlen : s.length ≤ t.length) :
    chunkEquals s (t.drop (t.take (t.length - s.length)).length) = true ↔
      t = t.take (t.length - s.length) ++ s := by
  have htake : (t.take (t.length - s.length)).length = t.length - s.length := by
    rw [List.length_take]
    omega
  rw [chunkEquals_iff, and_iff_right hne, htake]
  constructor
  · intro h
    conv_lhs => rw [← List.take_append_drop (t.length - s.length) t]
    rw [← h]
  · intro h
    have hdrop := congrArg (List.drop (t.length - s.length)) h
    rw [List.drop_left' htake] at hdrop
    exact hdrop.symm

theorem take_eq_of_append {s t d : Chunk} (h : t = d ++ s) : t.take (t.length - s.length) = d := by
  rw [h, List.length_append, Nat.add_sub_cancel, List.take_left' rfl]

/-- **A name is under a constraint** if it ends with it, at a dot. -/
theorem fqdnMatches_iff : fqdnMatches c i = true ↔ c.encoded ≠ [] ∧ ∃ diff, i.encoded = diff ++ c.encoded ∧
    (diff = [] ∨ c.encoded.head? = some 0x2e ∨ diff.getLast? = some 0x2e) := by
  rw [fqdnMatches]
  dsimp only
  constructor
  · intro h
    split_ifs at h with hshort hsuffix
    rw [not_or, not_lt] at hshort
    rw [Bool.not_eq_true', Bool.not_eq_false, chunkEquals_drop hshort.1 hshort.2] at hsuffix
    refine ⟨hshort.1, _, hsuffix, ?_⟩
    simpa only [Bool.or_eq_true, decide_eq_true_eq, or_assoc] using h
  · rintro ⟨hne, diff, hi, hdiff⟩
    have hlen : c.encoded.length ≤ i.encoded.length := by
      rw [hi, List.length_append]
      omega
    have hsuffix := (chunkEquals_drop hne hlen).mpr (by rw [take_eq_of_append hi]; exact hi)
    rw [if_neg (by rw [not_or, not_lt]; exact ⟨hne, hlen⟩), hsuffix, if_neg (by simp),
      take_eq_of_append hi]
    simpa only [Bool.or_eq_true, decide_eq_true_eq, or_assoc] using hdiff

/-- **An address is under a constraint** if it is that, or ends with a domain or at the host. -/
theorem emailMatches_iff : emailMatches c i = true ↔ c.encoded ≠ [] ∧
    if 0x40 ∈ c.encoded then c.encoded = i.encoded
    else ∃ diff, diff ≠ [] ∧ i.encoded = diff ++ c.encoded ∧
      (c.encoded.head? = some 0x2e ∨ diff.getLast? = some 0x40) := by
  rw [emailMatches]
  dsimp only
  constructor
  · intro h
    split_ifs at h with hshort hat hsuffix
    · rw [not_or, not_lt] at hshort
      refine ⟨hshort.1, ?_⟩
      rw [if_pos hat]
      exact (chunkEquals_iff.mp h).2
    · rw [not_or, not_lt] at hshort
      rw [not_or, Bool.not_eq_true', Bool.not_eq_false, chunkEquals_drop hshort.1 hshort.2] at hsuffix
      refine ⟨hshort.1, ?_⟩
      rw [if_neg hat]
      refine ⟨_, hsuffix.1, hsuffix.2, ?_⟩
      simpa only [Bool.or_eq_true, decide_eq_true_eq] using h
  · rintro ⟨hne, h⟩
    split_ifs at h with hat
    · rw [if_neg (by rw [not_or, not_lt, h]; exact ⟨h ▸ hne, le_rfl⟩), if_pos hat]
      exact chunkEquals_iff.mpr ⟨hne, h⟩
    · obtain ⟨diff, hdiff, hi, hmeet⟩ := h
      have hlen : c.encoded.length ≤ i.encoded.length := by
        rw [hi, List.length_append]
        omega
      have hsuffix := (chunkEquals_drop hne hlen).mpr (by rw [take_eq_of_append hi]; exact hi)
      rw [if_neg (by rw [not_or, not_lt]; exact ⟨hne, hlen⟩), if_neg hat, hsuffix,
        take_eq_of_append hi, if_neg (by simp [hdiff])]
      simpa only [Bool.or_eq_true, decide_eq_true_eq] using hmeet

theorem dnMatches_iff : dnMatches c i = true ↔ c.rdnParts <+: i.rdnParts := List.isPrefixOf_iff_prefix

theorem getLast?_append_of_ne_nil {s t : Chunk} (h : t ≠ []) : (s ++ t).getLast? = t.getLast? := by
  rw [List.getLast?_append]
  cases hlast : t.getLast? with
  | none => exact absurd (List.getLast?_eq_none_iff.mp hlast) h
  | some last => rfl

theorem fqdnMatches_trans (h : fqdnMatches c i = true) (h' : fqdnMatches i j = true) :
    fqdnMatches c j = true := by
  obtain ⟨hne, diff, hi, hmeet⟩ := fqdnMatches_iff.mp h
  obtain ⟨-, diff', hj, hmeet'⟩ := fqdnMatches_iff.mp h'
  refine fqdnMatches_iff.mpr ⟨hne, diff' ++ diff, by rw [hj, hi, List.append_assoc], ?_⟩
  by_cases hdiff : diff = []
  · rw [hdiff, List.nil_append] at hi
    rw [hi] at hmeet'
    rw [hdiff, List.append_nil]
    exact hmeet'
  · rw [getLast?_append_of_ne_nil hdiff]
    exact .inr (hmeet.resolve_left hdiff)

theorem emailMatches_trans (h : emailMatches c i = true) (h' : emailMatches i j = true) :
    emailMatches c j = true := by
  obtain ⟨hne, hi⟩ := emailMatches_iff.mp h
  obtain ⟨-, hj⟩ := emailMatches_iff.mp h'
  refine emailMatches_iff.mpr ⟨hne, ?_⟩
  split_ifs at hi ⊢ with hat
  · rw [if_pos (hi ▸ hat)] at hj
    exact hi.trans hj
  · split_ifs at hj with hat'
    · exact hj ▸ hi
    · obtain ⟨diff, hdiff, hi, hmeet⟩ := hi
      obtain ⟨diff', -, hj, -⟩ := hj
      refine ⟨diff' ++ diff, by simp [hdiff], by rw [hj, hi, List.append_assoc], ?_⟩
      rw [getLast?_append_of_ne_nil hdiff]
      exact hmeet

/-- **What is under a constraint is under those that it is under.** -/
theorem typeMatches_trans (htype : c.type = i.type) (h : typeMatches c i = true)
    (h' : typeMatches i j = true) : typeMatches c j = true := by
  unfold typeMatches at h h' ⊢
  rw [← htype] at h'
  cases hc : c.type with
  | fqdn =>
    rw [hc] at h h'
    exact fqdnMatches_trans h h'
  | rfc822Addr =>
    rw [hc] at h h'
    exact emailMatches_trans h h'
  | derAsn1Dn =>
    rw [hc] at h h'
    exact dnMatches_iff.mpr ((dnMatches_iff.mp h).trans (dnMatches_iff.mp h'))
  | any =>
    rw [hc] at h
    cases h
  | other number hnumber =>
    rw [hc] at h
    cases h

/-! ## Certificates -/

/-- The subject and the alternative names. -/
def names (cert : X509) : List Identification := cert.subject :: cert.subjectAltNames

/-- The matching of names of a type is implemented. -/
def Implemented (type : IdType) : Prop := type = .fqdn ∨ type = .rfc822Addr ∨ type = .derAsn1Dn

theorem implemented_of_matches (h : typeMatches c i = true) : Implemented c.type := by
  unfold typeMatches at h
  cases hc : c.type with
  | fqdn => exact .inl rfl
  | rfc822Addr => exact .inr (.inl rfl)
  | derAsn1Dn => exact .inr (.inr rfl)
  | any =>
    rw [hc] at h
    cases h
  | other number hnumber =>
    rw [hc] at h
    cases h

theorem namesMatch_eq (expected : Bool) (ids : List Identification) :
    namesMatch c expected ids expected = expected ↔
      ∀ id ∈ ids, id.type = c.type → typeMatches c id = expected := by
  induction ids with
  | nil => simp [namesMatch]
  | cons id rest ih =>
    rw [namesMatch]
    by_cases htype : id.type = c.type
    · rw [if_pos htype]
      by_cases hmatches : typeMatches c id = expected
      · rw [hmatches, if_neg (by simp), ih]
        constructor
        · intro h id' hid' htype'
          rcases List.mem_cons.mp hid' with rfl | hid'
          · exact hmatches
          · exact h id' hid' htype'
        · exact fun h id' hid' => h id' (List.mem_cons_of_mem _ hid')
      · rw [if_pos hmatches]
        exact iff_of_false hmatches fun h => hmatches (h id List.mem_cons_self htype)
    · rw [if_neg htype, if_neg (by simp), ih]
      constructor
      · intro h id' hid' htype'
        rcases List.mem_cons.mp hid' with rfl | hid'
        · exact absurd htype' htype
        · exact h id' hid' htype'
      · exact fun h id' hid' => h id' (List.mem_cons_of_mem _ hid')

/-- **A certificate matches a constraint as expected** if its names do; a subject is a DN. -/
theorem nameConstraintMatches_eq {cert : X509} (expected : Bool) :
    nameConstraintMatches c cert expected = expected ↔
      ∀ id ∈ names cert, id.type = c.type → typeMatches c id = expected := by
  have hsubject := cert.subject_type
  rw [nameConstraintMatches]
  by_cases hdn : c.type = .derAsn1Dn ∧ dnMatches c cert.subject ≠ expected
  · rw [if_pos hdn]
    refine iff_of_false hdn.2 fun h => hdn.2 ?_
    have hmatches := h cert.subject List.mem_cons_self (hsubject.trans hdn.1.symm)
    rw [typeMatches, hdn.1] at hmatches
    exact hmatches
  · rw [if_neg hdn, namesMatch_eq]
    constructor
    · intro h id hid htype
      rcases List.mem_cons.mp hid with rfl | hid
      · rw [hsubject] at htype
        rw [typeMatches, ← htype]
        by_contra hne
        exact hdn ⟨htype.symm, hne⟩
      · exact h id hid htype
    · exact fun h id hid => h id (List.mem_cons_of_mem _ hid)

/-! ## Chains -/

section Chain

variable {subject issuer ee : X509} {cas : List X509} {id : Identification}

/-- The identity is under the permitted constraints of its type. -/
def Permits (ca : X509) (id : Identification) : Prop :=
  ∀ c ∈ ca.permitted, c.type = id.type → typeMatches c id = true

/-- The identity is under an excluded constraint of its type. -/
def Excludes (ca : X509) (id : Identification) : Prop :=
  ∃ c ∈ ca.excluded, c.type = id.type ∧ typeMatches c id = true

theorem inherited_permitted (hca : subject.isCa = true) : nameConstraintInherited c subject true = true ↔
    ∃ d ∈ subject.permitted, d.type = c.type ∧ typeMatches c d = true := by
  simp [nameConstraintInherited, hca, constraints]

theorem inherited_excluded (hca : subject.isCa = true) : nameConstraintInherited c subject false = true ↔
    ∃ d ∈ subject.excluded, d.type = c.type ∧ typeMatches d c = true := by
  simp [nameConstraintInherited, hca, constraints]

/-- **What a check says.** -/
theorem checkNameConstraints_iff : checkNameConstraints subject issuer = true ↔
    (∀ id ∈ names subject, Permits issuer id ∧ ¬ Excludes issuer id) ∧
      (∀ c ∈ issuer.permitted, nameConstraintInherited c subject true = true) ∧
        ∀ c ∈ issuer.excluded, nameConstraintInherited c subject false = true := by
  have hfalse : ∀ b : Bool, (!b) = true ↔ b = false := by decide
  rw [checkNameConstraints, Bool.and_eq_true, List.all_eq_true, List.all_eq_true]
  simp only [Bool.and_eq_true, hfalse, nameConstraintMatches_eq]
  constructor
  · rintro ⟨hpermitted, hexcluded⟩
    refine ⟨fun id hid => ⟨fun c hc htype => (hpermitted c hc).1 id hid htype.symm, ?_⟩,
      fun c hc => (hpermitted c hc).2, fun c hc => (hexcluded c hc).2⟩
    rintro ⟨c, hc, htype, hmatches⟩
    rw [(hexcluded c hc).1 id hid htype.symm] at hmatches
    cases hmatches
  · rintro ⟨hnames, hpermitted, hexcluded⟩
    refine ⟨fun c hc => ⟨fun id hid htype => (hnames id hid).1 c hc htype.symm, hpermitted c hc⟩,
      fun c hc => ⟨fun id hid htype => ?_, hexcluded c hc⟩⟩
    by_contra hmatches
    exact (hnames id hid).2 ⟨c, hc, htype.symm, by simpa using hmatches⟩

/-- **A sub-CA permits only what its issuer does.** -/
theorem Permits.of_check (h : Permits subject id) (hca : subject.isCa = true)
    (hcheck : checkNameConstraints subject issuer = true) : Permits issuer id := by
  intro c hc htype
  obtain ⟨d, hd, hsame, hmatches⟩ :=
    (inherited_permitted hca).mp ((checkNameConstraints_iff.mp hcheck).2.1 c hc)
  exact typeMatches_trans hsame.symm hmatches (h d hd (hsame.trans htype))

/-- **A sub-CA excludes all that its issuer does.** -/
theorem Excludes.of_check (h : Excludes issuer id) (hca : subject.isCa = true)
    (hcheck : checkNameConstraints subject issuer = true) : Excludes subject id := by
  obtain ⟨c, hc, htype, hmatches⟩ := h
  obtain ⟨d, hd, hsame, hwider⟩ :=
    (inherited_excluded hca).mp ((checkNameConstraints_iff.mp hcheck).2.2 c hc)
  exact ⟨d, hd, hsame.trans htype, typeMatches_trans hsame hwider hmatches⟩

theorem bound_above (hcheck : checkChain issuer cas = true) (hca : issuer.isCa = true)
    (hcas : ∀ ca ∈ cas, ca.isCa = true) (hpermits : Permits issuer id) (hexcludes : ¬ Excludes issuer id) :
    ∀ ca ∈ cas, Permits ca id ∧ ¬ Excludes ca id := by
  induction cas generalizing issuer with
  | nil => simp
  | cons above rest ih =>
    rw [checkChain, Bool.and_eq_true] at hcheck
    have habove : Permits above id := hpermits.of_check hca hcheck.1
    have hnot : ¬ Excludes above id := fun h => hexcludes (h.of_check hca hcheck.1)
    intro ca hmem
    rcases List.mem_cons.mp hmem with rfl | hmem
    · exact ⟨habove, hnot⟩
    · exact ih hcheck.2 (hcas above List.mem_cons_self)
        (fun ca hca => hcas ca (List.mem_cons_of_mem _ hca)) habove hnot ca hmem

/-- **The names of the end entity are bound by all CAs.** -/
theorem names_bound (hcheck : checkChain ee cas = true) (hcas : ∀ ca ∈ cas, ca.isCa = true) :
    ∀ n ∈ names ee, ∀ ca ∈ cas, Permits ca n ∧ ¬ Excludes ca n := by
  intro n hn ca hmem
  cases cas with
  | nil => cases hmem
  | cons issuer rest =>
    rw [checkChain, Bool.and_eq_true] at hcheck
    have hbound := (checkNameConstraints_iff.mp hcheck.1).1 n hn
    rcases List.mem_cons.mp hmem with rfl | hmem
    · exact hbound
    · exact bound_above hcheck.2 (hcas issuer List.mem_cons_self)
        (fun ca hca => hcas ca (List.mem_cons_of_mem _ hca)) hbound.1 hbound.2 ca hmem

/-- A constraint that is not implemented is not inherited, so that only the direct issuer may have one. -/
theorem excluded_of_not_implemented (hcheck : checkChain ee cas = true)
    (hcas : ∀ ca ∈ cas, ca.isCa = true) {ca : X509} (hca : ca ∈ cas) (hc : c ∈ ca.excluded)
    (hnot : ¬ Implemented c.type) : cas.head? = some ca := by
  induction cas generalizing ee with
  | nil => cases hca
  | cons issuer rest ih =>
    rw [checkChain, Bool.and_eq_true] at hcheck
    rcases List.mem_cons.mp hca with rfl | hmem
    · rfl
    · have hhead := ih hcheck.2 (fun ca hca => hcas ca (List.mem_cons_of_mem _ hca)) hmem
      cases rest with
      | nil => cases hmem
      | cons above rest =>
        cases hhead
        rw [checkChain, Bool.and_eq_true] at hcheck
        obtain ⟨d, -, htype, hmatches⟩ := (inherited_excluded (hcas issuer List.mem_cons_self)).mp
          ((checkNameConstraints_iff.mp hcheck.2.1).2.2 c hc)
        exact absurd (htype ▸ implemented_of_matches hmatches) hnot

end Chain

end ConstraintsValidator

end StrongSwan
