import StrongSwan.Utils.Identification

/-!
# Equal identities

* `caseless`, `strncasecmp_iff`: strings are compared up to their first NUL, without case.
* `compareRdns_iff`: distinguished names are compared RDN by RDN, and both have to be read to their
  ends.
* **`equals_hash`**: what is left of an equivalence that hashes respect.
-/

namespace StrongSwan

theorem chunkEquals_iff {a b : Chunk} : chunkEquals a b = true ↔ a ≠ [] ∧ a = b := by
  simp [chunkEquals]

/-! ## Strings without case -/

/-- What `strncasecmp` sees of a string. -/
def caseless : Chunk → Chunk
  | [] => []
  | c :: s => tolower c :: if c = 0 then [] else caseless s

theorem tolower_eq_zero_iff {c : U8} : tolower c = 0 ↔ c = 0 := by
  unfold tolower
  split_ifs with h
  · rw [BitVec.le_def, BitVec.le_def] at h
    bv_omega
  · rfl

theorem strncasecmp_iff {s t : Chunk} (h : s.length = t.length) :
    strncasecmp s t = true ↔ caseless s = caseless t := by
  induction s generalizing t with
  | nil =>
    rw [List.length_eq_zero_iff.mp h.symm]
    exact iff_of_true rfl rfl
  | cons c s ih =>
    cases t with
    | nil => cases h
    | cons c' t =>
      rw [strncasecmp, caseless, caseless, List.cons.injEq, Bool.and_eq_true, decide_eq_true_eq]
      refine and_congr_right fun hc => ?_
      have hzero : c = 0 ↔ c' = 0 := by
        rw [← tolower_eq_zero_iff, hc, tolower_eq_zero_iff]
      by_cases hnul : c = 0
      · rw [if_pos hnul, if_pos (hzero.mp hnul)]
        simp [hnul]
      · rw [if_neg hnul, if_neg (mt hzero.mpr hnul), decide_eq_false hnul, Bool.false_or]
        exact ih (Nat.succ.inj h)

/-! ## Distinguished names -/

namespace Rdn

/-- The case of such data is ignored, in RDNs of one type. -/
def IgnoresCase (t : Rdn) : Prop :=
  t.type = asn1PrintableString ∨ t.type = asn1Ia5String ∧ isEmailAddress t.oid = true

/-- RDNs that `compare_dn` passes. -/
structure Same (t o : Rdn) : Prop where
  oid : t.oid = o.oid
  length : t.data.length = o.data.length
  data : t.data = o.data ∨ t.type = o.type ∧ t.IgnoresCase ∧ caseless t.data = caseless o.data

theorem Same.symm {t o : Rdn} (h : Same t o) : Same o t where
  oid := h.oid.symm
  length := h.length.symm
  data := by
    rcases h.data with hdata | ⟨htype, hcase, hdata⟩
    · exact .inl hdata.symm
    · refine .inr ⟨htype.symm, ?_, hdata.symm⟩
      rwa [IgnoresCase, htype, h.oid] at hcase

theorem Same.trans {t o p : Rdn} (h : Same t o) (h' : Same o p)
    (htype : t.type = p.type ∨ t.data = p.data) : Same t p where
  oid := h.oid.trans h'.oid
  length := h.length.trans h'.length
  data := by
    rcases htype with htype | hdata
    · rcases h.data with hto | ⟨-, hcase, hto⟩
      · rcases h'.data with hop | ⟨htype', hcase', hop⟩
        · exact .inl (hto.trans hop)
        · refine .inr ⟨htype, ?_, (congrArg caseless hto).trans hop⟩
          rwa [IgnoresCase, htype', ← htype, ← h.oid] at hcase'
      · refine .inr ⟨htype, hcase, hto.trans ?_⟩
        rcases h'.data with hop | ⟨-, -, hop⟩
        · exact congrArg caseless hop
        · exact hop
    · exact .inl hdata

end Rdn

def ended : List Rdn → Bool → Bool
  | [], finished => finished
  | t :: ts, _ => ended ts t.isLast

theorem Rdn.same_iff {t o : Rdn} (hoid : t.oid = o.oid) (hlen : t.data.length = o.data.length) :
    (if t.type = o.type ∧ (t.type = asn1PrintableString ∨
        t.type = asn1Ia5String ∧ isEmailAddress t.oid = true) then strncasecmp t.data o.data
      else decide (t.data = o.data)) = true ↔ t.Same o := by
  split_ifs with hcase
  · rw [strncasecmp_iff hlen]
    exact ⟨fun h => ⟨hoid, hlen, .inr ⟨hcase.1, hcase.2, h⟩⟩,
      fun h => h.data.elim (congrArg caseless) fun h => h.2.2⟩
  · rw [decide_eq_true_eq]
    exact ⟨fun h => ⟨hoid, hlen, .inl h⟩,
      fun h => h.data.elim id fun h => absurd ⟨h.1, h.2.1⟩ hcase⟩

theorem compareRdns_cons {t o : Rdn} {ts os : List Rdn} {finished : Bool} :
    compareRdns (t :: ts) (o :: os) finished = true ↔
      t.Same o ∧ compareRdns ts os (t.isLast && o.isLast) = true := by
  rw [compareRdns]
  by_cases hoid : t.oid ≠ o.oid ∨ t.data.length ≠ o.data.length
  · rw [if_pos hoid]
    refine iff_of_false Bool.false_ne_true fun h => ?_
    exact hoid.elim (absurd h.1.oid) (absurd h.1.length)
  · rw [if_neg hoid]
    rw [not_or, not_not, not_not] at hoid
    dsimp only
    rw [← Rdn.same_iff hoid.1 hoid.2, Bool.ite_eq_true_distrib]
    simp

theorem compareRdns_iff {ts os : List Rdn} {finished finished' : Bool} :
    compareRdns ts os (finished && finished') = true ↔
      List.Forall₂ Rdn.Same ts os ∧ ended ts finished = true ∧ ended os finished' = true := by
  induction ts generalizing os finished finished' with
  | nil =>
    cases os with
    | nil => simp [compareRdns, ended]
    | cons o os => simp [compareRdns]
  | cons t ts ih =>
    cases os with
    | nil => simp [compareRdns]
    | cons o os =>
      rw [compareRdns_cons, ih, List.forall₂_cons, ended, ended, and_assoc]

theorem compareDn_iff {t o : Chunk} : compareDn t o = true ↔
    (t ≠ [] ∧ t = o) ∨ t.length = o.length ∧ List.Forall₂ Rdn.Same (rdns t) (rdns o) ∧
      ended (rdns t) false = true ∧ ended (rdns o) false = true := by
  rw [compareDn, ← compareRdns_iff, Bool.and_self]
  by_cases hlen : t.length = o.length
  · rw [if_neg (not_not.mpr hlen), Bool.or_eq_true, chunkEquals_iff, and_iff_right hlen]
  · rw [if_pos hlen]
    refine iff_of_false Bool.false_ne_true fun h => hlen ?_
    exact h.elim (fun h => congrArg List.length h.2) fun h => h.1

theorem compareDn_symm {t o : Chunk} (h : compareDn t o = true) : compareDn o t = true := by
  rw [compareDn_iff] at h ⊢
  rcases h with ⟨hne, rfl⟩ | ⟨hlen, hsame, ht, ho⟩
  · exact .inl ⟨hne, rfl⟩
  · exact .inr ⟨hlen.symm, hsame.flip.imp fun _ _ h => h.symm, ho, ht⟩

/-- RDNs in one place are of one type, or they have the same data. -/
def TypesAgree (ts ps : List Rdn) : Prop :=
  ∀ pair ∈ ts.zip ps, pair.1.type = pair.2.type ∨ pair.1.data = pair.2.data

theorem forall₂_same_trans {ts os ps : List Rdn} (h : List.Forall₂ Rdn.Same ts os)
    (h' : List.Forall₂ Rdn.Same os ps) (htypes : TypesAgree ts ps) :
    List.Forall₂ Rdn.Same ts ps := by
  induction h generalizing ps with
  | nil => exact h'
  | cons hto _ ih =>
    cases h' with
    | cons hop h' =>
      rw [TypesAgree, List.zip_cons_cons, List.forall_mem_cons] at htypes
      exact .cons (hto.trans hop htypes.1) (ih h' htypes.2)

theorem compareDn_trans {t o p : Chunk} (h : compareDn t o = true) (h' : compareDn o p = true)
    (htypes : TypesAgree (rdns t) (rdns p)) : compareDn t p = true := by
  rw [compareDn_iff] at h h' ⊢
  rcases h with ⟨-, rfl⟩ | ⟨hlen, hsame, ht, ho⟩
  · exact h'
  · rcases h' with ⟨-, rfl⟩ | ⟨hlen', hsame', -, hp⟩
    · exact .inr ⟨hlen, hsame, ht, ho⟩
    · exact .inr ⟨hlen.trans hlen', forall₂_same_trans hsame hsame' htypes, ht, hp⟩

/-! ## Equal identities -/

namespace Identification

/-- The identities compared by `equals_strcasecmp`. -/
def IsName (id : Identification) : Prop := id.type = .fqdn ∨ id.type = .rfc822Addr

variable {a b : Identification}

theorem equals_name (h : a.IsName) :
    a.equals b = true ↔ a.type = b.type ∧ a.encoded.length = b.encoded.length ∧ 0 ∉ a.encoded ∧
      0 ∉ b.encoded ∧ caseless a.encoded = caseless b.encoded := by
  have hequals : a.equals b = (a.type = b.type && a.encoded.length = b.encoded.length &&
      !a.encoded.contains 0 && !b.encoded.contains 0 && strncasecmp a.encoded b.encoded) := by
    rcases h with h | h
    all_goals
      rw [equals, h]
  rw [hequals]
  by_cases hlen : a.encoded.length = b.encoded.length
  · rw [← strncasecmp_iff hlen]
    simp [hlen, and_assoc]
  · simp [hlen]

theorem equals_dn (h : a.type = .derAsn1Dn) :
    a.equals b = compareDn a.encoded b.encoded := by
  rw [equals, h]

theorem equals_binary (hname : ¬a.IsName) (hdn : a.type ≠ .derAsn1Dn) :
    a.equals b = true ↔
      a.type = b.type ∧ (a.type = .any ∨ a.encoded ≠ [] ∧ a.encoded = b.encoded) := by
  have hequals : a.equals b =
      (a.type = b.type && (a.type = .any || chunkEquals a.encoded b.encoded)) := by
    rw [equals]
    cases htype : a.type with
    | fqdn => exact absurd (.inl htype) hname
    | rfc822Addr => exact absurd (.inr htype) hname
    | derAsn1Dn => exact absurd htype hdn
    | any | other => rfl
  rw [hequals, ← chunkEquals_iff]
  simp

theorem type_eq_of_equals (hdn : a.type ≠ .derAsn1Dn)
    (h : a.equals b = true) : a.type = b.type := by
  by_cases hname : a.IsName
  · exact ((equals_name hname).mp h).1
  · exact ((equals_binary hname hdn).mp h).1

/-- The identity has no encoding, and is neither `ID_ANY` nor a name. -/
def IsEmpty (id : Identification) : Prop := ¬id.IsName ∧ id.type ≠ .any ∧ id.encoded = []

theorem rdns_nil : rdns [] = [] := rfl

theorem equals_self_iff {a : Identification} :
    a.equals a = true ↔ ¬(a.IsName ∧ 0 ∈ a.encoded) ∧ ¬a.IsEmpty := by
  by_cases hname : a.IsName
  · rw [equals_name hname, IsEmpty]
    simp [hname]
  · rw [and_iff_right fun h : a.IsName ∧ 0 ∈ a.encoded => hname h.1, IsEmpty, and_iff_right hname]
    have hany : IdType.derAsn1Dn ≠ .any := IdType.noConfusion
    by_cases hdn : a.type = .derAsn1Dn
    · rw [equals_dn hdn, compareDn_iff, hdn, and_iff_right hany]
      refine ⟨?_, fun hne => .inl ⟨hne, rfl⟩⟩
      rintro (⟨hne, -⟩ | ⟨-, -, hended, -⟩) hempty
      · exact hne hempty
      · rw [hempty, rdns_nil] at hended
        cases hended
    · rw [equals_binary hname hdn]
      tauto

theorem equals_symm (h : a.equals b = true)
    (hdn : a.type = .derAsn1Dn → b.type = .derAsn1Dn) : b.equals a = true := by
  by_cases hda : a.type = .derAsn1Dn
  · rw [equals_dn hda] at h
    rw [equals_dn (hdn hda)]
    exact compareDn_symm h
  · have htype := type_eq_of_equals hda h
    by_cases hname : a.IsName
    · have hname' : b.IsName := by rwa [IsName, ← htype]
      rw [equals_name hname] at h
      rw [equals_name hname']
      exact ⟨h.1.symm, h.2.1.symm, h.2.2.2.1, h.2.2.1, h.2.2.2.2.symm⟩
    · have hname' : ¬b.IsName := by rwa [IsName, ← htype]
      rw [equals_binary hname hda] at h
      rw [equals_binary hname' (htype ▸ hda), ← htype]
      exact ⟨rfl, h.2.imp_right fun heq : a.encoded ≠ [] ∧ a.encoded = b.encoded =>
        ⟨heq.2 ▸ heq.1, heq.2.symm⟩⟩

theorem equals_trans {a b c : Identification} (h : a.equals b = true) (h' : b.equals c = true)
    (hdn : a.type = .derAsn1Dn → b.type = .derAsn1Dn ∧
      TypesAgree (rdns a.encoded) (rdns c.encoded)) : a.equals c = true := by
  by_cases hda : a.type = .derAsn1Dn
  · obtain ⟨hdb, htypes⟩ := hdn hda
    rw [equals_dn hda] at h ⊢
    rw [equals_dn hdb] at h'
    exact compareDn_trans h h' htypes
  · have htype := type_eq_of_equals hda h
    have htype' := type_eq_of_equals (htype ▸ hda) h'
    by_cases hname : a.IsName
    · have hname' : b.IsName := by rwa [IsName, ← htype]
      rw [equals_name hname'] at h'
      rw [equals_name hname] at h ⊢
      exact ⟨h.1.trans h'.1, h.2.1.trans h'.2.1, h.2.2.1, h'.2.2.2.1,
        h.2.2.2.2.trans h'.2.2.2.2⟩
    · have hname' : ¬b.IsName := by rwa [IsName, ← htype]
      rw [equals_binary hname' (htype ▸ hda), ← htype] at h'
      rw [equals_binary hname hda] at h ⊢
      refine ⟨h'.1, ?_⟩
      rcases h.2 with hany | ⟨hne, heq⟩
      · exact .inl hany
      · exact h'.2.imp_right fun h' => ⟨hne, heq.trans h'.2⟩

/-! ## Hashes of equal identities -/

/-- The data of the RDNs agree in case as well. -/
def DataAgree (ts os : List Rdn) : Prop := ∀ pair ∈ ts.zip os, pair.1.data = pair.2.data

theorem foldl_hash_eq {ts os : List Rdn} (h : List.Forall₂ Rdn.Same ts os) (hdata : DataAgree ts os)
    (key : Chunk) (inc : U32) :
    ts.foldl (fun hash rdn => chunkHashInc key rdn.data (chunkHashInc key rdn.oid hash)) inc =
      os.foldl (fun hash rdn => chunkHashInc key rdn.data (chunkHashInc key rdn.oid hash)) inc := by
  induction h generalizing inc with
  | nil => rfl
  | cons hsame _ ih =>
    rw [DataAgree, List.zip_cons_cons, List.forall_mem_cons] at hdata
    rw [List.foldl_cons, List.foldl_cons, hsame.oid, hdata.1]
    exact ih hdata.2 _

theorem hash_eq (h : a.equals b = true) (hname : a.IsName → a.encoded = b.encoded)
    (hdn : a.type = .derAsn1Dn → b.type = .derAsn1Dn ∧ DataAgree (rdns a.encoded) (rdns b.encoded))
    (key : Chunk) (inc : U32) : a.hash key inc = b.hash key inc := by
  by_cases hda : a.type = .derAsn1Dn
  · obtain ⟨hdb, hdata⟩ := hdn hda
    rw [equals_dn hda, compareDn_iff] at h
    rw [Identification.hash, Identification.hash, hda, hdb]
    dsimp only
    rw [hashDn, hashDn, hda, hdb]
    rcases h with ⟨-, heq⟩ | ⟨-, hsame, -, -⟩
    · rw [heq]
    · exact foldl_hash_eq hsame hdata key _
  · have htype := type_eq_of_equals hda h
    have hbinary : a.hashBinary key inc = b.hashBinary key inc := by
      rw [hashBinary, hashBinary, ← htype]
      by_cases hany : a.type = .any
      · rw [if_neg (not_not.mpr hany), if_neg (not_not.mpr hany)]
      · have hencoded : a.encoded = b.encoded := by
          by_cases hn : a.IsName
          · exact hname hn
          · exact (((equals_binary hn hda).mp h).2.resolve_left hany).2
        rw [if_pos hany, if_pos hany, hencoded]
    rw [Identification.hash, Identification.hash, ← htype]
    cases hcase : a.type with
    | derAsn1Dn => exact absurd hcase hda
    | any | fqdn | rfc822Addr | other => exact hbinary

/-- **Equality of identities**: only names with a NUL, and identities without an encoding other than
names and `ID_ANY`, are not equal to themselves. Among distinguished names, and among all other identities, it is symmetric; it is transitive unless two distinguished
names have a string in different types and cases. Hashes respect it up to case. -/
theorem equals_hash (key : Chunk) (a b c : Identification) :
    (a.equals a = true ↔ ¬(a.IsName ∧ 0 ∈ a.encoded) ∧ ¬a.IsEmpty) ∧
      (a.equals b = true → (a.type = .derAsn1Dn → b.type = .derAsn1Dn) → b.equals a = true) ∧
      (a.equals b = true → b.equals c = true →
        (a.type = .derAsn1Dn → b.type = .derAsn1Dn ∧
          TypesAgree (rdns a.encoded) (rdns c.encoded)) → a.equals c = true) ∧
      (a.equals b = true → (a.IsName → a.encoded = b.encoded) →
        (a.type = .derAsn1Dn → b.type = .derAsn1Dn ∧
          DataAgree (rdns a.encoded) (rdns b.encoded)) →
        ∀ inc, a.hash key inc = b.hash key inc) :=
  ⟨equals_self_iff, equals_symm, equals_trans, fun h hname hdn => hash_eq h hname hdn key⟩

/-- C=CH, with a string of some type. -/
def exampleCountry (type c h : U8) : Identification :=
  ⟨.derAsn1Dn, [0x30, 0x0d, 0x31, 0x0b, 0x30, 0x09, 0x06, 0x03, 0x55, 0x04, 0x06, type, 0x02, c, h]⟩

/-- Strings of different types are equal, and have one hash. -/
theorem equals_hash_country : (exampleCountry 0x13 0x43 0x48).hash [] 0 =
    (exampleCountry 0x0c 0x43 0x48).hash [] 0 := by
  have hequals : (exampleCountry 0x13 0x43 0x48).equals (exampleCountry 0x0c 0x43 0x48) = true := by
    decide
  have hdata : DataAgree (rdns (exampleCountry 0x13 0x43 0x48).encoded)
      (rdns (exampleCountry 0x0c 0x43 0x48).encoded) := by
    unfold DataAgree
    decide
  exact (equals_hash [] _ _ (exampleCountry 0x0c 0x43 0x48)).2.2.2 hequals
    (fun h => absurd h (by simp [IsName, exampleCountry])) (fun _ => ⟨rfl, hdata⟩) 0

/-- A name with a NUL does not equal itself, nor does a key ID without bytes; a distinguished name equals a key ID that does not equal
it; CH equals ch, and that equals ch in another type, which CH does not equal; and names that differ in
case have different hashes. -/
theorem not_equals_hash :
    (∃ a : Identification, a.IsName ∧ a.equals a = false) ∧
      (∃ a : Identification, a.IsEmpty ∧ a.equals a = false) ∧
      (∃ a b : Identification, a.equals b = true ∧ b.equals a = false) ∧
      (∃ a b c : Identification, a.equals b = true ∧ b.equals c = true ∧ a.equals c = false) ∧
      ∃ (key : Chunk) (a b : Identification) (inc : U32),
        a.equals b = true ∧ a.hash key inc ≠ b.hash key inc := by
  refine ⟨⟨⟨.fqdn, [0x61, 0]⟩, .inl rfl, by decide⟩, ?_, ?_, ?_, ?_⟩
  · exact ⟨⟨.other 11 (by decide), []⟩, ⟨by simp [IsName], by simp, rfl⟩, by decide⟩
  · exact ⟨⟨.derAsn1Dn, [0x30, 0]⟩, ⟨.other 11 (by decide), [0x30, 0]⟩, by decide, by decide⟩
  · exact ⟨exampleCountry 0x13 0x43 0x48, exampleCountry 0x13 0x63 0x68,
      exampleCountry 0x0c 0x63 0x68, by decide, by decide, by decide⟩
  · exact ⟨[], ⟨.fqdn, [0x61]⟩, ⟨.fqdn, [0x41]⟩, 0, by decide, by decide +kernel⟩

end Identification

end StrongSwan
