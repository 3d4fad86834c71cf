import StrongSwan.Utils.Identification.Equality

/-!
# Matching distinguished names

* `matchDn`, `matchesDn`: a name against one with wildcards.
* `IsDn`: the encodings of a name; `rdns_eq`: its RDNs are enumerated.
* `MatchesRdns`: names match RDN by RDN.
* **`matches_iff`**: the names that do so.
-/

namespace StrongSwan

/-! ## Names with wildcards -/

/-- `ID_MATCH_NONE` -/
def idMatchNone : ℕ := 0

/-- `ID_MATCH_ANY`: match to %any ID -/
def idMatchAny : ℕ := 1

/-- `ID_MATCH_MAX_WILDCARDS`: match with maximum allowed wildcards -/
def idMatchMaxWildcards : ℕ := 2

/-- `ID_MATCH_ONE_WILDCARD`: match with only one wildcard -/
def idMatchOneWildcard : ℕ := 19

/-- `ID_MATCH_PERFECT`: perfect match, won't get better -/
def idMatchPerfect : ℕ := 20

/-- A value that is `*` only. -/
def isWildcard (data : Chunk) : Bool := data = [0x2a]

/-- Compare RDNs, and count wildcards; `finished` if the last ones were the ends of their DNs. -/
def matchRdns : List Rdn → List Rdn → (finished : Bool) → (wc : ℕ) → Option ℕ
  | [], [], finished, wc => if finished then some wc else none
  | t :: ts, o :: os, _, wc =>
    if t.oid ≠ o.oid then none
    else if isWildcard o.data then matchRdns ts os (t.isLast && o.isLast) (wc + 1)
    else if t.data.length ≠ o.data.length then none
    else
      -- ignore case for printableStrings and email RDNs
      let same : Bool :=
        if t.type = o.type ∧ (t.type = asn1PrintableString ∨
            t.type = asn1Ia5String ∧ isEmailAddress t.oid) then strncasecmp t.data o.data
        else t.data = o.data
      if same then matchRdns ts os (t.isLast && o.isLast) wc else none
  | _, _, _, _ => none

/-- `compare_dn`, with the number of wildcards -/
def matchDn (t o : Chunk) : Option ℕ :=
  if chunkEquals t o then some 0 else matchRdns (rdns t) (rdns o) false 0

/-- What a match with wildcards is worth. -/
def score (wc : ℕ) : ℕ := idMatchPerfect - min wc (idMatchOneWildcard - idMatchMaxWildcards)

def Identification.matchesDn (this other : Identification) : ℕ :=
  if other.type = .any then idMatchAny
  else if this.type = other.type then
    match matchDn this.encoded other.encoded with
    | some wc => score wc
    | none => idMatchNone
  else idMatchNone

theorem score_bounds (wc : ℕ) : idMatchAny < score wc ∧ ∀ wc', wc ≤ wc' → score wc' ≤ score wc := by
  unfold score idMatchAny idMatchPerfect idMatchOneWildcard idMatchMaxWildcards
  refine ⟨by omega, fun wc' hle => ?_⟩
  omega

/-! ## Encodings of names -/

/-- A type with its value. -/
structure Attribute where
  oid : Chunk
  type : U8
  data : Chunk
  deriving DecidableEq

def IsElement (type : U8) (content bytes : Chunk) : Prop := asn1Unwrap bytes = some (type, content, [])

/-- The bytes are a SEQUENCE of an OID and a value. -/
def IsAttribute (a : Attribute) (bytes : Chunk) : Prop :=
  ∃ oid value, IsElement asn1Oid a.oid oid ∧ IsElement a.type a.data value ∧
    IsElement asn1Sequence (oid ++ value) bytes

/-- The bytes are a SET of such, which is not empty. -/
def IsRdnSet (as : List Attribute) (bytes : Chunk) : Prop :=
  as ≠ [] ∧ ∃ bss, List.Forall₂ IsAttribute as bss ∧ IsElement asn1Set bss.flatten bytes

/-- The bytes are a SEQUENCE of such. -/
def IsDn (sets : List (List Attribute)) (bytes : Chunk) : Prop :=
  ∃ bss, List.Forall₂ IsRdnSet sets bss ∧ IsElement asn1Sequence bss.flatten bytes

theorem IsElement.unwrap {type : U8} {content bytes : Chunk} (h : IsElement type content bytes)
    (rest : Chunk) : asn1Unwrap (bytes ++ rest) = some (type, content, rest) := by
  unfold IsElement at h
  match bytes, h with
  | type' :: len :: blob, h =>
    have hinner (n : ℕ) (blob' : Chunk)
        (hn : (if n > blob'.length then none else some (type', blob'.take n, blob'.drop n)) =
          some (type, content, [])) :
        (if n > (blob' ++ rest).length then none
          else some (type', (blob' ++ rest).take n, (blob' ++ rest).drop n)) =
          some (type, content, rest) := by
      split_ifs at hn with hlt
      obtain ⟨rfl, hcontent⟩ := Prod.mk.inj (Option.some.inj hn)
      obtain ⟨rfl, hnil⟩ := Prod.mk.inj hcontent
      have hlen : n = blob'.length := by
        have hle := List.drop_eq_nil_iff.mp hnil
        omega
      rw [if_neg (by rw [List.length_append]; omega), hlen, List.take_left, List.drop_left,
        List.take_length]
    rw [List.cons_append, List.cons_append]
    unfold asn1Unwrap at h ⊢
    dsimp only at h ⊢
    by_cases hshort : len &&& 0x80 = 0
    · rw [if_pos hshort] at h ⊢
      exact hinner _ _ h
    · rw [if_neg hshort] at h ⊢
      by_cases hoctets : (len &&& 0x7F).toNat = 0 ∨ (len &&& 0x7F).toNat > blob.length ∨
          (len &&& 0x7F).toNat > 8
      · rw [if_pos hoctets] at h
        cases h
      · rw [if_neg hoctets] at h
        have hle : (len &&& 0x7F).toNat ≤ blob.length := by omega
        rw [if_neg (by rw [List.length_append]; omega), List.take_append_of_le_length hle,
          List.drop_append_of_le_length hle]
        exact hinner _ _ h
  | [], h => cases h
  | [_], h => cases h

theorem IsElement.unwrapType {type : U8} {content bytes : Chunk} (h : IsElement type content bytes)
    (rest : Chunk) : asn1UnwrapType type (bytes ++ rest) = some (content, rest) := by
  rw [asn1UnwrapType, h.unwrap rest]
  exact if_pos rfl

theorem IsElement.ne_nil {type : U8} {content bytes : Chunk} (h : IsElement type content bytes) :
    bytes ≠ [] := by
  rintro rfl
  cases h

theorem IsAttribute.ne_nil {a : Attribute} {bytes : Chunk} (h : IsAttribute a bytes) : bytes ≠ [] := by
  obtain ⟨oid, value, -, -, helement⟩ := h
  exact helement.ne_nil

theorem asn1Unwrap_of_length {type : U8} {blob : Chunk}
    (h : (asn1Length (type :: blob)).1 ≠ asn1InvalidLength) : asn1Unwrap (type :: blob) =
      some (type, (asn1Length (type :: blob)).2.take (asn1Length (type :: blob)).1,
        (asn1Length (type :: blob)).2.drop (asn1Length (type :: blob)).1) := by
  cases blob with
  | nil => exact absurd rfl h
  | cons len blob =>
    unfold asn1Length at h ⊢
    unfold asn1Unwrap
    dsimp only at h ⊢
    by_cases hshort : len &&& 0x80 = 0
    · rw [if_pos hshort] at h ⊢
      by_cases hlt : len.toNat > blob.length
      · rw [if_pos hlt] at h
        exact absurd rfl h
      · rw [if_pos hshort, if_neg hlt, if_neg hlt]
    · rw [if_neg hshort] at h ⊢
      rw [if_neg hshort]
      by_cases hcount : (len &&& 0x7f).toNat = 0 ∨ (len &&& 0x7f).toNat > blob.length
      · rw [if_pos hcount] at h
        exact absurd rfl h
      · rw [if_neg hcount] at h ⊢
        by_cases hmax : (len &&& 0x7f).toNat > 8
        · rw [if_pos hmax] at h
          exact absurd rfl h
        · rw [if_neg hmax] at h ⊢
          rw [if_neg fun hbad => hbad.elim (fun h => hcount (.inl h)) fun hbad =>
            hbad.elim (fun h => hcount (.inr h)) hmax]
          by_cases hlt : Bytes.value (blob.take (len &&& 0x7f).toNat) >
              (blob.drop (len &&& 0x7f).toNat).length
          · rw [if_pos hlt] at h
            exact absurd rfl h
          · rw [if_neg hlt, if_neg hlt]

theorem isElement_simpleObject (type : U8) {content : Chunk} (h : content.length < 2 ^ 24) :
    IsElement type content (asn1SimpleObject type content) := by
  have hlength := @asn1Length_codeLength type _ _ h le_rfl
  have hvalid : (asn1Length (asn1SimpleObject type content)).1 ≠ asn1InvalidLength := by
    rw [asn1SimpleObject, hlength]
    unfold asn1InvalidLength
    dsimp only
    omega
  have hunwrap := @asn1Unwrap_of_length type (asn1CodeLength content.length ++ content) hvalid
  rw [← List.cons_append, hlength, List.take_length, List.drop_length] at hunwrap
  exact hunwrap

theorem length_lt_simpleObject (type : U8) (content : Chunk) :
    content.length < (asn1SimpleObject type content).length := by
  rw [asn1SimpleObject, List.length_append, List.length_cons]
  omega

/-- The encoding of an attribute that is built. -/
def Attribute.encode (a : Attribute) : Chunk :=
  asn1Wrap asn1Sequence [asn1SimpleObject asn1Oid a.oid, asn1SimpleObject a.type a.data]

/-- The encoding of a name that is built, with one attribute in each SET. -/
def encodeDn (as : List Attribute) : Chunk :=
  asn1Wrap asn1Sequence (as.map fun a => asn1Wrap asn1Set [a.encode])

theorem isAttribute_encode {a : Attribute} (h : a.encode.length < 2 ^ 24) :
    IsAttribute a a.encode := by
  have hcontent := length_lt_simpleObject asn1Sequence
    [asn1SimpleObject asn1Oid a.oid, asn1SimpleObject a.type a.data].flatten
  have hoid := length_lt_simpleObject asn1Oid a.oid
  have hvalue := length_lt_simpleObject a.type a.data
  have hsum : [asn1SimpleObject asn1Oid a.oid, asn1SimpleObject a.type a.data].flatten =
      asn1SimpleObject asn1Oid a.oid ++ asn1SimpleObject a.type a.data := by simp
  have hlen : a.encode.length = (asn1SimpleObject asn1Sequence
    [asn1SimpleObject asn1Oid a.oid, asn1SimpleObject a.type a.data].flatten).length := rfl
  rw [hsum] at hcontent
  rw [List.length_append] at hcontent
  rw [hlen, hsum] at h
  refine ⟨_, _, isElement_simpleObject _ (by omega), isElement_simpleObject _ (by omega), ?_⟩
  rw [← hsum]
  exact isElement_simpleObject _ (by rw [hsum, List.length_append]; omega)

/-- **A name that is built is one.** -/
theorem isDn_encodeDn {as : List Attribute}
    (h : (as.map fun a => asn1Wrap asn1Set [a.encode]).flatten.length < 2 ^ 24) :
    IsDn (as.map ([·])) (encodeDn as) := by
  refine ⟨_, ?_, isElement_simpleObject _ h⟩
  rw [List.forall₂_map_left_iff, List.forall₂_map_right_iff, List.forall₂_same]
  intro a ha
  have hset : (asn1Wrap asn1Set [a.encode]).length < 2 ^ 24 := by
    have hmem : asn1Wrap asn1Set [a.encode] ∈ as.map fun a => asn1Wrap asn1Set [a.encode] :=
      List.mem_map.mpr ⟨a, ha, rfl⟩
    exact lt_of_le_of_lt (List.sublist_flatten_of_mem hmem).length_le h
  have hattribute := (length_lt_simpleObject asn1Set [a.encode].flatten).trans hset
  have hencode : a.encode.length < 2 ^ 24 := by simpa using hattribute
  exact ⟨List.cons_ne_nil _ _, _, .cons (isAttribute_encode hencode) .nil,
    isElement_simpleObject _ hattribute⟩

/-! ## Enumerated RDNs -/

/-- The RDNs of a name: the last one ends with the name if it has data. -/
def rdnList : List Attribute → List Rdn
  | [] => []
  | a :: as => ⟨a.oid, a.type, a.data, a.data ≠ [] ∧ as = []⟩ :: rdnList as

theorem flatten_eq_nil_iff {α : Type} {P : α → Chunk → Prop} (hne : ∀ a bytes, P a bytes → bytes ≠ [])
    {as : List α} {bss : List Chunk} (h : List.Forall₂ P as bss) : bss.flatten = [] ↔ as = [] := by
  cases h with
  | nil => simp
  | cons ha _ =>
    rw [List.flatten_cons, List.append_eq_nil_iff]
    exact iff_of_false (fun h => hne _ _ ha h.1) (List.cons_ne_nil _ _)

theorem rdnEnumerate_attribute {a : Attribute} {as : List Attribute} {bytes : Chunk} {bss : List Chunk}
    (ha : IsAttribute a bytes) (has : List.Forall₂ IsAttribute as bss) (sets : Chunk) (fuel : ℕ) :
    rdnEnumerate [] (fuel + 1) sets (bytes ++ bss.flatten) =
      ⟨a.oid, a.type, a.data, a.data ≠ [] ∧ as = [] ∧ sets = []⟩ ::
        rdnEnumerate [] fuel sets bss.flatten := by
  have hnil := flatten_eq_nil_iff (fun _ _ => IsAttribute.ne_nil) has
  obtain ⟨oid, value, hoid, hvalue, hsequence⟩ := ha
  have hne : bytes ++ bss.flatten ≠ [] := fun h => hsequence.ne_nil (List.append_eq_nil_iff.mp h).1
  rw [rdnEnumerate, if_neg hne]
  dsimp only
  rw [hsequence.unwrapType]
  dsimp only
  rw [hoid.unwrapType]
  dsimp only
  rw [hvalue]
  simp [hnil]

theorem IsRdnSet.ne_nil {as : List Attribute} {bytes : Chunk} (h : IsRdnSet as bytes) :
    bytes ≠ [] := by
  obtain ⟨-, bss, -, helement⟩ := h
  exact helement.ne_nil

theorem flatten_sets {sets : List (List Attribute)} {css : List Chunk}
    (h : List.Forall₂ IsRdnSet sets css) : css.flatten = [] ↔ sets.flatten = [] := by
  rw [flatten_eq_nil_iff (fun _ _ => IsRdnSet.ne_nil) h]
  cases h with
  | nil => simp
  | cons hset _ =>
    rw [List.flatten_cons, List.append_eq_nil_iff]
    exact iff_of_false (List.cons_ne_nil _ _) fun h => hset.1 h.1

theorem rdnEnumerate_set {as : List Attribute} {bss : List Chunk} (has : List.Forall₂ IsAttribute as bss)
    (hne : as ≠ []) {bytes : Chunk} (hset : IsElement asn1Set bss.flatten bytes) (sets : Chunk)
    (fuel : ℕ) :
    rdnEnumerate [] (fuel + 1) (bytes ++ sets) [] = rdnEnumerate [] (fuel + 1) sets bss.flatten := by
  have hflatten : bss.flatten ≠ [] :=
    mt (flatten_eq_nil_iff (fun _ _ => IsAttribute.ne_nil) has).mp hne
  rw [rdnEnumerate, rdnEnumerate, if_pos rfl, if_neg hflatten, hset.unwrapType]

/-- **The RDNs of a name are enumerated in order**, across its SETs. -/
theorem rdnEnumerate_eq {as : List Attribute} {bss : List Chunk} (has : List.Forall₂ IsAttribute as bss)
    {sets : List (List Attribute)} {css : List Chunk} (hsets : List.Forall₂ IsRdnSet sets css)
    {fuel : ℕ} (hfuel : as.length + sets.flatten.length < fuel) :
    rdnEnumerate [] fuel css.flatten bss.flatten = rdnList (as ++ sets.flatten) := by
  induction fuel generalizing as bss sets css with
  | zero => cases hfuel
  | succ fuel ih =>
    have hstep {a : Attribute} {as : List Attribute} {bytes : Chunk} {bss : List Chunk}
        {sets : List (List Attribute)} {css : List Chunk} (ha : IsAttribute a bytes)
        (has : List.Forall₂ IsAttribute as bss) (hsets : List.Forall₂ IsRdnSet sets css)
        (hfuel : as.length + sets.flatten.length < fuel) :
        rdnEnumerate [] (fuel + 1) css.flatten (bytes ++ bss.flatten) =
          rdnList (a :: (as ++ sets.flatten)) := by
      rw [rdnEnumerate_attribute ha has, ih has hsets hfuel, rdnList]
      simp only [flatten_sets hsets, List.append_eq_nil_iff]
    cases has with
    | nil =>
      cases hsets with
      | nil => rfl
      | cons hset hsets =>
        obtain ⟨hne, bss, has, helement⟩ := hset
        rw [List.flatten_cons, List.flatten_nil, rdnEnumerate_set has hne helement]
        cases has with
        | nil => exact absurd rfl hne
        | cons ha has =>
          rw [List.flatten_cons, List.length_append, List.length_cons] at hfuel
          exact hstep ha has hsets (by simp only [List.length_nil] at hfuel; omega)
    | cons ha has =>
      rw [List.length_cons] at hfuel
      exact hstep ha has hsets (by omega)

theorem IsElement.length_lt {type : U8} {content bytes : Chunk} (h : IsElement type content bytes) :
    content.length < bytes.length := by
  unfold IsElement at h
  match bytes, h with
  | type' :: len :: blob, h =>
    have hinner (n : ℕ) (blob' : Chunk) (hle : blob'.length ≤ blob.length)
        (hn : (if n > blob'.length then none else some (type', blob'.take n, blob'.drop n)) =
          some (type, content, [])) : content.length < (type' :: len :: blob).length := by
      split_ifs at hn
      obtain ⟨-, hcontent⟩ := Prod.mk.inj (Option.some.inj hn)
      obtain ⟨rfl, -⟩ := Prod.mk.inj hcontent
      rw [List.length_take, List.length_cons, List.length_cons]
      omega
    unfold asn1Unwrap at h
    dsimp only at h
    by_cases hshort : len &&& 0x80 = 0
    · rw [if_pos hshort] at h
      exact hinner _ _ le_rfl h
    · rw [if_neg hshort] at h
      by_cases hoctets : (len &&& 0x7F).toNat = 0 ∨ (len &&& 0x7F).toNat > blob.length ∨
          (len &&& 0x7F).toNat > 8
      · rw [if_pos hoctets] at h
        cases h
      · rw [if_neg hoctets] at h
        exact hinner _ _ (by rw [List.length_drop]; omega) h
  | [], h => cases h
  | [_], h => cases h

theorem length_attributes {as : List Attribute} {bss : List Chunk}
    (h : List.Forall₂ IsAttribute as bss) : as.length ≤ bss.flatten.length := by
  induction h with
  | nil => exact Nat.le_refl _
  | cons ha _ ih =>
    have hpos := List.length_pos_iff.mpr ha.ne_nil
    rw [List.length_cons, List.flatten_cons, List.length_append]
    omega

theorem length_sets {sets : List (List Attribute)} {css : List Chunk}
    (h : List.Forall₂ IsRdnSet sets css) : sets.flatten.length ≤ css.flatten.length := by
  induction h with
  | nil => exact Nat.le_refl _
  | cons hset _ ih =>
    obtain ⟨-, bss, has, helement⟩ := hset
    have hle := length_attributes has
    have hlt := helement.length_lt
    rw [List.flatten_cons, List.flatten_cons, List.length_append, List.length_append]
    omega

/-- **The RDNs of a name.** -/
theorem rdns_eq {sets : List (List Attribute)} {dn : Chunk} (h : IsDn sets dn) :
    rdns dn = rdnList sets.flatten := by
  obtain ⟨css, hsets, helement⟩ := h
  have hunwrap := helement.unwrapType []
  have hfuel := (length_sets hsets).trans_lt helement.length_lt
  rw [List.append_nil] at hunwrap
  rw [rdns, hunwrap]
  exact @rdnEnumerate_eq [] [] .nil _ _ hsets _ ((Nat.zero_add _).trans_lt hfuel)

/-! ## What is compared -/

def Rdn.Passes (t o : Rdn) : Prop := t.oid = o.oid ∧ (isWildcard o.data = true ∨ t.Same o)

/-- The number of wildcards. -/
def wildcards (os : List Rdn) : ℕ := os.countP (isWildcard ·.data)

theorem wildcards_cons_pos {o : Rdn} (h : isWildcard o.data = true) (os : List Rdn) :
    wildcards (o :: os) = wildcards os + 1 := List.countP_cons_of_pos h

theorem wildcards_cons_neg {o : Rdn} (h : ¬isWildcard o.data = true) (os : List Rdn) :
    wildcards (o :: os) = wildcards os := List.countP_cons_of_neg h

/-- **A match passes all RDNs**, both names are read to their ends, and the wildcards are counted. -/
theorem matchRdns_iff {ts os : List Rdn} {finished finished' : Bool} {wc n : ℕ} :
    matchRdns ts os (finished && finished') wc = some n ↔
      List.Forall₂ Rdn.Passes ts os ∧ ended ts finished = true ∧ ended os finished' = true ∧
        n = wc + wildcards os := by
  induction ts generalizing os finished finished' wc with
  | nil =>
    cases os with
    | nil =>
      rw [matchRdns, wildcards, List.countP_nil, ended, ended, ← and_assoc (a := finished = true),
        ← Bool.and_eq_true]
      split_ifs with h
      · simp [h, eq_comm]
      · simp [h]
    | cons o os => simp [matchRdns]
  | cons t ts ih =>
    cases os with
    | nil => simp [matchRdns]
    | cons o os =>
      rw [matchRdns, List.forall₂_cons, ended, ended]
      by_cases hoid : t.oid = o.oid
      · rw [if_neg (not_not.mpr hoid)]
        by_cases hstar : isWildcard o.data = true
        · have hpasses : t.Passes o := ⟨hoid, .inl hstar⟩
          rw [if_pos hstar, ih, wildcards_cons_pos hstar, and_iff_right hpasses, Nat.add_right_comm,
            Nat.add_assoc]
        · rw [if_neg hstar, wildcards_cons_neg hstar]
          by_cases hlen : t.data.length = o.data.length
          · rw [if_neg (not_not.mpr hlen)]
            have hpasses : t.Passes o ↔ t.Same o :=
              ⟨fun h => h.2.resolve_left hstar, fun h => ⟨hoid, .inr h⟩⟩
            dsimp only
            by_cases hsame : t.Same o
            · rw [if_pos ((Rdn.same_iff hoid hlen).mpr hsame), ih, and_iff_right (hpasses.mpr hsame)]
            · rw [if_neg (mt (Rdn.same_iff hoid hlen).mp hsame)]
              exact iff_of_false (by simp) fun h => hsame (hpasses.mp h.1.1)
          · rw [if_pos hlen]
            exact iff_of_false (by simp) fun h => hlen (h.1.1.2.resolve_left hstar).length
      · rw [if_pos hoid]
        exact iff_of_false (by simp) fun h => hoid h.1.1.1

def EndsWithData (as : List Attribute) : Prop := ∃ a, as.getLast? = some a ∧ a.data ≠ []

theorem ended_rdnList (as : List Attribute) : ended (rdnList as) false = true ↔ EndsWithData as := by
  have hgo (as : List Attribute) (finished : Bool) : ended (rdnList as) finished = true ↔
      (as = [] ∧ finished = true) ∨ EndsWithData as := by
    induction as generalizing finished with
    | nil => simp [rdnList, ended, EndsWithData]
    | cons a as ih =>
      rw [rdnList, ended, ih]
      cases as with
      | nil => simp [EndsWithData]
      | cons a' as => simp [EndsWithData]
  rw [hgo]
  simp

theorem forall₂_rdnList {P : Rdn → Rdn → Prop} {Q : Attribute → Attribute → Prop}
    (h : ∀ a b l l', P ⟨a.oid, a.type, a.data, l⟩ ⟨b.oid, b.type, b.data, l'⟩ ↔ Q a b)
    (ts os : List Attribute) :
    List.Forall₂ P (rdnList ts) (rdnList os) ↔ List.Forall₂ Q ts os := by
  induction ts generalizing os with
  | nil =>
    cases os with
    | nil => exact iff_of_true .nil .nil
    | cons o os => exact iff_of_false nofun nofun
  | cons t ts ih =>
    cases os with
    | nil => exact iff_of_false nofun nofun
    | cons o os => rw [rdnList, rdnList, List.forall₂_cons, List.forall₂_cons, h, ih]

theorem wildcards_rdnList (os : List Attribute) :
    wildcards (rdnList os) = os.countP (isWildcard ·.data) := by
  induction os with
  | nil => rfl
  | cons o os ih =>
    rw [rdnList, List.countP_cons, ← ih]
    exact List.countP_cons

/-! ## Names that match -/

namespace Attribute

/-- The case of two values is ignored: of PrintableStrings, and of e-mail addresses in IA5Strings. -/
def IgnoreCase (a b : Attribute) : Prop :=
  (a.type = asn1PrintableString ∧ b.type = asn1PrintableString) ∨
    (a.type = asn1Ia5String ∧ b.type = asn1Ia5String ∧ a.oid = oidEmailAddress)

def SameValue (a b : Attribute) : Prop :=
  a.data = b.data ∨ IgnoreCase a b ∧ a.data.map tolower = b.data.map tolower

def Equals (a b : Attribute) : Prop := a.oid = b.oid ∧ SameValue a b

/-- `b` may have a wildcard. -/
def Matches (a b : Attribute) : Prop := a.oid = b.oid ∧ (b.data = [0x2a] ∨ SameValue a b)

/-- Values that are not the same, but are taken for it: strings with a NUL, up to which they are, or with
an OID that goes on behind that of e-mail addresses. -/
structure Confused (a b : Attribute) : Prop where
  oid : a.oid = b.oid
  type : a.type = b.type
  ignored : a.type = asn1PrintableString ∨ a.type = asn1Ia5String ∧ isEmailAddress a.oid = true
  length : a.data.length = b.data.length
  caseless : caseless a.data = caseless b.data
  not_same : ¬SameValue a b

end Attribute

theorem caseless_eq_of_map {s t : Chunk} (h : s.map tolower = t.map tolower) :
    caseless s = caseless t := by
  induction s generalizing t with
  | nil => rw [List.map_eq_nil_iff.mp h.symm]
  | cons c s ih =>
    cases t with
    | nil => cases h
    | cons c' t =>
      obtain ⟨hc, hs⟩ := List.cons.inj h
      have hzero : c = 0 ↔ c' = 0 := by
        rw [← tolower_eq_zero_iff, hc, tolower_eq_zero_iff]
      rw [caseless, caseless, hc, ih hs]
      simp only [hzero]

theorem same_rdn_iff (a b : Attribute) (l l' : Bool) :
    Rdn.Same ⟨a.oid, a.type, a.data, l⟩ ⟨b.oid, b.type, b.data, l'⟩ ↔
      a.Equals b ∨ a.Confused b := by
  constructor
  · intro h
    by_cases hsame : a.SameValue b
    · exact .inl ⟨h.oid, hsame⟩
    · rcases h.data with hdata | ⟨htype, hignored, hcaseless⟩
      · exact absurd (.inl hdata) hsame
      · exact .inr ⟨h.oid, htype, hignored, h.length, hcaseless, hsame⟩
  · rintro (⟨hoid, hdata | ⟨hcase, hdata⟩⟩ | h)
    · exact ⟨hoid, congrArg List.length hdata, .inl hdata⟩
    · have hlen : a.data.length = b.data.length := by simpa using congrArg List.length hdata
      refine ⟨hoid, hlen, .inr ?_⟩
      rcases hcase with ⟨ht, ho⟩ | ⟨ht, ho, hemail⟩
      · exact ⟨ht.trans ho.symm, .inl ht, caseless_eq_of_map hdata⟩
      · have hprefix : isEmailAddress a.oid = true := by
          rw [hemail]
          decide
        exact ⟨ht.trans ho.symm, .inr ⟨ht, hprefix⟩, caseless_eq_of_map hdata⟩
    · exact ⟨h.oid, h.length, .inr ⟨h.type, h.ignored, h.caseless⟩⟩

theorem passes_rdn_iff (a b : Attribute) (l l' : Bool) :
    Rdn.Passes ⟨a.oid, a.type, a.data, l⟩ ⟨b.oid, b.type, b.data, l'⟩ ↔
      a.Matches b ∨ a.Confused b := by
  rw [Rdn.Passes, same_rdn_iff, isWildcard, decide_eq_true_iff]
  constructor
  · rintro ⟨hoid, hstar | hequals | hconfused⟩
    · exact .inl ⟨hoid, .inl hstar⟩
    · exact .inl ⟨hoid, .inr hequals.2⟩
    · exact .inr hconfused
  · rintro (⟨hoid, hstar | hsame⟩ | hconfused)
    · exact ⟨hoid, .inl hstar⟩
    · exact ⟨hoid, .inr (.inl ⟨hoid, hsame⟩)⟩
    · exact ⟨hconfused.oid, .inr (.inr hconfused)⟩

theorem equals_of_matches {a b : Attribute} (hmatches : a.Matches b)
    (h : a.Equals b ∨ a.Confused b) : a.Equals b := by
  rcases h with h | h
  · exact h
  · rcases hmatches.2 with hstar | hsame
    · obtain ⟨c, hc⟩ := List.length_eq_one_iff.mp (h.length.trans (congrArg List.length hstar))
      have hcaseless := h.caseless
      rw [hstar, hc] at hcaseless
      have hlower : tolower c = tolower 0x2a := (List.cons.inj hcaseless).1
      have hbyte : ∀ c : U8, tolower c = tolower 0x2a → c = 0x2a := by decide
      exact absurd (.inl (by rw [hc, hstar, hbyte c hlower])) h.not_same
    · exact absurd hsame h.not_same

/-- **Names match RDN by RDN**, and are equal if they do so without wildcards. -/
structure MatchesRdns (t o : Chunk) (ts os : List Attribute) : Prop where
  some : List.Forall₂ Attribute.Matches ts os →
    Identification.matchesDn ⟨.derAsn1Dn, t⟩ ⟨.derAsn1Dn, o⟩ = score (os.countP (isWildcard ·.data))
  none : ¬List.Forall₂ Attribute.Matches ts os →
    Identification.matchesDn ⟨.derAsn1Dn, t⟩ ⟨.derAsn1Dn, o⟩ = idMatchNone
  equals : Identification.equals ⟨.derAsn1Dn, t⟩ ⟨.derAsn1Dn, o⟩ = true ↔
    List.Forall₂ Attribute.Equals ts os

/-- Names are plain: if they are the same, without wildcards; otherwise, with data at the end if they
match, without confused values if they match but for these, and of one length if they are equal. -/
structure Plain (t o : Chunk) (ts os : List Attribute) : Prop where
  wildcard : t = o → ∀ b ∈ os, b.data ≠ [0x2a]
  last : t ≠ o → List.Forall₂ Attribute.Matches ts os → EndsWithData ts ∧ EndsWithData os
  confused : t ≠ o → List.Forall₂ (fun a b => a.Matches b ∨ a.Confused b) ts os →
    EndsWithData ts → EndsWithData os → List.Forall₂ Attribute.Matches ts os
  length : t ≠ o → List.Forall₂ Attribute.Equals ts os → t.length = o.length

theorem IsDn.ne_nil {sets : List (List Attribute)} {dn : Chunk} (h : IsDn sets dn) : dn ≠ [] := by
  obtain ⟨css, -, helement⟩ := h
  exact helement.ne_nil

theorem rdnList_injective : Function.Injective rdnList := by
  intro as bs h
  induction as generalizing bs with
  | nil =>
    cases bs with
    | nil => rfl
    | cons b bs => cases h
  | cons a as ih =>
    cases bs with
    | nil => cases h
    | cons b bs =>
      rw [rdnList, rdnList] at h
      obtain ⟨hrdn, htail⟩ := List.cons.inj h
      obtain ⟨hoid, htype, hdata, -⟩ := Rdn.mk.inj hrdn
      obtain ⟨oid, type, data⟩ := a
      obtain ⟨oid', type', data'⟩ := b
      obtain rfl : oid = oid' := hoid
      obtain rfl : type = type' := htype
      obtain rfl : data = data' := hdata
      rw [ih htail]

section Names

variable {t o : Chunk} {tsets osets : List (List Attribute)}

theorem matchesDn_eq (t o : Chunk) :
    Identification.matchesDn ⟨.derAsn1Dn, t⟩ ⟨.derAsn1Dn, o⟩ =
      match matchDn t o with
      | some wc => score wc
      | none => idMatchNone := by
  rw [Identification.matchesDn, if_neg IdType.noConfusion, if_pos rfl]

theorem matchDn_iff (ht : IsDn tsets t) (ho : IsDn osets o) (hne : t ≠ o) {n : ℕ} :
    matchDn t o = some n ↔
      List.Forall₂ (fun a b => a.Matches b ∨ a.Confused b) tsets.flatten osets.flatten ∧
        EndsWithData tsets.flatten ∧ EndsWithData osets.flatten ∧
        n = osets.flatten.countP (isWildcard ·.data) := by
  have hchunk : ¬chunkEquals t o = true := fun h => hne (chunkEquals_iff.mp h).2
  have hmatch := @matchRdns_iff (rdnList tsets.flatten) (rdnList osets.flatten) false false 0 n
  rw [matchDn, if_neg hchunk, rdns_eq ht, rdns_eq ho]
  rw [forall₂_rdnList passes_rdn_iff, ended_rdnList, ended_rdnList, wildcards_rdnList,
    Nat.zero_add] at hmatch
  exact hmatch

theorem equals_dn_iff (ht : IsDn tsets t) (ho : IsDn osets o) (hne : t ≠ o) :
    Identification.equals ⟨.derAsn1Dn, t⟩ ⟨.derAsn1Dn, o⟩ = true ↔ t.length = o.length ∧
      List.Forall₂ (fun a b => a.Equals b ∨ a.Confused b) tsets.flatten osets.flatten ∧
        EndsWithData tsets.flatten ∧ EndsWithData osets.flatten := by
  rw [Identification.equals_dn rfl, compareDn_iff, rdns_eq ht, rdns_eq ho,
    forall₂_rdnList same_rdn_iff, ended_rdnList, ended_rdnList]
  exact or_iff_right fun h => hne h.2

theorem Attribute.Equals.matches {a b : Attribute} (h : a.Equals b) : a.Matches b := ⟨h.1, .inr h.2⟩

theorem Attribute.Equals.refl (a : Attribute) : a.Equals a := ⟨rfl, .inl rfl⟩

theorem forall₂_equals_of {ts os : List Attribute} (h : List.Forall₂ Attribute.Matches ts os)
    (h' : List.Forall₂ (fun a b => a.Equals b ∨ a.Confused b) ts os) :
    List.Forall₂ Attribute.Equals ts os := by
  induction h with
  | nil => exact .nil
  | cons hmatches _ ih =>
    cases h' with
    | cons hequals h' => exact .cons (equals_of_matches hmatches hequals) (ih h')

theorem matches_self_iff (ht : IsDn tsets t) (ho : IsDn osets t) :
    MatchesRdns t t tsets.flatten osets.flatten ↔ Plain t t tsets.flatten osets.flatten := by
  have hsame : tsets.flatten = osets.flatten := rdnList_injective ((rdns_eq ht).symm.trans (rdns_eq ho))
  rw [hsame]
  have hrefl : List.Forall₂ Attribute.Equals osets.flatten osets.flatten :=
    List.forall₂_same.mpr fun a _ => .refl a
  have hmatches := hrefl.imp fun _ _ => Attribute.Equals.matches
  have hchunk : chunkEquals t t = true := chunkEquals_iff.mpr ⟨ht.ne_nil, rfl⟩
  have hvalue : Identification.matchesDn ⟨.derAsn1Dn, t⟩ ⟨.derAsn1Dn, t⟩ = score 0 := by
    rw [matchesDn_eq, matchDn, if_pos hchunk]
  have hequals : Identification.equals ⟨.derAsn1Dn, t⟩ ⟨.derAsn1Dn, t⟩ = true := by
    rw [Identification.equals_dn rfl, compareDn_iff]
    exact .inl ⟨ht.ne_nil, rfl⟩
  have hcount : score 0 = score (osets.flatten.countP (isWildcard ·.data)) ↔
      ∀ b ∈ osets.flatten, b.data ≠ [0x2a] := by
    have hzero : score 0 = score (osets.flatten.countP (isWildcard ·.data)) ↔
        osets.flatten.countP (isWildcard ·.data) = 0 := by
      unfold score idMatchPerfect idMatchOneWildcard idMatchMaxWildcards
      omega
    rw [hzero, List.countP_eq_zero]
    simp [isWildcard]
  constructor
  · intro h
    exact ⟨fun _ => hcount.mp (hvalue.symm.trans (h.some hmatches)), fun hne => absurd rfl hne,
      fun hne => absurd rfl hne, fun hne => absurd rfl hne⟩
  · intro h
    exact ⟨fun _ => hvalue.trans (hcount.mpr (h.wildcard rfl)), fun hnot => absurd hmatches hnot,
      iff_of_true hequals hrefl⟩

/-- **Names match RDN by RDN** if and only if they are plain. A match is better than one to %any, and not
better with more wildcards. -/
theorem matches_iff (ht : IsDn tsets t) (ho : IsDn osets o) :
    (MatchesRdns t o tsets.flatten osets.flatten ↔ Plain t o tsets.flatten osets.flatten) ∧
      ∀ wc, idMatchAny < score wc ∧ ∀ wc', wc ≤ wc' → score wc' ≤ score wc := by
  refine ⟨?_, score_bounds⟩
  by_cases hsame : t = o
  · subst hsame
    exact matches_self_iff ht ho
  · have hmatch (n : ℕ) := @matchDn_iff t o tsets osets ht ho hsame n
    have hequals := equals_dn_iff ht ho hsame
    have hpositive := (score_bounds (osets.flatten.countP (isWildcard ·.data))).1
    have hvalue := matchesDn_eq t o
    constructor
    · intro h
      refine ⟨fun heq => absurd heq hsame, fun _ hmatches => ?_, fun _ hloose htdata hodata => ?_,
        fun _ hall => (hequals.mp (h.equals.mpr hall)).1⟩
      · have hscore := h.some hmatches
        rw [hvalue] at hscore
        cases hdn : matchDn t o with
        | none =>
          rw [hdn] at hscore
          rw [← hscore] at hpositive
          exact absurd hpositive (by decide)
        | some n => exact ⟨((hmatch n).mp hdn).2.1, ((hmatch n).mp hdn).2.2.1⟩
      · by_contra hnot
        have hnone := h.none hnot
        rw [hvalue, (hmatch _).mpr ⟨hloose, htdata, hodata, rfl⟩] at hnone
        dsimp only at hnone
        rw [hnone] at hpositive
        exact absurd hpositive (by decide)
    · intro h
      refine ⟨fun hmatches => ?_, fun hnot => ?_, ?_⟩
      · obtain ⟨htdata, hodata⟩ := h.last hsame hmatches
        rw [hvalue, (hmatch _).mpr ⟨hmatches.imp fun _ _ => .inl, htdata, hodata, rfl⟩]
      · rw [hvalue]
        cases hdn : matchDn t o with
        | none => rfl
        | some n =>
          obtain ⟨hloose, htdata, hodata, -⟩ := (hmatch n).mp hdn
          exact absurd (h.confused hsame hloose htdata hodata) hnot
      · rw [hequals]
        constructor
        · rintro ⟨-, hloose, htdata, hodata⟩
          exact forall₂_equals_of (h.confused hsame
            (hloose.imp fun _ _ => Or.imp_left Attribute.Equals.matches) htdata hodata) hloose
        · intro hall
          obtain ⟨htdata, hodata⟩ := h.last hsame (hall.imp fun _ _ => Attribute.Equals.matches)
          exact ⟨h.length hsame hall, hall.imp fun _ _ => .inl, htdata, hodata⟩

end Names

/-! ## Examples -/

def country (data : Chunk) : Attribute := ⟨[0x55, 0x04, 0x06], asn1PrintableString, data⟩

theorem isDn_country {data : Chunk}
    (h : ([country data].map fun a => asn1Wrap asn1Set [a.encode]).flatten.length < 2 ^ 24) :
    IsDn [[country data]] (encodeDn [country data]) :=
  isDn_encodeDn h

/-- A country matches a wildcard. -/
theorem matches_iff_country :
    (MatchesRdns (encodeDn [country [0x43, 0x48]]) (encodeDn [country [0x2a]])
        [country [0x43, 0x48]] [country [0x2a]] ↔
      Plain (encodeDn [country [0x43, 0x48]]) (encodeDn [country [0x2a]])
        [country [0x43, 0x48]] [country [0x2a]]) ∧
      ∀ wc, idMatchAny < score wc ∧ ∀ wc', wc ≤ wc' → score wc' ≤ score wc :=
  matches_iff (isDn_country (by decide)) (isDn_country (by decide))

/-- Strings that differ behind a NUL are taken for the same. -/
theorem not_matchesRdns :
    IsDn [[country [0x61, 0, 0x62]]] (encodeDn [country [0x61, 0, 0x62]]) ∧
      IsDn [[country [0x61, 0, 0x63]]] (encodeDn [country [0x61, 0, 0x63]]) ∧
      ¬MatchesRdns (encodeDn [country [0x61, 0, 0x62]]) (encodeDn [country [0x61, 0, 0x63]])
        [country [0x61, 0, 0x62]] [country [0x61, 0, 0x63]] := by
  refine ⟨isDn_country (by decide), isDn_country (by decide), fun h => ?_⟩
  have hnot : ¬List.Forall₂ Attribute.Matches [country [0x61, 0, 0x62]]
      [country [0x61, 0, 0x63]] := by
    intro hall
    cases hall with
    | cons hmatches _ =>
      rcases hmatches.2 with hstar | hdata | ⟨-, hdata⟩
      · revert hstar
        decide
      · revert hdata
        decide
      · revert hdata
        decide
  have hnone := h.none hnot
  revert hnone
  decide

end StrongSwan
