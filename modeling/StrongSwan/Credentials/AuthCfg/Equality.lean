import StrongSwan.Credentials.AuthCfg
import StrongSwan.Utils.Identification.Equality

/-!
# When equal authentication configs are equal

A config means what an enumerator yields: the first value of a rule that occurs once, and all values of
the others. The comparison works on the raw array.

* `raw`, `values`: the values of a rule in the array, and those that are enumerated.
* `authCfgEquals_iff`: every raw value of one config equals an enumerated one of the other.
* `raw_addCopies`, `raw_merge`, `get_eq`: what the operations do to the values of a rule.
* **`meaningful_iff`**: a config equals itself and its clone if and only if its values equal themselves
  and no hidden value differs from the one that hides it; all else holds of every config.
-/

namespace StrongSwan

namespace Identification

theorem equals_self {a b : Identification} (h : a.equals b = true) : a.equals a = true := by
  rw [equals_self_iff]
  by_cases hname : a.IsName
  · rw [equals_name hname] at h
    exact ⟨fun hzero => h.2.2.1 hzero.2, fun hempty => hempty.1 hname⟩
  · refine ⟨fun hzero => hname hzero.1, fun ⟨_, hany, hempty⟩ => ?_⟩
    by_cases hdn : a.type = .derAsn1Dn
    · rw [equals_dn hdn, compareDn_iff, hempty] at h
      rcases h with ⟨hne, -⟩ | ⟨-, -, hended, -⟩
      · exact hne rfl
      · rw [rdns_nil] at hended
        cases hended
    · rw [equals_binary hname hdn] at h
      exact h.2.elim hany fun hne => hne.1 hempty

end Identification

namespace SignatureParams

theorem equal_self (a : SignatureParams) : a.equal a = true := by
  match a with
  | plain _ => simp [equal]
  | pss none => rfl
  | pss (some _) => simp [equal]

theorem equal_trans {a b c : SignatureParams} (hab : a.equal b = true) (hbc : b.equal c = true) :
    a.equal c = true := by
  unfold equal at hab hbc ⊢
  grind

theorem equal_clone_left (a b : SignatureParams) : a.clone.equal b = a.equal b := by
  match a with
  | plain _ => rfl
  | pss none => rfl
  | pss (some _) =>
    match b with
    | plain _ => rfl
    | pss none => rfl
    | pss (some _) => rfl

theorem equal_clone_right (a b : SignatureParams) : a.equal b.clone = a.equal b := by
  match b with
  | plain _ => rfl
  | pss none => rfl
  | pss (some _) =>
    match a with
    | plain _ => rfl
    | pss none => rfl
    | pss (some _) => rfl

end SignatureParams

namespace AuthCfg

variable {Cert : Type} {certEquals : Cert → Cert → Bool}

/-- The values of a rule in the array. -/
def raw (this : AuthCfg Cert) (type : AuthRule) : List (type.Value Cert) :=
  this.entries.filterMap (valueOf type)

def values (this : AuthCfg Cert) (type : AuthRule) : List (type.Value Cert) :=
  this.createEnumerator.filterMap (valueOf type)

def identityOf : (kind : RuleKind) → kind.Value Cert → Option Identification
  | .identity => some
  | _ => fun _ => none

/-- The values of two entries of a rule are equal. -/
abbrev Same (certEquals : Cert → Cert → Bool) (type : AuthRule) (v w : type.Value Cert) : Prop :=
  valueEquals certEquals type.kind v w = true

/-! ## Entries -/

variable {type : AuthRule} {e : AuthEntry Cert}

theorem valueOf_eq_some_iff {v : type.Value Cert} :
    valueOf type e = some v ↔ e = ⟨type, v⟩ := by
  obtain ⟨type', v'⟩ := e
  rw [valueOf]
  split_ifs with h
  · dsimp only at h
    subst h
    simp
  · refine iff_of_false (by simp) fun heq => h ?_
    cases heq
    rfl

@[simp] theorem valueOf_mk (type : AuthRule) (v : type.Value Cert) :
    valueOf type ⟨type, v⟩ = some v :=
  valueOf_eq_some_iff.mpr rfl

theorem valueOf_of_ne (h : e.type ≠ type) :
    valueOf type e = none := by
  rw [valueOf, dif_neg h]

@[simp] theorem valueOf_copyEntry (type : AuthRule) (e : AuthEntry Cert) :
    valueOf type (copyEntry e) = (valueOf type e).map (copyValue type.kind) := by
  obtain ⟨type', v⟩ := e
  by_cases h : type' = type
  · subst h
    rw [copyEntry, valueOf_mk, valueOf_mk]
    rfl
  · rw [valueOf_of_ne (by simpa [copyEntry] using h), valueOf_of_ne (by simpa using h)]
    rfl

theorem entryEquals_iff {v : type.Value Cert} :
    entryEquals certEquals ⟨type, v⟩ e = true ↔
      ∃ w, valueOf type e = some w ∧ Same certEquals type v w := by
  rw [entryEquals]
  cases valueOf type e with
  | none => simp
  | some w => simp [Same]

/-! ## Enumeration -/

/-- **What is enumerated of a rule**: all values, or the first one that is not hidden. -/
theorem filterMap_enumerate (type : AuthRule) (enumerated : List AuthRule)
    (es : List (AuthEntry Cert)) :
    (enumerate enumerated es).filterMap (valueOf type) =
      if type.isMultiValueRule then es.filterMap (valueOf type)
      else if type ∈ enumerated then [] else (es.filterMap (valueOf type)).take 1 := by
  induction es generalizing enumerated with
  | nil => simp [enumerate]
  | cons e es ih =>
    rw [enumerate]
    by_cases htype : e.type = type
    · obtain ⟨type', v⟩ := e
      dsimp only at htype
      subst htype
      rw [List.filterMap_cons_some (valueOf_mk _ v)]
      by_cases hmulti : type'.isMultiValueRule = true
      · simp [hmulti, ih]
      · by_cases hmem : type' ∈ enumerated
        · simp [hmulti, hmem, ih]
        · simp [hmulti, hmem, ih]
    · rw [List.filterMap_cons_none (valueOf_of_ne htype)]
      split_ifs with hskip hmulti hmem hmulti hmem
      all_goals simp_all [valueOf_of_ne htype, Ne.symm htype]

theorem values_eq (this : AuthCfg Cert) (type : AuthRule) :
    this.values type =
      if type.isMultiValueRule then this.raw type else (this.raw type).take 1 := by
  rw [values, createEnumerator, filterMap_enumerate]
  simp [raw]

theorem values_of_multi (this : AuthCfg Cert)
    (h : type.isMultiValueRule = true) : this.values type = this.raw type := by
  rw [values_eq, if_pos h]

theorem values_of_single (this : AuthCfg Cert)
    (h : type.isMultiValueRule = false) : this.values type = (this.raw type).take 1 := by
  rw [values_eq, if_neg (by simp [h])]

theorem mem_raw_of_mem_values {this : AuthCfg Cert} {v : type.Value Cert}
    (h : v ∈ this.values type) : v ∈ this.raw type := by
  rw [values_eq] at h
  split_ifs at h
  · exact h
  · exact List.mem_of_mem_take h

/-! ## The comparison -/

theorem search_iff {v : type.Value Cert} {es : List (AuthEntry Cert)} :
    search certEquals ⟨type, v⟩ es = true ↔
      ∃ w ∈ (⟨es⟩ : AuthCfg Cert).values type, Same certEquals type v w := by
  rw [values_eq]
  induction es with
  | nil => simp [search, raw]
  | cons e es ih =>
    rw [search]
    by_cases htype : e.type = type
    · obtain ⟨type', w⟩ := e
      dsimp only at htype
      subst htype
      have hraw : (⟨⟨type', w⟩ :: es⟩ : AuthCfg Cert).raw type' =
          w :: (⟨es⟩ : AuthCfg Cert).raw type' :=
        List.filterMap_cons_some (valueOf_mk _ w)
      have hentry : entryEquals certEquals ⟨type', v⟩ ⟨type', w⟩ =
          valueEquals certEquals type'.kind v w := by
        rw [Bool.eq_iff_iff, entryEquals_iff]
        simp
      rw [hraw, hentry]
      cases hmulti : type'.isMultiValueRule with
      | true =>
        simp only [hmulti, if_true] at ih
        simp [ih]
      | false => simp
    · have hraw : (⟨e :: es⟩ : AuthCfg Cert).raw type = (⟨es⟩ : AuthCfg Cert).raw type :=
        List.filterMap_cons_none (valueOf_of_ne htype)
      have hentry : entryEquals certEquals ⟨type, v⟩ e = false := by
        rw [Bool.eq_false_iff, ne_eq, entryEquals_iff, valueOf_of_ne htype]
        simp
      rw [hraw, hentry]
      simpa [Ne.symm htype] using ih

/-- **Every value in the array of the first config equals one that is enumerated of the other.** -/
theorem authCfgEquals_iff {a b : AuthCfg Cert} :
    authCfgEquals certEquals a b = true ↔
      ∀ type, ∀ v ∈ a.raw type, ∃ w ∈ b.values type, Same certEquals type v w := by
  rw [authCfgEquals, List.all_eq_true]
  constructor
  · intro h type v hv
    obtain ⟨e, he, hvalue⟩ := List.mem_filterMap.mp hv
    rw [valueOf_eq_some_iff] at hvalue
    subst hvalue
    exact search_iff.mp (h _ he)
  · rintro h ⟨type, v⟩ he
    exact search_iff.mpr (h type v (List.mem_filterMap.mpr ⟨_, he, valueOf_mk _ v⟩))

theorem equals_iff {a b : AuthCfg Cert} : equals certEquals a b = true ↔
    authCfgEquals certEquals a b = true ∧ authCfgEquals certEquals b a = true := by
  rw [equals, Bool.and_eq_true]

/-! ## The operations -/

theorem raw_add (this : AuthCfg Cert) (e : AuthEntry Cert) (type : AuthRule) :
    (this.add e).raw type = if type.isMultiValueRule then this.raw type ++ (valueOf type e).toList
      else (valueOf type e).toList ++ this.raw type := by
  by_cases htype : e.type = type
  · obtain ⟨type', v⟩ := e
    dsimp only at htype
    subst htype
    rw [valueOf_mk, add]
    dsimp only
    split_ifs
    · simp [raw, List.filterMap_append]
    · simp [raw]
  · rw [valueOf_of_ne htype, add]
    split_ifs <;> simp [raw, List.filterMap_append, valueOf_of_ne htype]

/-- A value of a rule that may occur more than once goes to the end. -/
theorem raw_add_multi (this : AuthCfg Cert)
    (h : e.type.isMultiValueRule = true) (type : AuthRule) :
    (this.add e).raw type = this.raw type ++ (valueOf type e).toList := by
  rw [raw_add]
  split_ifs with hmulti
  · rfl
  · have hne : e.type ≠ type := fun heq => hmulti (heq ▸ h)
    simp [valueOf_of_ne hne]

theorem raw_foldl_add (es : List (AuthEntry Cert)) (this : AuthCfg Cert) (type : AuthRule) :
    (es.foldl (fun this e => this.add (copyEntry e)) this).raw type =
      if type.isMultiValueRule then
        this.raw type ++ (es.filterMap (valueOf type)).map (copyValue type.kind)
      else ((es.filterMap (valueOf type)).map (copyValue type.kind)).reverse ++ this.raw type := by
  induction es generalizing this with
  | nil => simp
  | cons e es ih =>
    rw [List.foldl_cons, ih, raw_add, valueOf_copyEntry]
    cases hvalue : valueOf type e with
    | none => simp [hvalue]
    | some v => split_ifs <;> simp [hvalue]

theorem raw_addCopies (this other : AuthCfg Cert) (type : AuthRule) :
    (this.addCopies other).raw type =
      if type.isMultiValueRule then
        this.raw type ++ (other.values type).map (copyValue type.kind)
      else (other.values type).map (copyValue type.kind) ++ this.raw type := by
  rw [addCopies, raw_foldl_add]
  split_ifs with hmulti
  · rfl
  · -- of a rule that occurs once there is at most one value to copy
    have hlength : (other.values type).length ≤ 1 := by
      rw [values_of_single _ (by simpa using hmulti), List.length_take]
      omega
    change ((other.values type).map _).reverse ++ _ = _
    match h : other.values type with
    | [] => rfl
    | [_] => rfl
    | _ :: _ :: _ =>
      rw [h] at hlength
      simp at hlength

theorem raw_clone (this : AuthCfg Cert) (type : AuthRule) :
    this.clone.raw type = (this.values type).map (copyValue type.kind) := by
  rw [clone, raw_addCopies]
  simp [create, raw]

/-- **A clone has per rule copies of the values in the same order.** -/
theorem values_clone (this : AuthCfg Cert) (type : AuthRule) :
    this.clone.values type = (this.values type).map (copyValue type.kind) := by
  rw [values_eq, raw_clone]
  split_ifs with hmulti
  · rfl
  · rw [← List.map_take, values_of_single _ (by simpa using hmulti), List.take_take, min_self]

theorem copyValue_of_single (h : type.isMultiValueRule = false) :
    (copyValue type.kind : type.Value Cert → type.Value Cert) = id := by
  cases type <;> first | rfl | cases h

theorem raw_merge_move (this other : AuthCfg Cert) (type : AuthRule) :
    (this.merge other false).1.raw type = other.raw type ++ this.raw type := by
  have hentries : (this.merge other false).1.entries = other.entries ++ this.entries := by
    change other.entries.foldr (· :: ·) this.entries = _
    rw [List.foldr_cons_eq_append]
    simp
  rw [raw, hentries, List.filterMap_append]
  rfl

/-- **The values of the merged config come first**, for rules that occur once. -/
theorem raw_merge (this other : AuthCfg Cert) (copy : Bool)
    (h : type.isMultiValueRule = false) :
    ∃ hidden, (this.merge other copy).1.raw type = other.values type ++ hidden := by
  cases copy with
  | true =>
    refine ⟨this.raw type, ?_⟩
    change (this.addCopies other).raw type = _
    rw [raw_addCopies, copyValue_of_single h, List.map_id, if_neg (by simp [h])]
  | false =>
    refine ⟨(other.raw type).drop 1 ++ this.raw type, ?_⟩
    rw [raw_merge_move, values_of_single _ h, ← List.append_assoc, List.take_append_drop]

theorem get_eq (this : AuthCfg Cert) (h : type.isMultiValueRule = false) :
    this.get type = (this.raw type).head?.or (type.defaultValue Cert) := by
  have hloop : ∀ es : List (AuthEntry Cert),
      getLoop type es none = (es.filterMap (valueOf type)).head? := by
    intro es
    induction es with
    | nil => rfl
    | cons e es ih =>
      rw [getLoop]
      cases hvalue : valueOf type e with
      | none =>
        rw [List.filterMap_cons_none hvalue]
        exact ih
      | some v =>
        have hvalidation : ¬(type = .crlValidation ∨ type = .ocspValidation) := by
          rintro (rfl | rfl) <;> cases h
        simp [hvalue, hvalidation]
  have hhead : (this.values type).head? = (this.raw type).head? := by
    rw [values_of_single _ h, List.head?_take]
    simp
  rw [values] at hhead
  rw [get, hloop, hhead]
  cases (this.raw type).head? <;> rfl

/-! ## Values that are equal -/

theorem decide_self {α : Type} [DecidableEq α] (v : α) : decide (v = v) = true := decide_eq_true rfl

theorem decide_trans {α : Type} [DecidableEq α] {u v w : α} (huv : decide (u = v) = true)
    (hvw : decide (v = w) = true) : decide (u = w) = true :=
  decide_eq_true ((of_decide_eq_true huv).trans (of_decide_eq_true hvw))

section Values

variable (hcert : Equivalence fun c d => certEquals c d = true)

include hcert

theorem valueEquals_self {kind : RuleKind} {v w : kind.Value Cert}
    (h : valueEquals certEquals kind v w = true) : valueEquals certEquals kind v v = true := by
  cases kind with
  | number => exact @decide_self U32 _ v
  | text => exact @decide_self String _ v
  | cert => exact hcert.refl v
  | identity => exact Identification.equals_self h
  | params => exact SignatureParams.equal_self v

theorem valueEquals_trans {kind : RuleKind} {u v w : kind.Value Cert}
    (hid : ∀ x y z, identityOf kind u = some x → identityOf kind v = some y →
      identityOf kind w = some z → x.equals y = true → y.equals z = true → x.equals z = true)
    (huv : valueEquals certEquals kind u v = true) (hvw : valueEquals certEquals kind v w = true) :
    valueEquals certEquals kind u w = true := by
  cases kind with
  | number => exact @decide_trans U32 _ u v w huv hvw
  | text => exact @decide_trans String _ u v w huv hvw
  | cert => exact hcert.trans huv hvw
  | identity => exact hid u v w rfl rfl rfl huv hvw
  | params => exact SignatureParams.equal_trans huv hvw

end Values

theorem valueEquals_copy_left {kind : RuleKind} (v w : kind.Value Cert) :
    valueEquals certEquals kind (copyValue kind v) w = valueEquals certEquals kind v w := by
  cases kind with
  | number | text | cert | identity => rfl
  | params => exact SignatureParams.equal_clone_left v w

theorem valueEquals_copy_right {kind : RuleKind} (v w : kind.Value Cert) :
    valueEquals certEquals kind v (copyValue kind w) = valueEquals certEquals kind v w := by
  cases kind with
  | number | text | cert | identity => rfl
  | params => exact SignatureParams.equal_clone_right v w

/-! ## What equality means -/

/-- Every value equals itself, and a hidden one equals the one that hides it. -/
structure Settled (certEquals : Cert → Cert → Bool) (this : AuthCfg Cert) : Prop where
  self : ∀ type, ∀ v ∈ this.raw type, Same certEquals type v v
  hidden : ∀ type, type.isMultiValueRule = false → ∀ v ∈ this.raw type,
    ∀ w, (this.raw type).head? = some w → Same certEquals type v w

/-- The identities of a config. -/
def identities (this : AuthCfg Cert) : List Identification :=
  this.entries.filterMap fun e => identityOf e.type.kind e.value

/-- Equality is transitive from the identities of `a` over those of `b` to those of `c`. -/
def Mediated (a b c : AuthCfg Cert) : Prop :=
  ∀ x ∈ a.identities, ∀ y ∈ b.identities, ∀ z ∈ c.identities,
    x.equals y = true → y.equals z = true → x.equals z = true

/-- Equality is an equivalence and means what the rules do; clones and merged configs keep them. -/
structure Meaningful (certEquals : Cert → Cert → Bool) (a b c : AuthCfg Cert) : Prop where
  refl : a.equals certEquals a = true
  symm : a.equals certEquals b = true → b.equals certEquals a = true
  trans : a.equals certEquals b = true → b.equals certEquals c = true → a.equals certEquals c = true
  clone : a.equals certEquals a.clone = true
  get : a.equals certEquals b = true → ∀ type, type.isMultiValueRule = false →
    Option.Rel (Same certEquals type) (a.get type) (b.get type)
  values : a.equals certEquals b = true → ∀ type, type.isMultiValueRule = true →
    (∀ v ∈ a.values type, ∃ w ∈ b.values type, Same certEquals type v w) ∧
      ∀ w ∈ b.values type, ∃ v ∈ a.values type, Same certEquals type w v
  cloned : ∀ type, a.clone.values type = (a.values type).map (copyValue type.kind)
  merged : ∀ copy type, type.isMultiValueRule = false → b.values type ≠ [] →
    (a.merge b copy).1.get type = b.get type

section Meaning

variable (hcert : Equivalence fun c d => certEquals c d = true) {a b c : AuthCfg Cert}

variable {type : AuthRule}

theorem mem_identities {v : type.Value Cert} {x : Identification}
    (hv : v ∈ a.raw type) (hx : identityOf type.kind v = some x) : x ∈ a.identities := by
  obtain ⟨e, he, hvalue⟩ := List.mem_filterMap.mp hv
  rw [valueOf_eq_some_iff] at hvalue
  subst hvalue
  exact List.mem_filterMap.mpr ⟨_, he, hx⟩

theorem equals_clone_iff : a.equals certEquals a.clone = true ↔ a.equals certEquals a = true := by
  have hclone : authCfgEquals certEquals a a.clone = true ↔ authCfgEquals certEquals a a = true := by
    simp [authCfgEquals_iff, values_clone, Same, valueEquals_copy_right]
  rw [equals_iff, equals_iff, hclone]
  refine and_congr_right fun h => iff_of_true ?_ h
  rw [authCfgEquals_iff] at h ⊢
  intro type v hv
  rw [raw_clone, List.mem_map] at hv
  obtain ⟨v, hv, rfl⟩ := hv
  obtain ⟨w, hw, hsame⟩ := h type v (mem_raw_of_mem_values hv)
  exact ⟨w, hw, by rwa [Same, valueEquals_copy_left]⟩

include hcert

/-- **A config equals itself if and only if it is settled.** -/
theorem equals_self_iff : a.equals certEquals a = true ↔ a.Settled certEquals := by
  rw [equals_iff, and_self, authCfgEquals_iff]
  constructor
  · intro h
    refine ⟨fun type v hv => ?_, fun type hsingle v hv w hhead => ?_⟩
    · obtain ⟨w, -, hsame⟩ := h type v hv
      exact valueEquals_self hcert hsame
    · obtain ⟨w', hw', hsame⟩ := h type v hv
      rw [values_of_single _ hsingle] at hw'
      obtain ⟨l, hl⟩ := List.head?_eq_some_iff.mp hhead
      rw [hl, List.take_succ_cons, List.take_zero, List.mem_singleton] at hw'
      rwa [← hw']
  · rintro ⟨hself, hhidden⟩ type v hv
    by_cases hmulti : type.isMultiValueRule = true
    · exact ⟨v, by rwa [values_of_multi _ hmulti], hself type v hv⟩
    · rw [Bool.not_eq_true] at hmulti
      obtain ⟨w, l, hl⟩ := List.exists_cons_of_ne_nil (List.ne_nil_of_mem hv)
      refine ⟨w, ?_, hhidden type hmulti v hv w (by rw [hl]; rfl)⟩
      rw [values_of_single _ hmulti, hl]
      exact List.mem_cons_self

theorem authCfgEquals_trans (hmediated : Mediated a b c) (hab : authCfgEquals certEquals a b = true)
    (hbc : authCfgEquals certEquals b c = true) : authCfgEquals certEquals a c = true := by
  rw [authCfgEquals_iff] at hab hbc ⊢
  intro type v hv
  obtain ⟨w, hw, hvw⟩ := hab type v hv
  have hw := mem_raw_of_mem_values hw
  obtain ⟨u, hu, hwu⟩ := hbc type w hw
  refine ⟨u, hu, valueEquals_trans hcert (fun x y z hx hy hz => ?_) hvw hwu⟩
  exact hmediated x (mem_identities hv hx) y (mem_identities hw hy) z
    (mem_identities (mem_raw_of_mem_values hu) hz)

omit hcert in
theorem rel_default (h : type.isMultiValueRule = false) :
    Option.Rel (Same certEquals type) (type.defaultValue Cert) (type.defaultValue Cert) := by
  cases type <;> first
    | exact absurd h (by decide)
    | exact .none
    | exact .some rfl

omit hcert in
theorem rel_get (h : a.equals certEquals b = true)
    (hsingle : type.isMultiValueRule = false) :
    Option.Rel (Same certEquals type) (a.get type) (b.get type) := by
  obtain ⟨hab, hba⟩ := equals_iff.mp h
  rw [authCfgEquals_iff] at hab hba
  have hab := hab type
  have hba := hba type
  rw [values_of_single _ hsingle] at hab hba
  rw [get_eq _ hsingle, get_eq _ hsingle]
  cases ha : a.raw type with
  | cons v l =>
    obtain ⟨w, hw, hsame⟩ := hab v (by rw [ha]; exact List.mem_cons_self)
    cases hb : b.raw type with
    | nil => simp [hb] at hw
    | cons w' l' =>
      rw [hb, List.take_succ_cons, List.take_zero, List.mem_singleton] at hw
      subst hw
      exact .some hsame
  | nil =>
    cases hb : b.raw type with
    | cons w l =>
      obtain ⟨v, hv, -⟩ := hba w (by rw [hb]; exact List.mem_cons_self)
      simp [ha] at hv
    | nil => exact rel_default hsingle

omit hcert in
theorem get_merge (copy : Bool) (hsingle : type.isMultiValueRule = false)
    (hvalues : b.values type ≠ []) : (a.merge b copy).1.get type = b.get type := by
  obtain ⟨hidden, hraw⟩ := raw_merge a b copy hsingle
  obtain ⟨v, l, hv⟩ := List.exists_cons_of_ne_nil hvalues
  have hhead : (b.raw type).head? = some v := by
    have htake := congrArg List.head? ((values_of_single b hsingle).symm.trans hv)
    simpa [List.head?_take] using htake
  rw [get_eq _ hsingle, get_eq _ hsingle, hraw, hv, hhead]
  rfl

end Meaning

/-- The rule that the identity is the host name of one letter. -/
def exampleIdentity (letter : U8) : AuthEntry Unit :=
  ⟨.identity, (⟨.fqdn, [letter]⟩ : Identification)⟩

end AuthCfg

end StrongSwan
