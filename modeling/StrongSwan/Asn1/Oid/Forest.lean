import StrongSwan.Asn1.Oid

/-!
# Object identifiers as a forest

The table of known OIDs as the depth-first listing of a forest of octets, and which OIDs are found
in it.

* `OidForest`, `entries`: a forest and its listing; `IsEntry`: an entry with its path.
* `knownOidFrom_entries`: `asn1_known_oid` walks down the forest, `find_iff`: what it finds.
* `buildOid_of_isEntry`: `asn1_build_known_oid` collects the path of an entry.
* **`exact_iff`**: an OID is recognised exactly, unless it goes on behind an entry without children.
-/

namespace StrongSwan

/-- Siblings, each with an octet and its children -/
inductive OidForest
  | nil
  | node (octet : U8) (children siblings : OidForest)
  deriving DecidableEq, Repr

namespace OidForest

/-- The number of entries -/
def size : OidForest → ℕ
  | nil => 0
  | node _ children siblings => 1 + children.size + siblings.size

/-- The listing from an index on, depth-first: children follow at once, and `next` is the index of
the next sibling. -/
def entries : OidForest → ℕ → ℕ → List OidName
  | nil, _, _ => []
  | node octet children siblings, start, level =>
    ⟨octet, if siblings = nil then 0 else start + 1 + children.size, children ≠ nil, level⟩ ::
      (children.entries (start + 1) (level + 1) ++
        siblings.entries (start + 1 + children.size) level)

def names (forest : OidForest) : List OidName := forest.entries 0 0

def octets : OidForest → List U8
  | nil => []
  | node octet _ siblings => octet :: siblings.octets

def Distinct : OidForest → Prop
  | nil => True
  | node octet children siblings =>
    octet ∉ siblings.octets ∧ children.Distinct ∧ siblings.Distinct

/-- `n` is the index of the entry with the octets `path`, which may be a leaf, if the listing begins
at `start`. -/
inductive IsEntry : OidForest → ℕ → ℕ → Chunk → Prop → Prop
  | here (octet : U8) (children siblings : OidForest) (start : ℕ) :
      IsEntry (node octet children siblings) start start [octet] (children = nil)
  | child (octet : U8) {children : OidForest} (siblings : OidForest) {start n : ℕ} {path : Chunk}
      {leaf : Prop} (h : IsEntry children (start + 1) n path leaf) :
      IsEntry (node octet children siblings) start n (octet :: path) leaf
  | sibling (octet : U8) (children : OidForest) {siblings : OidForest} {start n : ℕ} {path : Chunk}
      {leaf : Prop} (h : IsEntry siblings (start + 1 + children.size) n path leaf) :
      IsEntry (node octet children siblings) start n path leaf

/-- What the walk of `asn1_known_oid` finds -/
def find : OidForest → ℕ → Chunk → Option ℕ
  | nil, _, _ => none
  | _, _, [] => none
  | node octet children siblings, start, first :: object =>
    if octet = first then
      if object = [] ∨ children = nil then some start else children.find (start + 1) object
    else siblings.find (start + 1 + children.size) (first :: object)

/-! ## Parts of the table -/

variable {names : List OidName} {forest : OidForest} {start level n : ℕ} {path object : Chunk}
  {leaf : Prop}

theorem length_entries (forest : OidForest) (start level : ℕ) :
    (forest.entries start level).length = forest.size := by
  induction forest generalizing start level with
  | nil => rfl
  | node octet children siblings ihchildren ihsiblings =>
    rw [entries, List.length_cons, List.length_append, ihchildren, ihsiblings, size]
    omega

/-- The listing of a forest is in a table from an index on. -/
def ListedAt (forest : OidForest) (names : List OidName) (start level : ℕ) : Prop :=
  ∃ before behind, names = before ++ (forest.entries start level ++ behind) ∧ before.length = start

theorem listedAt_names (forest : OidForest) : forest.ListedAt forest.names 0 0 :=
  ⟨[], [], by simp [OidForest.names], rfl⟩

section Listed

variable {octet : U8} {children siblings : OidForest}

theorem ListedAt.getElem? (h : (node octet children siblings).ListedAt names start level) :
    names[start]? = some ⟨octet, if siblings = nil then 0 else start + 1 + children.size,
      children ≠ nil, level⟩ := by
  obtain ⟨before, behind, rfl, rfl⟩ := h
  simp [entries]

theorem ListedAt.down (h : (node octet children siblings).ListedAt names start level) :
    children.ListedAt names (start + 1) (level + 1) := by
  obtain ⟨before, behind, rfl, rfl⟩ := h
  refine ⟨before ++ [⟨octet, if siblings = nil then 0 else before.length + 1 + children.size,
    children ≠ nil, level⟩], siblings.entries (before.length + 1 + children.size) level ++ behind,
    ?_, by simp⟩
  simp [entries]

theorem ListedAt.next (h : (node octet children siblings).ListedAt names start level) :
    siblings.ListedAt names (start + 1 + children.size) level := by
  obtain ⟨before, behind, rfl, rfl⟩ := h
  refine ⟨before ++ ⟨octet, if siblings = nil then 0 else before.length + 1 + children.size,
    children ≠ nil, level⟩ :: children.entries (before.length + 1) (level + 1), behind, ?_, ?_⟩
  · simp [entries]
  · rw [List.length_append, List.length_cons, length_entries]
    omega

end Listed

theorem ListedAt.le_level (h : forest.ListedAt names start level) {i : ℕ} (hle : start ≤ i)
    (hlt : i < start + forest.size) : ∃ name, names[i]? = some name ∧ level ≤ name.level := by
  induction forest generalizing start level with
  | nil =>
    rw [size] at hlt
    omega
  | node octet children siblings ihchildren ihsiblings =>
    rw [size] at hlt
    obtain rfl | hgt := eq_or_lt_of_le hle
    · exact ⟨_, h.getElem?, le_rfl⟩
    by_cases hmid : i < start + 1 + children.size
    · obtain ⟨name, hname, hlevel⟩ := ihchildren h.down hgt hmid
      exact ⟨name, hname, (Nat.le_succ _).trans hlevel⟩
    · exact ihsiblings h.next (not_lt.1 hmid) (by omega)

/-! ## Walking down -/

/-- **The walk of `asn1_known_oid`** through a listing -/
theorem knownOidFrom_entries (h : forest.ListedAt names start level) (hne : forest ≠ nil) {fuel : ℕ}
    (hfuel : forest.size ≤ fuel) (object : Chunk) :
    knownOidFrom names fuel start object = forest.find start object := by
  induction forest generalizing start level fuel object with
  | nil => exact absurd rfl hne
  | node octet children siblings ihchildren ihsiblings =>
    cases object with
    | nil => rw [knownOidFrom, find]; simp
    | cons first object =>
      rw [size] at hfuel
      obtain ⟨fuel, rfl⟩ := Nat.exists_eq_add_of_le' (show 1 ≤ fuel by omega)
      rw [knownOidFrom, find, h.getElem?]
      dsimp only
      by_cases hoctet : octet = first
      · rw [if_pos hoctet, if_pos hoctet]
        by_cases hchildren : children = nil
        · simp [hchildren]
        · rw [ihchildren h.down hchildren (by omega)]
          simp [hchildren]
      · rw [if_neg hoctet, if_neg hoctet]
        by_cases hsiblings : siblings = nil
        · subst hsiblings
          simp [find]
        · rw [if_neg hsiblings, if_pos (by omega), ihsiblings h.next hsiblings (by omega)]

theorem IsEntry.exists_cons (h : IsEntry forest start n path leaf) :
    ∃ octet path', path = octet :: path' ∧ octet ∈ forest.octets := by
  induction h with
  | here octet children siblings start => exact ⟨octet, [], rfl, List.mem_cons_self⟩
  | @child octet children siblings start n path leaf h ih =>
    exact ⟨octet, path, rfl, List.mem_cons_self⟩
  | sibling octet children h ih =>
    obtain ⟨octet', path', hpath, hmem⟩ := ih
    exact ⟨octet', path', hpath, List.mem_cons_of_mem _ hmem⟩

/-- An OID stands for an entry: it has its path, or goes on behind a leaf. -/
def Stands (leaf : Prop) (path object : Chunk) : Prop := path = object ∨ leaf ∧ path <+: object

theorem stands_cons {octet first : U8} :
    Stands leaf (octet :: path) (first :: object) ↔ octet = first ∧ Stands leaf path object := by
  rw [Stands, Stands, List.cons.injEq, List.cons_prefix_cons]
  tauto

theorem Stands.ne_nil (h : Stands leaf path object) (hpath : path ≠ []) : object ≠ [] := by
  rintro rfl
  rcases h with h | ⟨-, h⟩
  · exact hpath h
  · exact hpath (List.prefix_nil.1 h)

/-- **What is found** is the entry of an OID, or a leaf of which the OID is an extension. -/
theorem find_iff (hdistinct : forest.Distinct) (hobject : object ≠ []) :
    forest.find start object = some n ↔
      ∃ path leaf, IsEntry forest start n path leaf ∧ Stands leaf path object := by
  induction forest generalizing start object with
  | nil =>
    refine ⟨fun h => by simp [find] at h, ?_⟩
    rintro ⟨path, leaf, hentry, -⟩
    cases hentry
  | node octet children siblings ihchildren ihsiblings =>
    obtain ⟨hnot, hchildren, hsiblings⟩ := hdistinct
    obtain ⟨first, object, rfl⟩ := List.exists_cons_of_ne_nil hobject
    -- entries of siblings do not begin with the octet
    have hsibling : ∀ path leaf, IsEntry siblings (start + 1 + children.size) n path leaf →
        Stands leaf path (first :: object) → octet ≠ first := by
      rintro path leaf hentry hstands rfl
      obtain ⟨octet', path', rfl, hmem⟩ := hentry.exists_cons
      obtain ⟨rfl, -⟩ := stands_cons.1 hstands
      exact hnot hmem
    rw [find]
    by_cases hoctet : octet = first
    · subst hoctet
      rw [if_pos rfl]
      by_cases hend : object = [] ∨ children = nil
      · rw [if_pos hend]
        constructor
        · rintro ⟨⟩
          refine ⟨[octet], _, .here octet children siblings _, stands_cons.2 ⟨rfl, ?_⟩⟩
          rcases hend with rfl | hend
          · exact .inl rfl
          · exact .inr ⟨hend, List.nil_prefix⟩
        · rintro ⟨path, leaf, hentry, hstands⟩
          cases hentry with
          | here => rfl
          | @child _ _ _ _ _ path _ hchild =>
            obtain ⟨octet', path', rfl, -⟩ := hchild.exists_cons
            have hne := (stands_cons.1 hstands).2.ne_nil (List.cons_ne_nil _ _)
            obtain rfl := hend.resolve_left hne
            cases hchild
          | sibling _ _ hentry => exact absurd rfl (hsibling path leaf hentry hstands)
      · rw [if_neg hend, ihchildren hchildren (not_or.1 hend).1]
        constructor
        · rintro ⟨path, leaf, hentry, hstands⟩
          exact ⟨_, leaf, .child octet siblings hentry, stands_cons.2 ⟨rfl, hstands⟩⟩
        · rintro ⟨path, leaf, hentry, hstands⟩
          cases hentry with
          | here =>
            rcases (stands_cons.1 hstands).2 with rfl | ⟨hleaf, -⟩
            · exact absurd (.inl rfl) hend
            · exact absurd (.inr hleaf) hend
          | child _ _ hentry => exact ⟨_, leaf, hentry, (stands_cons.1 hstands).2⟩
          | sibling _ _ hentry => exact absurd rfl (hsibling path leaf hentry hstands)
    · rw [if_neg hoctet, ihsiblings hsiblings hobject]
      constructor
      · rintro ⟨path, leaf, hentry, hstands⟩
        exact ⟨path, leaf, .sibling octet children hentry, hstands⟩
      · rintro ⟨path, leaf, hentry, hstands⟩
        cases hentry with
        | here => exact absurd (stands_cons.1 hstands).1 hoctet
        | child _ _ _ => exact absurd (stands_cons.1 hstands).1 hoctet
        | sibling _ _ hentry => exact ⟨path, leaf, hentry, hstands⟩

/-! ## Collecting a path -/

theorem buildOidFrom_skip {i k : ℕ} {oid : Chunk}
    (h : ∀ m, n ≤ m → m < n + k → ∃ name, names[m]? = some name ∧ i ≤ name.level) :
    buildOidFrom names (n + k) i oid = buildOidFrom names n i oid := by
  induction k with
  | zero => rfl
  | succ k ih =>
    rw [← ih fun m hle hlt => h m hle (Nat.lt_succ_of_lt hlt), ← Nat.add_assoc]
    obtain ⟨name, hname, hlevel⟩ := h (n + k) (Nat.le_add_right _ _) (Nat.lt_succ_self _)
    cases i with
    | zero => rw [buildOidFrom, buildOidFrom]
    | succ i =>
      rw [buildOidFrom, hname]
      exact if_pos hlevel

theorem buildOidFrom_octet {name : OidName} {oid : Chunk} (h : names[n]? = some name) :
    buildOidFrom names (n + 1) (name.level + 1) oid =
      buildOidFrom names n name.level (name.octet :: oid) := by
  rw [buildOidFrom, h]
  exact if_neg (Nat.not_succ_le_self _)

/-- **The path of an entry** is collected from behind. -/
theorem IsEntry.buildOidFrom (h : IsEntry forest start n path leaf)
    (hlisted : forest.ListedAt names start level) (oid : Chunk) :
    StrongSwan.buildOidFrom names (n + 1) (level + path.length) oid =
      StrongSwan.buildOidFrom names start level (path ++ oid) := by
  induction h generalizing level oid with
  | here octet children siblings start => exact buildOidFrom_octet hlisted.getElem?
  | @child octet children siblings start n path leaf h ih =>
    rw [List.length_cons, ← Nat.add_assoc, Nat.add_right_comm, ih hlisted.down]
    exact buildOidFrom_octet hlisted.getElem?
  | @sibling octet children siblings start n path leaf h ih =>
    rw [ih hlisted.next, Nat.add_assoc]
    refine buildOidFrom_skip fun m hle hlt => hlisted.le_level hle ?_
    rw [size]
    omega

theorem IsEntry.getElem? (h : IsEntry forest start n path leaf)
    (hlisted : forest.ListedAt names start level) :
    ∃ name, names[n]? = some name ∧ name.level + 1 = level + path.length ∧
      (name.down = false ↔ leaf) := by
  induction h generalizing level with
  | here octet children siblings start =>
    exact ⟨_, hlisted.getElem?, rfl, by simp⟩
  | @child octet children siblings start n path leaf h ih =>
    obtain ⟨name, hname, hlevel, hleaf⟩ := ih hlisted.down
    refine ⟨name, hname, ?_, hleaf⟩
    rw [hlevel, List.length_cons]
    omega
  | sibling octet children h ih => exact ih hlisted.next

theorem exists_isEntry (hle : start ≤ n) (hlt : n < start + forest.size) :
    ∃ path leaf, IsEntry forest start n path leaf := by
  induction forest generalizing start with
  | nil =>
    rw [size] at hlt
    omega
  | node octet children siblings ihchildren ihsiblings =>
    rw [size] at hlt
    obtain rfl | hgt := eq_or_lt_of_le hle
    · exact ⟨_, _, .here octet children siblings _⟩
    by_cases hmid : n < start + 1 + children.size
    · obtain ⟨path, leaf, hentry⟩ := ihchildren hgt hmid
      exact ⟨_, leaf, .child octet siblings hentry⟩
    · obtain ⟨path, leaf, hentry⟩ := ihsiblings (not_lt.1 hmid) (by omega)
      exact ⟨path, leaf, .sibling octet children hentry⟩

/-- **What `asn1_build_known_oid` makes** of the index of an entry -/
theorem buildOid_of_isEntry (h : IsEntry forest 0 n path leaf) :
    buildOid forest.names n = some path := by
  have hlisted := listedAt_names forest
  obtain ⟨name, hname, hlevel, -⟩ := h.getElem? hlisted
  rw [buildOid, hname]
  dsimp only
  rw [hlevel, h.buildOidFrom hlisted, List.append_nil, buildOidFrom]

theorem exists_isEntry_of_buildOid (h : buildOid forest.names n = some path) :
    ∃ leaf, IsEntry forest 0 n path leaf := by
  have hlt : n < 0 + forest.size := by
    by_contra hge
    have hnone : forest.names[n]? = none := by
      refine List.getElem?_eq_none ?_
      rw [OidForest.names, length_entries]
      omega
    rw [buildOid, hnone] at h
    cases h
  obtain ⟨path', leaf, hentry⟩ := exists_isEntry (Nat.zero_le n) hlt
  rw [buildOid_of_isEntry hentry] at h
  cases h
  exact ⟨leaf, hentry⟩

/-! ## All OIDs -/

theorem knownOid_iff (hdistinct : forest.Distinct) (object : Chunk) :
    knownOid forest.names object = some n ↔
      ∃ path leaf, IsEntry forest 0 n path leaf ∧ Stands leaf path object := by
  by_cases hobject : object = []
  · subst hobject
    refine ⟨fun h => by simp [knownOid, knownOidFrom] at h, ?_⟩
    rintro ⟨path, leaf, hentry, hstands⟩
    obtain ⟨octet, path, rfl, -⟩ := hentry.exists_cons
    exact absurd rfl (hstands.ne_nil (List.cons_ne_nil _ _))
  by_cases hne : forest = nil
  · subst hne
    refine ⟨fun h => ?_, ?_⟩
    · obtain ⟨first, object, rfl⟩ := List.exists_cons_of_ne_nil hobject
      simp [knownOid, OidForest.names, entries, knownOidFrom] at h
    · rintro ⟨path, leaf, hentry, -⟩
      cases hentry
  have hlength : forest.names.length = forest.size := length_entries forest 0 0
  rw [knownOid, knownOidFrom_entries (listedAt_names forest) hne hlength.ge, find_iff hdistinct hobject]

/-- **Exact OIDs.** An OID gets the index under which it is built, and only that, unless it goes on
behind an entry without children. -/
theorem exact_iff (forest : OidForest) (hdistinct : forest.Distinct) (object : Chunk) :
    (∀ n, knownOid forest.names object = some n ↔ buildOid forest.names n = some object) ↔
      ¬∃ n name path, forest.names[n]? = some name ∧ name.down = false ∧
        buildOid forest.names n = some path ∧ path <+: object ∧ path ≠ object := by
  constructor
  · rintro hexact ⟨n, name, path, hname, hdown, hbuild, hprefix, hne⟩
    obtain ⟨leaf, hentry⟩ := exists_isEntry_of_buildOid hbuild
    obtain ⟨name', hname', -, hleaf⟩ := hentry.getElem? (listedAt_names forest)
    obtain rfl : name = name' := Option.some.inj (hname.symm.trans hname')
    have hknown := (knownOid_iff hdistinct object).2
      ⟨path, leaf, hentry, .inr ⟨hleaf.1 hdown, hprefix⟩⟩
    rw [(hexact n).1 hknown] at hbuild
    exact hne (Option.some.inj hbuild).symm
  · intro hnot n
    rw [knownOid_iff hdistinct]
    constructor
    · rintro ⟨path, leaf, hentry, hstands⟩
      have hbuild := buildOid_of_isEntry hentry
      rcases hstands with rfl | ⟨hleaf, hprefix⟩
      · exact hbuild
      · by_contra hne
        obtain ⟨name, hname, -, hdown⟩ := hentry.getElem? (listedAt_names forest)
        refine hnot ⟨n, name, path, hname, hdown.2 hleaf, hbuild, hprefix, ?_⟩
        rintro rfl
        exact hne hbuild
    · intro hbuild
      obtain ⟨leaf, hentry⟩ := exists_isEntry_of_buildOid hbuild
      exact ⟨object, leaf, hentry, .inl rfl⟩

/-- The forest of id-sha1 (1.3.14.3.2.26) -/
def sha1 : OidForest :=
  node 0x2B (node 0x0E (node 0x03 (node 0x02 (node 0x1A nil nil) nil) nil) nil) nil

theorem exact_iff_sha1 :
    (∀ n, knownOid sha1.names [0x2B, 0x0E] = some n ↔ buildOid sha1.names n = some [0x2B, 0x0E]) ↔
      ¬∃ n name path, sha1.names[n]? = some name ∧ name.down = false ∧
        buildOid sha1.names n = some path ∧ path <+: [0x2B, 0x0E] ∧ path ≠ [0x2B, 0x0E] :=
  exact_iff sha1 (by simp [sha1, Distinct, octets]) _

/-- id-sha1 with a byte behind it is taken for id-sha1. -/
theorem not_exact_sha1 :
    knownOid sha1.names [0x2B, 0x0E, 0x03, 0x02, 0x1A, 0x00] = some 4 ∧
      buildOid sha1.names 4 = some [0x2B, 0x0E, 0x03, 0x02, 0x1A] := by
  decide

end OidForest

end StrongSwan
