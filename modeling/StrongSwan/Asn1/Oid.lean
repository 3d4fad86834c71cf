import StrongSwan.Asn1.Asn1
import StrongSwan.Crypto.Hasher

/-!
# Object identifiers

The table of known OIDs lists a tree of octets depth-first: `next` is the index of the next sibling,
`down` says whether children follow. Table and indices are generated, so both are parameters here
(`OidTable`), with what the links of every such table satisfy.

* `asn1KnownOid`, `asn1BuildKnownOid`: from the content of an OID to its index, and back.
* **`level_lt_of_knownOid`**: an OID has at least as many octets as the path to it.
-/

namespace StrongSwan

/-! ## The table -/

/-- `oid_t` -/
structure OidName where
  octet : U8
  next : ℕ
  down : Bool
  level : ℕ
  deriving DecidableEq, Repr

/-- The OIDs that are named here. -/
inductive KnownOid
  | md2 | md2WithRsa | md5 | md5WithRsa | sha1 | sha1WithRsa | sha224 | sha224WithRsa
  | sha256 | sha256WithRsa | sha384 | sha384WithRsa | sha512 | sha512WithRsa
  | sha3_224 | rsassaPkcs1v15WithSha3_224 | sha3_256 | rsassaPkcs1v15WithSha3_256
  | sha3_384 | rsassaPkcs1v15WithSha3_384 | sha3_512 | rsassaPkcs1v15WithSha3_512
  | ed25519 | ed448
  | ecdsaWithSha1 | ecdsaWithSha224 | ecdsaWithSha256 | ecdsaWithSha384 | ecdsaWithSha512
  deriving DecidableEq, Repr

/-- All of them -/
def KnownOid.all : List KnownOid :=
  [.md2, .md2WithRsa, .md5, .md5WithRsa, .sha1, .sha1WithRsa, .sha224, .sha224WithRsa, .sha256,
    .sha256WithRsa, .sha384, .sha384WithRsa, .sha512, .sha512WithRsa, .sha3_224,
    .rsassaPkcs1v15WithSha3_224, .sha3_256, .rsassaPkcs1v15WithSha3_256, .sha3_384,
    .rsassaPkcs1v15WithSha3_384, .sha3_512, .rsassaPkcs1v15WithSha3_512, .ed25519, .ed448,
    .ecdsaWithSha1, .ecdsaWithSha224, .ecdsaWithSha256, .ecdsaWithSha384, .ecdsaWithSha512]

theorem KnownOid.mem_all (o : KnownOid) : o ∈ KnownOid.all := by cases o <;> decide

/-- The loop of `asn1_known_oid` from an index on; `none` is `OID_UNKNOWN`. Every step goes on further
behind in the table. -/
def knownOidFrom (names : List OidName) : ℕ → ℕ → Chunk → Option ℕ
  | _, _, [] => none
  | 0, _, _ => none
  | fuel + 1, oid, octet :: object =>
    match names[oid]? with
    | none => none
    | some name =>
      if name.octet = octet then
        if object = [] ∨ name.down = false then some oid
        else knownOidFrom names fuel (oid + 1) object
      else if name.next ≠ 0 then knownOidFrom names fuel name.next (octet :: object)
      else none

/-- The loop of `asn1_build_known_oid`, from the index below `n` on, with `i` octets to write. -/
def buildOidFrom (names : List OidName) : ℕ → ℕ → Chunk → Option Chunk
  | _, 0, oid => some oid
  | 0, _ + 1, _ => none
  | n + 1, i + 1, oid =>
    match names[n]? with
    | none => none
    | some name =>
      if name.level ≥ i + 1 then buildOidFrom names n (i + 1) oid
      else buildOidFrom names n i (name.octet :: oid)

def knownOid (names : List OidName) (object : Chunk) : Option ℕ :=
  knownOidFrom names names.length 0 object

/-- The content of `asn1_build_known_oid` -/
def buildOid (names : List OidName) (n : ℕ) : Option Chunk :=
  match names[n]? with
  | none => none
  | some name => buildOidFrom names (n + 1) (name.level + 1) []

/-- The level of an entry -/
def levelAt (names : List OidName) (i : ℕ) : ℕ := (names[i]?.map OidName.level).getD 0

/-- The links of a table: siblings follow on the same level, children at once on the next one. -/
def OidLinks (names : List OidName) : Prop :=
  levelAt names 0 = 0 ∧ ∀ i, (h : i < names.length) →
    (names[i].next ≠ 0 → i < names[i].next ∧ levelAt names names[i].next = names[i].level) ∧
      (names[i].down = true → levelAt names (i + 1) = names[i].level + 1)

instance (names : List OidName) : Decidable (OidLinks names) := by
  unfold OidLinks
  infer_instance

/-- `oid_names` and the indices of the named OIDs -/
structure OidTable where
  names : List OidName
  oid : KnownOid → ℕ
  links : OidLinks names
  oid_inj : Function.Injective oid
  /-- The named OIDs are found under what is built for them. -/
  known_build : ∀ o, (buildOid names (oid o)).bind (knownOid names) = some (oid o)
  level_lt : ∀ o, levelAt names (oid o) < 32

def asn1KnownOid (table : OidTable) (object : Chunk) : Option ℕ := knownOid table.names object

def asn1BuildKnownOid (table : OidTable) (n : ℕ) : Chunk :=
  match buildOid table.names n with
  | none => []
  | some oid => asn1Oid :: BitVec.ofNat 8 (levelAt table.names n + 1) :: oid

/-! ## Levels -/

/-- An OID has at least as many octets as the path to its entry. -/
theorem level_lt_of_knownOidFrom {names : List OidName} (hlinks : OidLinks names) {fuel oid n : ℕ}
    {object : Chunk} (h : knownOidFrom names fuel oid object = some n) :
    levelAt names n < levelAt names oid + object.length := by
  fun_induction knownOidFrom names fuel oid object with
  | case1 => cases h
  | case2 => cases h
  | case3 => cases h
  | case4 fuel oid object name hname hend =>
    cases h
    simp
  | case5 fuel oid object name hname hend ih =>
    obtain ⟨hlt, rfl⟩ := List.getElem?_eq_some_iff.mp hname
    have hlevel := (hlinks.2 oid hlt).2 (by simpa using (not_or.mp hend).2)
    have hat : levelAt names oid = names[oid].level := by simp [levelAt, hname]
    have := ih h
    rw [List.length_cons]
    omega
  | case6 fuel oid octet object name hname hoctet hnext ih =>
    obtain ⟨hlt, rfl⟩ := List.getElem?_eq_some_iff.mp hname
    have hlevel := ((hlinks.2 oid hlt).1 hnext).2
    have hat : levelAt names oid = names[oid].level := by simp [levelAt, hname]
    have := ih h
    omega
  | case7 => cases h

theorem level_lt_of_knownOid {table : OidTable} {object : Chunk} {n : ℕ}
    (h : asn1KnownOid table object = some n) : levelAt table.names n < object.length := by
  have := level_lt_of_knownOidFrom table.links h
  rw [table.links.1] at this
  omega

theorem length_buildOidFrom {names : List OidName} {n i : ℕ} {oid oid' : Chunk}
    (h : buildOidFrom names n i oid = some oid') : oid'.length = i + oid.length := by
  fun_induction buildOidFrom names n i oid with
  | case1 => cases h; simp
  | case2 => cases h
  | case3 => cases h
  | case4 n i oid name hname hlevel ih => exact ih h
  | case5 n i oid name hname hlevel ih =>
    rw [ih h, List.length_cons]
    omega

/-- **What is built for a named OID** has the octets of its path, and is found again. -/
theorem exists_build (table : OidTable) (o : KnownOid) :
    ∃ content, asn1BuildKnownOid table (table.oid o) = asn1SimpleObject asn1Oid content ∧
      content.length = levelAt table.names (table.oid o) + 1 ∧
      asn1KnownOid table content = some (table.oid o) := by
  have hknown := table.known_build o
  have hlevel := table.level_lt o
  obtain ⟨content, hbuild, hcontent⟩ := Option.bind_eq_some_iff.mp hknown
  have hlen : content.length = levelAt table.names (table.oid o) + 1 := by
    unfold buildOid at hbuild
    split at hbuild
    · cases hbuild
    · rename_i name hname
      rw [length_buildOidFrom hbuild, levelAt, hname]
      rfl
  refine ⟨content, ?_, hlen, hcontent⟩
  rw [asn1BuildKnownOid, hbuild, asn1SimpleObject, hlen, asn1CodeLength, if_pos (by omega)]
  rfl

/-! ## Hash algorithms -/

def KnownOid.hash : KnownOid → HashAlgorithm
  | .md2 | .md2WithRsa => .md2
  | .md5 | .md5WithRsa => .md5
  | .sha1 | .sha1WithRsa => .sha1
  | .sha224 | .sha224WithRsa => .sha224
  | .sha256 | .sha256WithRsa => .sha256
  | .sha384 | .sha384WithRsa => .sha384
  | .sha512 | .sha512WithRsa => .sha512
  | .sha3_224 | .rsassaPkcs1v15WithSha3_224 => .sha3_224
  | .sha3_256 | .rsassaPkcs1v15WithSha3_256 => .sha3_256
  | .sha3_384 | .rsassaPkcs1v15WithSha3_384 => .sha3_384
  | .sha3_512 | .rsassaPkcs1v15WithSha3_512 => .sha3_512
  | .ed25519 | .ed448 => .identity
  | .ecdsaWithSha1 | .ecdsaWithSha224 | .ecdsaWithSha256 | .ecdsaWithSha384 | .ecdsaWithSha512 =>
    .unknown

def hasherAlgorithmFromOid (table : OidTable) (oid : Option ℕ) : HashAlgorithm :=
  ((KnownOid.all.find? fun o => some (table.oid o) = oid).map KnownOid.hash).getD .unknown

def hasherAlgorithmToOid : HashAlgorithm → Option KnownOid
  | .md2 => some .md2
  | .md5 => some .md5
  | .sha1 => some .sha1
  | .sha224 => some .sha224
  | .sha256 => some .sha256
  | .sha384 => some .sha384
  | .sha512 => some .sha512
  | .sha3_224 => some .sha3_224
  | .sha3_256 => some .sha3_256
  | .sha3_384 => some .sha3_384
  | .sha3_512 => some .sha3_512
  | .md4 | .identity | .unknown => none

theorem hash_of_toOid {alg : HashAlgorithm} {o : KnownOid} (h : hasherAlgorithmToOid alg = some o) :
    o.hash = alg := by
  cases alg <;> cases h <;> rfl

theorem fromOid_oid (table : OidTable) (o : KnownOid) :
    hasherAlgorithmFromOid table (some (table.oid o)) = o.hash := by
  obtain ⟨o', ho'⟩ := Option.isSome_iff_exists.mp
    (List.find?_isSome.mpr ⟨o, KnownOid.mem_all o, decide_eq_true rfl⟩ :
      (KnownOid.all.find? fun o' => some (table.oid o') = some (table.oid o)).isSome = true)
  have heq : some (table.oid o') = some (table.oid o) := by simpa using List.find?_some ho'
  rw [hasherAlgorithmFromOid, ho', table.oid_inj (Option.some.inj heq)]
  rfl

theorem exists_of_fromOid {table : OidTable} {oid : Option ℕ}
    (h : hasherAlgorithmFromOid table oid ≠ .unknown) :
    ∃ o, oid = some (table.oid o) ∧ o.hash = hasherAlgorithmFromOid table oid := by
  unfold hasherAlgorithmFromOid at h ⊢
  obtain hfind | ⟨o, hfind⟩ := Option.eq_none_or_eq_some
    (KnownOid.all.find? fun o => some (table.oid o) = oid)
  · rw [hfind] at h
    exact absurd rfl h
  · have heq : some (table.oid o) = oid := by simpa using List.find?_some hfind
    refine ⟨o, heq.symm, ?_⟩
    rw [hfind]
    rfl

/-- `asn1_algorithmIdentifier` -/
def asn1AlgorithmIdentifier (table : OidTable) (oid : ℕ) : Chunk :=
  -- some algorithmIdentifiers have a NULL parameters field and some do not
  let parameters :=
    if [KnownOid.ecdsaWithSha1, .ecdsaWithSha224, .ecdsaWithSha256, .ecdsaWithSha384,
        .ecdsaWithSha512, .ed25519, .ed448].any (fun o => table.oid o = oid) then []
    else asn1SimpleObject asn1Null []
  asn1Wrap asn1Sequence [asn1BuildKnownOid table oid, parameters]

/-! ## An excerpt of the generated table -/

/-- The part of `oid.txt` that leads to the named OIDs -/
def oidNames : List OidName :=
  [⟨0x2A, 27, true, 0⟩, ⟨0x86, 0, true, 1⟩, ⟨0x48, 0, true, 2⟩, ⟨0x86, 18, true, 3⟩,
    ⟨0xF7, 0, true, 4⟩, ⟨0x0D, 0, true, 5⟩, ⟨0x01, 15, true, 6⟩, ⟨0x01, 0, true, 7⟩,
    ⟨0x02, 9, false, 8⟩, ⟨0x04, 10, false, 8⟩, ⟨0x05, 11, false, 8⟩, ⟨0x0B, 12, false, 8⟩,
    ⟨0x0C, 13, false, 8⟩, ⟨0x0D, 14, false, 8⟩, ⟨0x0E, 0, false, 8⟩, ⟨0x02, 0, true, 6⟩,
    ⟨0x02, 17, false, 7⟩, ⟨0x05, 0, false, 7⟩, ⟨0xCE, 0, true, 3⟩, ⟨0x3D, 0, true, 4⟩,
    ⟨0x04, 0, true, 5⟩, ⟨0x01, 22, false, 6⟩, ⟨0x03, 0, true, 6⟩, ⟨0x01, 24, false, 7⟩,
    ⟨0x02, 25, false, 7⟩, ⟨0x03, 26, false, 7⟩, ⟨0x04, 0, false, 7⟩, ⟨0x2B, 35, true, 0⟩,
    ⟨0x0E, 32, true, 1⟩, ⟨0x03, 0, true, 2⟩, ⟨0x02, 0, true, 3⟩, ⟨0x1A, 0, false, 4⟩,
    ⟨0x65, 0, true, 1⟩, ⟨0x70, 34, false, 2⟩, ⟨0x71, 0, false, 2⟩, ⟨0x60, 0, true, 0⟩,
    ⟨0x86, 0, true, 1⟩, ⟨0x48, 0, true, 2⟩, ⟨0x01, 0, true, 3⟩, ⟨0x65, 0, true, 4⟩,
    ⟨0x03, 0, true, 5⟩, ⟨0x04, 0, true, 6⟩, ⟨0x02, 51, true, 7⟩, ⟨0x01, 44, false, 8⟩,
    ⟨0x02, 45, false, 8⟩, ⟨0x03, 46, false, 8⟩, ⟨0x04, 47, false, 8⟩, ⟨0x07, 48, false, 8⟩,
    ⟨0x08, 49, false, 8⟩, ⟨0x09, 50, false, 8⟩, ⟨0x0A, 0, false, 8⟩, ⟨0x03, 0, true, 7⟩,
    ⟨0x0D, 53, false, 8⟩, ⟨0x0E, 54, false, 8⟩, ⟨0x0F, 55, false, 8⟩, ⟨0x10, 0, false, 8⟩]

/-- Their indices in it -/
def oidIndex : KnownOid → ℕ
  | .md2 => 16
  | .md2WithRsa => 8
  | .md5 => 17
  | .md5WithRsa => 9
  | .sha1 => 31
  | .sha1WithRsa => 10
  | .sha224 => 46
  | .sha224WithRsa => 14
  | .sha256 => 43
  | .sha256WithRsa => 11
  | .sha384 => 44
  | .sha384WithRsa => 12
  | .sha512 => 45
  | .sha512WithRsa => 13
  | .sha3_224 => 47
  | .rsassaPkcs1v15WithSha3_224 => 52
  | .sha3_256 => 48
  | .rsassaPkcs1v15WithSha3_256 => 53
  | .sha3_384 => 49
  | .rsassaPkcs1v15WithSha3_384 => 54
  | .sha3_512 => 50
  | .rsassaPkcs1v15WithSha3_512 => 55
  | .ed25519 => 33
  | .ed448 => 34
  | .ecdsaWithSha1 => 21
  | .ecdsaWithSha224 => 23
  | .ecdsaWithSha256 => 24
  | .ecdsaWithSha384 => 25
  | .ecdsaWithSha512 => 26

/-- The excerpt as a table -/
def oidTable : OidTable where
  names := oidNames
  oid := oidIndex
  links := by decide +kernel
  oid_inj := by
    intro o o' h
    cases o <;> cases o' <;> first | rfl | cases h
  known_build o := by cases o <;> decide +kernel
  level_lt o := by cases o <;> decide +kernel

end StrongSwan
