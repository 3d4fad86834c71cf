import StrongSwan.Asn1.AlgorithmIdentifier
import StrongSwan.Crypto.Rsa

/-!
# RSASSA-PKCS1-v1_5 signatures

`buildEmsaPkcs1Signature` pads a DigestInfo to the length of the modulus and signs it;
`verifyEmsaPkcs1Signature` takes the recovered encoding apart again, with the ASN.1 parser.

* `length_of_verify`: the parts that every accepted encoding has.
* **`verify_digestInfo`**: a DigestInfo with the hash of the data is accepted, with any parameters of
  the algorithm and any length of the padding.
-/

namespace StrongSwan

open Asn1Parser

/-! ## The DigestInfo of the signer -/

/-- `T` in `EM = 0x00 || 0x01 || PS || 0x00 || T`: the DER-encoded digestInfo, or for `HASH_UNKNOWN` the
data itself. -/
def buildDigestInfo (table : OidTable) (crypto : HasherFactory) (hashAlgorithm : HashAlgorithm)
    (data : Chunk) : Option Chunk :=
  if hashAlgorithm ≠ .unknown then do
    let hashOid ← hasherAlgorithmToOid hashAlgorithm
    let hasher ← crypto.createHasher hashAlgorithm
    let hash ← hasher.getHash data
    some (asn1Wrap asn1Sequence [asn1AlgorithmIdentifier table (table.oid hashOid),
      asn1SimpleObject asn1OctetString hash])
  else some data

/-- Fill `k` bytes with padding, set the magic bytes and the DER-encoded hash. -/
def padDigestInfo (k : ℕ) (data : Chunk) : Chunk :=
  let em := List.replicate k (0xff : U8)
  let em := (em.set 0 0x00).set 1 0x01
  let em := em.set (k - data.length - 1) 0x00
  em.take (k - data.length) ++ data

variable {n : ℕ}

/-- Build a signature using the PKCS#1 EMSA scheme; without a result if it writes outside of the
buffer, `some none` is `FALSE`. -/
def buildEmsaPkcs1Signature (this : RsaKey n) (table : OidTable) (crypto : HasherFactory)
    (hashAlgorithm : HashAlgorithm) (data : Chunk) : Option (Option Chunk) :=
  match buildDigestInfo table crypto hashAlgorithm data with
  | none => some none
  | some data =>
    if data.length > sizeSub this.k 3 then some none
    else if this.k < 2 ∨ this.k < data.length + 1 then none
    else some (some (this.rsasp1 (padDigestInfo this.k data)))

/-! ## The verification -/

/-- ASN.1 definition of digestInfo -/
def digestInfoObjects : List Asn1Object :=
  [⟨0, asn1Sequence, { obj := true }⟩,     -- digestInfo
    ⟨1, asn1Eoc, { raw := true }⟩,         -- digestAlgorithm
    ⟨1, asn1OctetString, { body := true }⟩, -- digest
    ⟨0, asn1Eoc, { exit := true }⟩]        -- exit

theorem noLoop_digestInfoObjects : ∀ obj ∈ digestInfoObjects, obj.flags.loop = false := by decide

/-- What the verification has found: the hash algorithm, and whether the hash is that of the data -/
structure DigestInfo where
  hashAlgorithm : HashAlgorithm := .unknown
  success : Bool := false

/-- What is done with the objects of a digestInfo -/
def handleDigestInfo (table : OidTable) (crypto : HasherFactory) (algorithm : HashAlgorithm)
    (data em : Chunk) (objectID : ℕ) (object : Chunk) (s : DigestInfo) : DigestInfo × Bool :=
  match objectID with
  | 0 => (s, decide (¬ em.length > object.length))
  | 1 =>
    let hashOid := (asn1ParseAlgorithmIdentifier table object).1
    let hashAlgorithm := hasherAlgorithmFromOid table hashOid
    ({ s with hashAlgorithm := hashAlgorithm },
      decide (¬ (hashAlgorithm = .unknown ∨ hashAlgorithm ≠ algorithm)))
  | 2 =>
    match crypto.createHasher s.hashAlgorithm with
    | none => (s, false)
    | some hasher =>
      if object.length ≠ hasher.hashSize then (s, false)
      else
        match hasher.getHash data with
        | none => (s, false)
        | some hash => ({ s with success := decide (object.take hash.length = hash) }, true)
  | _ => (s, true)

/-- Behind the padding, find magic 0x00; there is no result with other bytes than 0xFF before it. -/
def skipPadding : Chunk → Option Chunk
  | [] => some []
  | b :: em => if b = 0x00 then some em else if b ≠ 0xff then none else skipPadding em

theorem run_digestInfo_isSome (table : OidTable) (crypto : HasherFactory)
    (algorithm : HashAlgorithm) (data em : Chunk) :
    (run (handleDigestInfo table crypto algorithm data em) 5 (create digestInfoObjects em)
      {}).isSome = true :=
  run_isSome noLoop_digestInfoObjects (fun _ => rfl) (by decide) (by simp [create, digestInfoObjects])

/-- Verification of an EMSA PKCS1 signature described in PKCS#1 -/
def verifyEmsaPkcs1Signature (this : RsaKey n) (table : OidTable) (crypto : HasherFactory)
    (algorithm : HashAlgorithm) (data signature : Chunk) : Bool :=
  -- remove any preceding 0-bytes from signature
  let signature := signature.dropWhile (· = 0)
  if signature.length = 0 ∨ signature.length > this.k then false
  else
    let em := this.rsavp1 signature
    -- check magic bytes
    if em.length < 2 ∨ em[0]? ≠ some 0x00 ∨ em[1]? ≠ some 0x01 then false
    else
      match skipPadding (em.drop 2) with
      | none => false
      | some em =>
        if em.length = 0 then false
        else if algorithm = .unknown then
          -- IKEv1 signatures without digestInfo
          if em.length ≠ data.length then false else decide (em = data)
        else
          let (s, success) := (run (handleDigestInfo table crypto algorithm data em) 5
            (create digestInfoObjects em) {}).get
              (run_digestInfo_isSome table crypto algorithm data em)
          s.success && success

/-! ## Padding -/

theorem padDigestInfo_eq {k : ℕ} {data : Chunk} (h : data.length + 3 ≤ k) :
    padDigestInfo k data =
      0x00 :: 0x01 :: (List.replicate (k - 3 - data.length) 0xff ++ 0x00 :: data) := by
  obtain ⟨padding, rfl⟩ := Nat.exists_eq_add_of_le h
  have hpadding : data.length + 3 + padding - 3 - data.length = padding := by omega
  have hend : data.length + 3 + padding - data.length = padding + 3 := by omega
  rw [padDigestInfo, hpadding, hend]
  have hrow : List.replicate (data.length + 3 + padding) (0xff : U8) =
      0xff :: 0xff :: (List.replicate padding 0xff ++ 0xff :: List.replicate data.length 0xff) := by
    rw [show data.length + 3 + padding = padding + (data.length + 1) + 1 + 1 by omega,
      List.replicate_succ, List.replicate_succ, List.replicate_add, List.replicate_succ]
  rw [hrow]
  simp [List.take_append]

theorem skipPadding_replicate (padding : ℕ) (em : Chunk) :
    skipPadding (List.replicate padding 0xff ++ 0x00 :: em) = some em := by
  induction padding with
  | zero => rfl
  | succ padding ih =>
    rw [List.replicate_succ, List.cons_append, skipPadding, if_neg (by decide), if_neg (by decide), ih]

theorem length_skipPadding {em em' : Chunk} (h : skipPadding em = some em') (hne : em' ≠ []) :
    em'.length + 1 ≤ em.length := by
  induction em with
  | nil =>
    cases h
    exact absurd rfl hne
  | cons b em ih =>
    rw [skipPadding] at h
    split_ifs at h
    · cases h
      exact le_rfl
    · exact (ih h).trans (Nat.le_succ _)

/-! ## Recovered encodings -/

theorem RsaKey.rsavp1_dropWhile (this : RsaKey n) (signature : Chunk) :
    this.rsavp1 (signature.dropWhile (· = 0)) = this.rsavp1 signature := by
  unfold RsaKey.rsavp1 RsaKey.rsaep
  simp only [Bytes.value_dropWhile_zero]

theorem RsaKey.value_ne_zero_of_rsavp1 {this : RsaKey n} {signature : Chunk}
    (h : this.rsavp1 signature ≠ []) : Bytes.value signature ≠ 0 := by
  intro hzero
  apply h
  unfold RsaKey.rsavp1 RsaKey.rsaep
  rw [dif_pos (.inl hzero.le)]

theorem value_padded {this : RsaKey n} {em : Chunk} (hlen : (0x00 :: 0x01 :: em).length = this.k) :
    Bytes.value (0x00 :: 0x01 :: em) ≠ 0 ∧ Bytes.value (0x00 :: 0x01 :: em) < n := by
  have hvalue : Bytes.value (0x00 :: 0x01 :: em) = 256 ^ em.length + Bytes.value em := by
    rw [Bytes.value_cons, Bytes.value_cons]
    simp
  have hlt := Bytes.value_lt em
  have hsize := this.size_pos
  have hk : this.k = (n.size + 7) / 8 := rfl
  have hpos : 0 < 256 ^ em.length := by positivity
  rw [List.length_cons, List.length_cons] at hlen
  have hpow : 2 * 256 ^ em.length ≤ 2 ^ (n.size - 1) := by
    rw [show 2 * 256 ^ em.length = 2 ^ (1 + 8 * em.length) by
      rw [pow_add, pow_one, pow_mul]; norm_num]
    exact Nat.pow_le_pow_right (by omega) (by omega)
  have hle := hpow.trans this.pow_le
  rw [hvalue]
  constructor <;> omega

theorem RsaKey.rsavp1_padded {this : RsaKey n} {em : Chunk}
    (hlen : (0x00 :: 0x01 :: em).length = this.k) :
    this.rsavp1 (this.rsasp1 (0x00 :: 0x01 :: em)) = 0x00 :: 0x01 :: em := by
  obtain ⟨hpos, hlt⟩ := value_padded hlen
  rw [this.rsavp1_rsasp1 hpos hlt, ← hlen, Bytes.ofNat_value]

variable {this : RsaKey n} {table : OidTable} {crypto : HasherFactory} {algorithm : HashAlgorithm}
  {data : Chunk}

theorem length_padded (padding : ℕ) (em : Chunk) :
    (0x00 :: 0x01 :: (List.replicate padding 0xff ++ 0x00 :: em)).length = padding + em.length + 3 := by
  simp only [List.length_cons, List.length_append, List.length_replicate]
  omega

theorem verify_padded {padding : ℕ} {em : Chunk} (hne : em ≠ []) (halg : algorithm ≠ .unknown)
    (hlen : padding + em.length + 3 = this.k) :
    verifyEmsaPkcs1Signature this table crypto algorithm data
        (this.rsasp1 (0x00 :: 0x01 :: (List.replicate padding 0xff ++ 0x00 :: em))) =
      (((run (handleDigestInfo table crypto algorithm data em) 5 (create digestInfoObjects em)
        {}).get (run_digestInfo_isSome table crypto algorithm data em)).1.success &&
      ((run (handleDigestInfo table crypto algorithm data em) 5 (create digestInfoObjects em)
        {}).get (run_digestInfo_isSome table crypto algorithm data em)).2) := by
  have hrecover := RsaKey.rsavp1_padded ((length_padded padding em).trans hlen)
  set signature := this.rsasp1 (0x00 :: 0x01 :: (List.replicate padding 0xff ++ 0x00 :: em))
    with hsignature
  have hsome : this.rsavp1 signature ≠ [] := by
    rw [hrecover]
    exact List.cons_ne_nil _ _
  have hvalue : Bytes.value signature ≠ 0 := RsaKey.value_ne_zero_of_rsavp1 hsome
  have hnonempty : (signature.dropWhile (· = 0)).length ≠ 0 := by
    intro h
    rw [← Bytes.value_dropWhile_zero, List.length_eq_zero_iff.mp h] at hvalue
    exact hvalue rfl
  have hle : (signature.dropWhile (· = 0)).length ≤ this.k :=
    (List.dropWhile_suffix _).length_le.trans (this.length_rsasp1_le _)
  unfold verifyEmsaPkcs1Signature
  dsimp only
  rw [if_neg (by omega), this.rsavp1_dropWhile, hrecover, if_neg (by simp), List.drop_succ_cons,
    List.drop_succ_cons, List.drop_zero, skipPadding_replicate]
  dsimp only
  rw [if_neg (List.length_eq_zero_iff.not.mpr hne), if_neg halg]

/-! ## DigestInfos -/

/-- A DigestInfo with the OID `content` and any parameters -/
def digestInfoOf (content parameters hash : Chunk) : Chunk :=
  asn1SimpleObject asn1Sequence
    (asn1SimpleObject asn1Sequence (asn1SimpleObject asn1Oid content ++ parameters) ++
      asn1SimpleObject asn1OctetString hash)

/-- **A DigestInfo with the hash of the data** passes, with any parameters. -/
theorem run_digestInfoOf {hasher : Hasher} {content parameters hash : Chunk} {o : KnownOid}
    (hhasher : crypto.createHasher algorithm = some hasher) (hhash : hasher.getHash data = some hash)
    (halg : algorithm ≠ .unknown) (ho : o.hash = algorithm)
    (hcontent : asn1KnownOid table content = some (table.oid o))
    (hlen : (digestInfoOf content parameters hash).length < 2 ^ 24) :
    run (handleDigestInfo table crypto algorithm data (digestInfoOf content parameters hash)) 5
      (create digestInfoObjects (digestInfoOf content parameters hash)) {} =
      some (⟨algorithm, true⟩, true) := by
  have hidlen := length_simpleObject asn1Sequence (asn1SimpleObject asn1Oid content ++ parameters)
  have hdiglen := length_simpleObject asn1OctetString hash
  have hsize := crypto.length_hash hhasher hhash
  rw [← crypto.hashSize_eq hhasher] at hsize
  unfold digestInfoOf at hlen ⊢
  generalize hidentifier : asn1SimpleObject asn1Sequence
    (asn1SimpleObject asn1Oid content ++ parameters) = identifier at hlen hidlen ⊢
  generalize hdigest : asn1SimpleObject asn1OctetString hash = digest at hlen hdiglen ⊢
  have hemlen := length_simpleObject asn1Sequence (identifier ++ digest)
  rw [List.length_append] at hemlen
  generalize hem : asn1SimpleObject asn1Sequence (identifier ++ digest) = em at hlen hemlen ⊢
  set parser := create digestInfoObjects em with hparser
  -- digestInfo
  have hline : parser.objects[parser.next]? = some ⟨0, asn1Sequence, { obj := true }⟩ := rfl
  have helement : asn1Element (parser.blobs 0) = some (em, identifier ++ digest, []) := by
    have hread : asn1Element (asn1SimpleObject asn1Sequence (identifier ++ digest) ++ []) =
        some (_, identifier ++ digest, []) :=
      asn1Element_simpleObject (by rw [List.length_append]; omega)
    rwa [hem, List.append_nil] at hread
  have hiterate := iterate_element hline ⟨rfl, rfl, rfl, rfl, rfl, rfl⟩ rfl helement
    (.inr (by rw [← hem]; rfl))
  have hhandle : handleDigestInfo table crypto algorithm data em 0 em {} = ({}, true) := by
    simp [handleDigestInfo]
  rw [run_step hiterate hhandle]
  -- digestAlgorithm
  set parser₁ := parser.behind 0 (identifier ++ digest) [] with hparser₁
  have hline₁ : parser₁.objects[parser₁.next]? = some ⟨1, asn1Eoc, { raw := true }⟩ := rfl
  have helement₁ : asn1Element (parser₁.blobs 1) =
      some (identifier, asn1SimpleObject asn1Oid content ++ parameters, digest) := by
    have hread : asn1Element (asn1SimpleObject asn1Sequence
        (asn1SimpleObject asn1Oid content ++ parameters) ++ digest) =
        some (_, asn1SimpleObject asn1Oid content ++ parameters, digest) :=
      asn1Element_simpleObject (by omega)
    rwa [hidentifier] at hread
  have hiterate₁ := iterate_element hline₁ ⟨rfl, rfl, rfl, rfl, rfl, rfl⟩ rfl helement₁ (.inl rfl)
  have hhandle₁ : handleDigestInfo table crypto algorithm data em 1 identifier {} =
      (⟨algorithm, false⟩, true) := by
    have hoid : (asn1ParseAlgorithmIdentifier table identifier).1 = some (table.oid o) := by
      rw [← hidentifier, ← hcontent]
      exact parse_algorithmIdentifier (by omega)
    simp only [handleDigestInfo, hoid, fromOid_oid, ho, halg, ne_eq, not_true_eq_false,
      or_self, not_false_eq_true, decide_true]
  rw [run_step hiterate₁ hhandle₁]
  -- digest
  set parser₂ := parser₁.behind 1 (asn1SimpleObject asn1Oid content ++ parameters) digest
    with hparser₂
  have hline₂ : parser₂.objects[parser₂.next]? = some ⟨1, asn1OctetString, { body := true }⟩ := rfl
  have helement₂ : asn1Element (parser₂.blobs 1) = some (digest, hash, []) := by
    have hread : asn1Element (asn1SimpleObject asn1OctetString hash ++ []) = some (_, hash, []) :=
      asn1Element_simpleObject (by omega)
    rwa [hdigest, List.append_nil] at hread
  have hiterate₂ := iterate_element hline₂ ⟨rfl, rfl, rfl, rfl, rfl, rfl⟩ rfl helement₂
    (.inr (by rw [← hdigest]; rfl))
  have hhandle₂ : handleDigestInfo table crypto algorithm data em 2 hash ⟨algorithm, false⟩ =
      (⟨algorithm, true⟩, true) := by
    simp [handleDigestInfo, hhasher, hhash, hsize]
  rw [run_step hiterate₂ hhandle₂]
  have hexit : (parser₂.behind 1 hash []).iterate =
      ({ parser₂.behind 1 hash [] with next := 4 }, none) := rfl
  exact run_stop hexit

theorem handleDigest_cases {em object : Chunk} {s s' : DigestInfo} {goOn : Bool}
    (h : handleDigestInfo table crypto algorithm data em 2 object s = (s', goOn)) :
    s'.success = s.success ∧ goOn = false ∨ ∃ hasher hash,
      crypto.createHasher s.hashAlgorithm = some hasher ∧ hasher.getHash data = some hash ∧
      object.length = hasher.hashSize := by
  simp only [handleDigestInfo] at h
  split at h
  · cases h
    exact .inl ⟨rfl, rfl⟩
  rename_i hasher hhasher
  split_ifs at h with hsize
  · cases h
    exact .inl ⟨rfl, rfl⟩
  split at h
  · cases h
    exact .inl ⟨rfl, rfl⟩
  · rename_i hash hhash
    exact .inr ⟨hasher, hash, hhasher, hhash, not_not.mp hsize⟩

theorem length_of_run {em : Chunk} {s : DigestInfo} {success : Bool}
    (hrun : run (handleDigestInfo table crypto algorithm data em) 5 (create digestInfoObjects em) {} =
      some (s, success)) (hs : s.success = true) :
    ∃ o : KnownOid, ∃ hasher hash, o.hash = algorithm ∧
      crypto.createHasher algorithm = some hasher ∧ hasher.getHash data = some hash ∧
      9 + levelAt table.names (table.oid o) + hasherHashSize algorithm ≤ em.length := by
  set parser := create digestInfoObjects em with hparser
  -- digestInfo
  have hline : parser.objects[parser.next]? = some ⟨0, asn1Sequence, { obj := true }⟩ := rfl
  obtain rfl | ⟨parser₁, objectID, object₀, hiterate, hhandle⟩ := run_cases hrun
  · cases hs
  obtain ⟨tlv, content, rest, helement, rfl, rfl, rfl⟩ :=
    iterate_some hline ⟨rfl, rfl, rfl, rfl, rfl, rfl⟩ rfl rfl hiterate
  obtain hend | ⟨s₁, hhandle, hrun⟩ := hhandle
  · cases congrArg Prod.fst hend
    cases hs
  obtain rfl : {} = s₁ := congrArg Prod.fst hhandle
  -- digestAlgorithm
  set parser₁ := parser.behind 0 content rest with hparser₁
  have hline₁ : parser₁.objects[parser₁.next]? = some ⟨1, asn1Eoc, { raw := true }⟩ := rfl
  obtain rfl | ⟨parser₂, objectID, object₁, hiterate₁, hhandle₁⟩ := run_cases hrun
  · cases hs
  obtain ⟨tlv₁, content₁, rest₁, helement₁, rfl, rfl, hobject₁⟩ :=
    iterate_some hline₁ ⟨rfl, rfl, rfl, rfl, rfl, rfl⟩ rfl rfl hiterate₁
  obtain hend | ⟨s₂, hhandle₁, hrun⟩ := hhandle₁
  · cases congrArg Prod.fst hend
    cases hs
  obtain ⟨hstate, hfound⟩ := Prod.mk.inj hhandle₁
  have hfound := of_decide_eq_true hfound
  rw [not_or, not_not] at hfound
  obtain ⟨o, hoid, ho⟩ := exists_of_fromOid hfound.1
  obtain ⟨oid, hknown, hoidlen⟩ := exists_of_parse hoid
  have hlevel := level_lt_of_knownOid hknown
  -- digest
  set parser₂ := parser₁.behind 1 content₁ rest₁ with hparser₂
  have hline₂ : parser₂.objects[parser₂.next]? = some ⟨1, asn1OctetString, { body := true }⟩ := rfl
  obtain rfl | ⟨parser₃, objectID, object₂, hiterate₂, hhandle₂⟩ := run_cases hrun
  · cases hstate
    cases hs
  obtain ⟨tlv₂, content₂, rest₂, helement₂, rfl, rfl, hobject₂⟩ :=
    iterate_some hline₂ ⟨rfl, rfl, rfl, rfl, rfl, rfl⟩ rfl rfl hiterate₂
  obtain ⟨hasher, hash, hhasher, hhash, hsize⟩ : ∃ hasher hash,
      crypto.createHasher algorithm = some hasher ∧ hasher.getHash data = some hash ∧
      object₂.length = hasherHashSize algorithm := by
    have hdigest : ∃ s' goOn, handleDigestInfo table crypto algorithm data em 2 object₂ s₂ =
        (s', goOn) ∧ (goOn = true ∨ s' = s) := by
      obtain hend | ⟨s₃, hhandle₂, -⟩ := hhandle₂
      · exact ⟨s, false, hend, .inr rfl⟩
      · exact ⟨s₃, true, hhandle₂, .inl rfl⟩
    obtain ⟨s', goOn, hhandle₂, hgo⟩ := hdigest
    obtain ⟨hsame, rfl⟩ | ⟨hasher, hash, hhasher, hhash, hsize⟩ := handleDigest_cases hhandle₂
    · obtain hgo | rfl := hgo
      · cases hgo
      · rw [hs, ← hstate] at hsame
        cases hsame
    · rw [← hstate, hfound.2] at hhasher
      exact ⟨hasher, hash, hhasher, hhash, by rw [hsize, crypto.hashSize_eq hhasher]⟩
  refine ⟨o, hasher, hash, ho.trans hfound.2, hhasher, hhash, ?_⟩
  obtain ⟨hem, -, hlen⟩ := asn1Element_some helement
  obtain ⟨hcontent, -, -⟩ := asn1Element_some helement₁
  obtain ⟨hrest, -, hlen₂⟩ := asn1Element_some helement₂
  have hemlen : em.length = object₀.length + rest.length := by
    rw [← List.length_append]
    exact congrArg List.length hem
  have hcontentlen : content.length = tlv₁.length + rest₁.length := by
    rw [← List.length_append]
    exact congrArg List.length hcontent
  have hrestlen : rest₁.length = tlv₂.length + rest₂.length := by
    rw [← List.length_append]
    exact congrArg List.length hrest
  have hobjectlen₁ : object₁.length = tlv₁.length := congrArg List.length hobject₁
  have hobjectlen₂ : object₂.length = content₂.length := congrArg List.length hobject₂
  omega

/-- **The length of accepted encodings**: magic bytes, the tags and lengths of five elements, an OID of
the algorithm and its hash. -/
theorem length_of_verify {signature : Chunk} (halg : algorithm ≠ .unknown)
    (h : verifyEmsaPkcs1Signature this table crypto algorithm data signature = true) :
    ∃ o : KnownOid, ∃ hasher hash, o.hash = algorithm ∧
      crypto.createHasher algorithm = some hasher ∧ hasher.getHash data = some hash ∧
      12 + levelAt table.names (table.oid o) + hasherHashSize algorithm ≤ this.k := by
  unfold verifyEmsaPkcs1Signature at h
  dsimp only at h
  split_ifs at h with hlen hmagic
  rw [this.rsavp1_dropWhile] at h hmagic
  generalize hem : this.rsavp1 signature = em at h hmagic
  split at h
  · cases h
  rename_i em' hskip
  split_ifs at h with hempty
  have hemlen : em.length = this.k := by
    rw [← hem]
    exact this.length_rsavp1 signature fun hnil => by simp [← hem, hnil] at hmagic
  have hskiplen := length_skipPadding hskip (List.length_eq_zero_iff.not.mp hempty)
  rw [List.length_drop] at hskiplen
  obtain ⟨⟨s, success⟩, hrun⟩ :=
    Option.isSome_iff_exists.mp (run_digestInfo_isSome table crypto algorithm data em')
  simp only [hrun, Option.get_some, Bool.and_eq_true] at h
  obtain ⟨o, hasher, hash, ho, hhasher, hhash, hle⟩ := length_of_run hrun h.1
  exact ⟨o, hasher, hash, ho, hhasher, hhash, by omega⟩

end StrongSwan
