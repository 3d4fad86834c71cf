import StrongSwan.Crypto.RsaPkcs1

/-!
# Which encodings PKCS#1 v1.5 verification accepts

What the signer signs is accepted. But the verification does not look at the parameters of the
algorithm, at the length of the padding or behind the digest, so that wherever it accepts an encoding
at all it also accepts one that the signer never makes.

* `verify_built`: what is built is accepted.
* **`pkcs1_exact`**: only the one encoding is accepted where the modulus is too short for any.
-/

namespace StrongSwan

variable {n : ℕ}

/-- The verification accepts exactly what the signer makes, for one key, algorithm and data. -/
structure Pkcs1Exact (this : RsaKey n) (table : OidTable) (crypto : HasherFactory)
    (algorithm : HashAlgorithm) (data : Chunk) : Prop where
  accepted : ∀ signature,
    verifyEmsaPkcs1Signature this table crypto algorithm data signature = true →
      ∃ digestInfo, buildDigestInfo table crypto algorithm data = some digestInfo ∧
        8 + digestInfo.length + 3 ≤ this.k ∧ this.rsavp1 signature =
          0x00 :: 0x01 :: (List.replicate (this.k - 3 - digestInfo.length) 0xff ++ 0x00 :: digestInfo)
  built : ∀ signature,
    buildEmsaPkcs1Signature this table crypto algorithm data = some (some signature) →
      verifyEmsaPkcs1Signature this table crypto algorithm data signature = true

variable {this : RsaKey n} {table : OidTable} {crypto : HasherFactory} {algorithm : HashAlgorithm}
  {data : Chunk}

/-- The NULL parameters of the signer -/
def nullParameters : Chunk := asn1SimpleObject asn1Null []

theorem exists_of_buildDigestInfo {digestInfo : Chunk} (halg : algorithm ≠ .unknown)
    (h : buildDigestInfo table crypto algorithm data = some digestInfo) :
    ∃ o : KnownOid, ∃ hasher hash content, o.hash = algorithm ∧
      crypto.createHasher algorithm = some hasher ∧ hasher.getHash data = some hash ∧
      asn1KnownOid table content = some (table.oid o) ∧
      content.length = levelAt table.names (table.oid o) + 1 ∧
      digestInfo = digestInfoOf content nullParameters hash := by
  rw [buildDigestInfo, if_pos halg] at h
  simp only [Option.bind_eq_bind, Option.bind_eq_some_iff, Option.some.injEq] at h
  obtain ⟨o, ho, hasher, hhasher, hash, hhash, rfl⟩ := h
  obtain ⟨content, hbuild, hlen, hknown⟩ := exists_build table o
  refine ⟨o, hasher, hash, content, hash_of_toOid ho, hhasher, hhash, hknown, hlen, ?_⟩
  have hparams : ([KnownOid.ecdsaWithSha1, .ecdsaWithSha224, .ecdsaWithSha256, .ecdsaWithSha384,
      .ecdsaWithSha512, .ed25519, .ed448].any fun o' => table.oid o' = table.oid o) = false := by
    simp only [table.oid_inj.eq_iff]
    cases algorithm <;> cases ho <;> decide
  rw [asn1AlgorithmIdentifier, hparams, hbuild, digestInfoOf]
  simp [asn1Wrap, nullParameters]

theorem length_digestInfoOf {content parameters hash : Chunk} (hcontent : content.length ≤ 32)
    (hparams : parameters.length ≤ 2) (hhash : hash.length ≤ 64) :
    (digestInfoOf content parameters hash).length =
      8 + content.length + parameters.length + hash.length := by
  have hshort : ∀ length, length < 128 → (asn1CodeLength length).length = 1 := by
    intro length h
    rw [asn1CodeLength, if_pos h]
    rfl
  rw [digestInfoOf, length_simpleObject, List.length_append, length_simpleObject asn1Sequence,
    length_simpleObject asn1OctetString, List.length_append, length_simpleObject asn1Oid,
    hshort content.length (by omega), hshort hash.length (by omega),
    hshort (1 + 1 + content.length + parameters.length) (by omega), hshort _ (by omega)]
  omega

/-- **A DigestInfo with the hash of the data is accepted**, after any padding and with any parameters
of at most two bytes. -/
theorem verify_digestInfoOf {hasher : Hasher} {content parameters hash : Chunk} {o : KnownOid}
    {padding : ℕ} (hhasher : crypto.createHasher algorithm = some hasher)
    (hhash : hasher.getHash data = some hash) (halg : algorithm ≠ .unknown) (ho : o.hash = algorithm)
    (hcontent : asn1KnownOid table content = some (table.oid o))
    (hlen : content.length = levelAt table.names (table.oid o) + 1) (hparams : parameters.length ≤ 2)
    (hk : padding + (digestInfoOf content parameters hash).length + 3 = this.k) :
    verifyEmsaPkcs1Signature this table crypto algorithm data (this.rsasp1
      (0x00 :: 0x01 :: (List.replicate padding 0xff ++ 0x00 :: digestInfoOf content parameters hash))) =
      true := by
  have hlevel := table.level_lt o
  have hhashlen := (crypto.length_hash hhasher hhash).trans_le (hasherHashSize_le algorithm)
  have hinfo := length_digestInfoOf (by omega : content.length ≤ 32) hparams hhashlen
  have hne : digestInfoOf content parameters hash ≠ [] := by
    rw [← List.length_pos_iff]
    omega
  have hrun := run_digestInfoOf hhasher hhash halg ho hcontent
    (by omega : (digestInfoOf content parameters hash).length < 2 ^ 24)
  rw [verify_padded hne halg hk]
  simp only [hrun, Option.get_some, Bool.and_self]

/-- **What is built is accepted.** -/
theorem verify_built (halg : algorithm ≠ .unknown) {signature : Chunk}
    (h : buildEmsaPkcs1Signature this table crypto algorithm data = some (some signature)) :
    verifyEmsaPkcs1Signature this table crypto algorithm data signature = true := by
  unfold buildEmsaPkcs1Signature at h
  split at h
  · cases h
  rename_i digestInfo hinfo
  split_ifs at h with hlong hshort
  · cases h
  obtain rfl := Option.some.inj (Option.some.inj h)
  obtain ⟨o, hasher, hash, content, ho, hhasher, hhash, hknown, hlen, rfl⟩ :=
    exists_of_buildDigestInfo halg hinfo
  have hlevel := table.level_lt o
  have hhashlen := (crypto.length_hash hhasher hhash).trans_le (hasherHashSize_le algorithm)
  have hinfolen := length_digestInfoOf (by omega : content.length ≤ 32)
    (by decide : nullParameters.length ≤ 2) hhashlen
  have hnull : nullParameters.length = 2 := by decide
  have hsize := this.size_lt
  have hk : this.k = (n.size + 7) / 8 := rfl
  rw [sizeSub_eq (by omega) (by omega)] at hlong
  rw [padDigestInfo_eq (by omega)]
  exact verify_digestInfoOf hhasher hhash halg ho hknown hlen (by decide) (by omega)

theorem digestInfoOf_inj {content content' parameters parameters' hash hash' : Chunk}
    (hcontent : content.length ≤ 32) (hcontent' : content'.length ≤ 32)
    (hparams : parameters.length ≤ 2) (hparams' : parameters'.length ≤ 2) (hhash : hash.length ≤ 64)
    (hhash' : hash'.length ≤ 64)
    (h : digestInfoOf content parameters hash = digestInfoOf content' parameters' hash') :
    parameters = parameters' := by
  have hinfo := length_digestInfoOf hcontent hparams hhash
  have hinfo' := length_digestInfoOf hcontent' hparams' hhash'
  rw [← List.append_nil (digestInfoOf content parameters hash), ← List.append_nil
    (digestInfoOf content' parameters' hash'), digestInfoOf, digestInfoOf] at h
  rw [digestInfoOf, length_simpleObject] at hinfo hinfo'
  obtain ⟨hsequence, -⟩ := asn1SimpleObject_inj (by omega) (by omega) h
  rw [List.length_append, length_simpleObject asn1Sequence] at hinfo hinfo'
  obtain ⟨hidentifier, -⟩ := asn1SimpleObject_inj (by omega) (by omega) hsequence
  exact (asn1SimpleObject_inj (by omega) (by omega) hidentifier).2

/-- An encoding without parameters is accepted, but not the one that the signer makes. -/
theorem not_exact {hasher : Hasher} {hash : Chunk} {o : KnownOid}
    (hhasher : crypto.createHasher algorithm = some hasher) (hhash : hasher.getHash data = some hash)
    (halg : algorithm ≠ .unknown) (ho : o.hash = algorithm)
    (hk : 12 + levelAt table.names (table.oid o) + hasherHashSize algorithm ≤ this.k) :
    ¬ Pkcs1Exact this table crypto algorithm data := by
  intro hexact
  obtain ⟨content, -, hlen, hknown⟩ := exists_build table o
  have hlevel := table.level_lt o
  have hhashlen := crypto.length_hash hhasher hhash
  have hle := hasherHashSize_le algorithm
  have hinfolen := length_digestInfoOf (by omega : content.length ≤ 32)
    (by decide : ([] : Chunk).length ≤ 2) (by omega : hash.length ≤ 64)
  rw [List.length_nil] at hinfolen
  obtain ⟨padding, hpadding⟩ := Nat.exists_eq_add_of_le hk
  have hemlen : padding + (digestInfoOf content [] hash).length + 3 = this.k := by omega
  have hverify := verify_digestInfoOf hhasher hhash halg ho hknown hlen (by decide) hemlen
  obtain ⟨digestInfo, hbuild, -, hrecover⟩ := hexact.accepted _ hverify
  rw [RsaKey.rsavp1_padded ((length_padded _ _).trans hemlen)] at hrecover
  obtain ⟨o', hasher', hash', content', -, hhasher', hhash', -, hlen', rfl⟩ :=
    exists_of_buildDigestInfo halg hbuild
  have hlevel' := table.level_lt o'
  have hhashlen' := (crypto.length_hash hhasher' hhash').trans_le (hasherHashSize_le algorithm)
  -- the same padding ends before the same DigestInfo
  have hskip := congrArg (fun em : Chunk => skipPadding (em.drop 2)) hrecover
  simp only [List.drop_succ_cons, List.drop_zero, skipPadding_replicate, Option.some.injEq] at hskip
  have hparams := digestInfoOf_inj (by omega) (by omega) (by decide) (by decide) (by omega) (by omega)
    hskip
  exact absurd hparams (by decide)

/-- **When only the one encoding is accepted**: the hash cannot be made, or the modulus has fewer bytes
than any DigestInfo with an OID of the algorithm needs, so that no signature is accepted. -/
theorem pkcs1_exact (this : RsaKey n) (table : OidTable) (crypto : HasherFactory)
    {algorithm : HashAlgorithm} (halg : algorithm ≠ .unknown) (data : Chunk) :
    Pkcs1Exact this table crypto algorithm data ↔
      ∀ (o : KnownOid) hasher hash, o.hash = algorithm → crypto.createHasher algorithm = some hasher →
        hasher.getHash data = some hash →
        this.k < 12 + levelAt table.names (table.oid o) + hasherHashSize algorithm := by
  constructor
  · intro hexact o hasher hash ho hhasher hhash
    by_contra hk
    exact not_exact hhasher hhash halg ho (not_lt.mp hk) hexact
  · intro hshort
    refine ⟨fun signature hverify => ?_, fun signature => verify_built halg⟩
    obtain ⟨o, hasher, hash, ho, hhasher, hhash, hle⟩ := length_of_verify halg hverify
    exact absurd (hshort o hasher hash ho hhasher hhash) (not_lt.mpr hle)

/-- The key of exponents one with a modulus of `m + 1` bits -/
def bitsKey (m : ℕ) (hm : 0 < m ∧ m < 2 ^ 62) : RsaKey (2 ^ m + 1) :=
  identityKey (2 ^ m + 1) (by have := Nat.one_lt_two_pow hm.1.ne'; omega)
    (by rw [size_pow_add_one hm.1]; omega)

theorem k_bitsKey (m : ℕ) (hm : 0 < m ∧ m < 2 ^ 62) : (bitsKey m hm).k = (m + 8) / 8 := by
  rw [RsaKey.k, size_pow_add_one hm.1]

/-- A key of 256 bits is too short for SHA-256. -/
theorem pkcs1_exact_256 :
    Pkcs1Exact (bitsKey 255 (by omega)) oidTable zeroHashers .sha256 [] := by
  refine (pkcs1_exact (bitsKey 255 (by omega)) oidTable zeroHashers (by decide) []).mpr ?_
  intro o hasher hash ho _ _
  rw [k_bitsKey]
  have hsize : hasherHashSize .sha256 = 32 := rfl
  omega

/-- With a key of 1024 bits, more than the one encoding is accepted. -/
theorem not_pkcs1_exact :
    ¬ Pkcs1Exact (bitsKey 1023 (by omega)) oidTable zeroHashers .sha256 [] := by
  refine not_exact (o := KnownOid.sha256) rfl rfl (by decide) rfl ?_
  rw [k_bitsKey]
  decide

end StrongSwan
