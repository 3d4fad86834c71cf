import StrongSwan.Crypto.RsaPss
import Mathlib

/-!
# What the two halves of RSASSA-PSS agree on

The signature is built on an encoding in as many bytes as one bit less than the modulus needs; the
verification looks for an encoding in as many bytes as the modulus has. The two differ for a modulus
with one bit in its first byte. A salt given for the signature may have another length than the
verification expects.

* `PssAgrees`: what is built is accepted, what is accepted is an encoding of the message, and the
  verification stays in the encoding it recovered.
* **`pss_agrees`**: when they agree, for every hash, mask generation function and RSA permutation.
-/

namespace StrongSwan

/-- `em` is the EMSA-PSS encoding of `data` over one bit less than the modulus has, for some salt of
the expected length, with the byte before it that the modulus may have more. -/
def PssEncodes (n : ℕ) (crypto : PssFactory) (params : RsaPssParams) (data em : Chunk) : Prop :=
  ∃ xof hasher mHash mgf salt enc, xofMgf1FromHashAlgorithm params.mgf1Hash = some xof ∧
    crypto.createHasher params.hash = some hasher ∧ hasher.getHash data = some mHash ∧
    crypto.createXof xof = some mgf ∧ salt.length = params.expectedSaltLen mHash.length ∧
    emsaPssEncode hasher mgf ((n.size - 1 + 7) / 8) (n.size - 1) mHash salt = some enc ∧
    em = List.replicate ((n.size + 7) / 8 - enc.length) 0 ++ enc

/-- Signer and verifier agree on `data`. -/
structure PssAgrees {n : ℕ} (this : RsaKey n) (crypto : PssFactory) (params : RsaPssParams)
    (data : Chunk) : Prop where
  built : ∀ signature, buildEmsaPssSignature this crypto params data = some signature →
    verifyEmsaPssSignature this crypto params data signature = some true
  accepted : ∀ signature, verifyEmsaPssSignature this crypto params data signature = some true →
    PssEncodes n crypto params data (this.rsavp1 signature)
  bounds : ∀ signature, verifyEmsaPssSignature this crypto params data signature ≠ none

/-- A salt of `saltLen` bytes fits the encoding. -/
def PssFits (n : ℕ) (params : RsaPssParams) (saltLen : ℕ) : Prop :=
  hasherHashSize params.hash + saltLen + 2 ≤ (n.size - 1 + 7) / 8

/-- The modulus lengths and parameters for which the two halves do the same. -/
structure PssSound (n : ℕ) (params : RsaPssParams) : Prop where
  size_mod : PssFits n params (params.expectedSaltLen (hasherHashSize params.hash)) → n.size % 8 ≠ 1
  /-- The padding can be counted by an `int`. -/
  padding_lt : PssFits n params (params.expectedSaltLen (hasherHashSize params.hash)) →
    (n.size - 1 + 7) / 8 <
      2 ^ 31 + 1 + hasherHashSize params.hash + params.expectedSaltLen (hasherHashSize params.hash)
  salt_eq : PssFits n params (params.usedSaltLen (hasherHashSize params.hash)) →
    params.usedSaltLen (hasherHashSize params.hash) =
      params.expectedSaltLen (hasherHashSize params.hash)

section

variable {n : ℕ} {this : RsaKey n} {crypto : PssFactory} {params : RsaPssParams} {data : Chunk}

theorem verify_cases (this : RsaKey n) (crypto : PssFactory) (params : RsaPssParams)
    (data signature : Chunk) :
    verifyEmsaPssSignature this crypto params data signature = some false ∨
      ∃ xof hasher mHash, xofMgf1FromHashAlgorithm params.mgf1Hash = some xof ∧
        crypto.createHasher params.hash = some hasher ∧ hasher.getHash data = some mHash ∧
        (this.rsavp1 signature).length = this.k ∧
        verifyEmsaPssSignature this crypto params data signature =
          checkEncoding hasher (crypto.createXof xof) (n.size - 1)
            (params.expectedSaltLen mHash.length) mHash (this.rsavp1 signature) := by
  unfold verifyEmsaPssSignature
  obtain hxof | ⟨xof, hxof⟩ := Option.eq_none_or_eq_some (xofMgf1FromHashAlgorithm params.mgf1Hash)
  · simp only [hxof, true_or]
  simp only [hxof]
  split_ifs with hlen hem
  · exact .inl rfl
  · exact .inl rfl
  obtain hhasher | ⟨hasher, hhasher⟩ := Option.eq_none_or_eq_some (crypto.createHasher params.hash)
  · simp only [hhasher, true_or]
  obtain hhash | ⟨mHash, hhash⟩ := Option.eq_none_or_eq_some (hasher.getHash data)
  · simp only [hhasher, hhash, true_or]
  refine .inr ⟨xof, hasher, mHash, rfl, hhasher, hhash, ?_, ?_⟩
  · exact this.length_rsavp1 signature fun h => hem (by rw [h, List.length_nil])
  · simp only [hhasher, hhash]

theorem verify_eq (this : RsaKey n) (crypto : PssFactory) (params : RsaPssParams) (data : Chunk)
    {xof : ExtOutFunction} {hasher : Hasher} {mHash signature : Chunk}
    (hxof : xofMgf1FromHashAlgorithm params.mgf1Hash = some xof)
    (hhasher : crypto.createHasher params.hash = some hasher)
    (hhash : hasher.getHash data = some mHash) (hne : signature ≠ [])
    (hle : signature.length ≤ this.k) (hem : this.rsavp1 signature ≠ []) :
    verifyEmsaPssSignature this crypto params data signature =
      checkEncoding hasher (crypto.createXof xof) (n.size - 1)
        (params.expectedSaltLen mHash.length) mHash (this.rsavp1 signature) := by
  have hlen : ¬ (signature.length = 0 ∨ signature.length > this.k) := by
    rw [List.length_eq_zero_iff]
    exact not_or.mpr ⟨hne, not_lt.mpr hle⟩
  have hem' : ¬ (this.rsavp1 signature).length = 0 := List.length_eq_zero_iff.not.mpr hem
  unfold verifyEmsaPssSignature
  simp only [hxof, hlen, hem', hhasher, hhash, if_false]

/-! ## Encodings below the modulus -/

theorem value_lt_of_clear {m : ℕ} {db : Chunk} (rest : Chunk) (hm : m ≤ 8) (hne : db ≠ [])
    (hclear : clearUnused m db = db) :
    Bytes.value (db ++ rest) < 2 ^ (8 * (db.length + rest.length) - m) := by
  obtain ⟨b, db, rfl⟩ := List.exists_cons_of_ne_nil hne
  rw [clearUnused_cons, List.cons.injEq] at hclear
  have hb := toNat_lt_of_and b hm hclear.1
  have hrest := Bytes.value_lt (db ++ rest)
  have hpow : 2 ^ (8 * ((b :: db).length + rest.length) - m) =
      2 ^ (8 - m) * 256 ^ (db ++ rest).length := by
    rw [show 256 = 2 ^ 8 by rfl, ← pow_mul, ← pow_add]
    congr 1
    rw [List.length_append, List.length_cons]
    omega
  rw [hpow, List.cons_append, Bytes.value_cons]
  calc b.toNat * 256 ^ (db ++ rest).length + Bytes.value (db ++ rest)
      < b.toNat * 256 ^ (db ++ rest).length + 256 ^ (db ++ rest).length := by omega
    _ = (b.toNat + 1) * 256 ^ (db ++ rest).length := by ring
    _ ≤ 2 ^ (8 - m) * 256 ^ (db ++ rest).length := Nat.mul_le_mul_right _ hb

/-- **Encodings are numbers below the modulus**, other than zero. -/
theorem value_encode {hasher : Hasher} {mgf : Xof} {emLen padding : ℕ} {mHash salt em : Chunk}
    (hhash : ∀ {input hash}, hasher.getHash input = some hash → hash.length = mHash.length)
    (hlen : emLen = mHash.length + salt.length + padding + 2) (hm : 8 * emLen - (n.size - 1) ≤ 8)
    (hbits : n.size - 1 ≤ 8 * emLen)
    (hencode : emsaPssEncode hasher mgf emLen (n.size - 1) mHash salt = some em) :
    Bytes.value em ≠ 0 ∧ Bytes.value em < 2 ^ (n.size - 1) := by
  have hemlen := length_of_encode hhash hlen hencode
  obtain ⟨h, mask, hh, hmask, rfl⟩ := (emsaPssEncode_some hlen).mp hencode
  constructor
  · intro hzero
    have := Bytes.value_eq_zero_iff.mp hzero 0xbc (by simp)
    exact absurd this (by decide)
  · have hne : clearUnused (8 * emLen - (n.size - 1)) (memxor (pssDataBlock padding salt) mask) ≠
        [] := by
      rw [← List.length_pos_iff, length_clearUnused, memxor, List.length_zipWith,
        length_pssDataBlock, mgf.length_getBytes hmask]
      omega
    have hlt := value_lt_of_clear (h ++ [0xbc]) hm hne (clearUnused_clearUnused _ _)
    rw [← List.append_assoc, ← List.length_append, ← List.append_assoc, hemlen,
      show 8 * emLen - (8 * emLen - (n.size - 1)) = n.size - 1 by omega] at hlt
    exact hlt

theorem rsavp1_encode (this : RsaKey n) {hasher : Hasher} {mgf : Xof} {emLen padding : ℕ}
    {mHash salt em : Chunk}
    (hhash : ∀ {input hash}, hasher.getHash input = some hash → hash.length = mHash.length)
    (hlen : emLen = mHash.length + salt.length + padding + 2) (hm : 8 * emLen - (n.size - 1) ≤ 8)
    (hbits : n.size - 1 ≤ 8 * emLen) (hk : emLen ≤ this.k)
    (hencode : emsaPssEncode hasher mgf emLen (n.size - 1) mHash salt = some em) :
    this.rsasp1 em ≠ [] ∧ (this.rsasp1 em).length ≤ this.k ∧
      this.rsavp1 (this.rsasp1 em) = List.replicate (this.k - emLen) 0 ++ em := by
  obtain ⟨hne, hlt⟩ := value_encode hhash hlen hm hbits hencode
  have hlt' := hlt.trans_le this.pow_le
  have hemlen := length_of_encode hhash hlen hencode
  refine ⟨this.rsasp1_ne_nil hne hlt', this.length_rsasp1_le em, ?_⟩
  rw [this.rsavp1_rsasp1 hne hlt', Bytes.ofNat_value_of_le (by omega), hemlen]

end

/-! ## Where they agree -/

theorem agrees_of_no_xof {n : ℕ} {params : RsaPssParams}
    (hxof : xofMgf1FromHashAlgorithm params.mgf1Hash = none) (this : RsaKey n) (crypto : PssFactory)
    (data : Chunk) : PssAgrees this crypto params data := by
  have hverify : ∀ signature,
      verifyEmsaPssSignature this crypto params data signature = some false := by
    intro signature
    unfold verifyEmsaPssSignature
    simp only [hxof]
  refine ⟨fun signature hbuild => ?_, fun signature haccept => ?_, fun signature => ?_⟩
  · obtain ⟨xof, -, -, -, -, -, hsome, -⟩ := build_some hbuild
    rw [hxof] at hsome
    cases hsome
  · rw [hverify] at haccept
    cases haccept
  · rw [hverify]
    simp

section

variable {n : ℕ} {params : RsaPssParams} (hsound : PssSound n params) (this : RsaKey n)
  (crypto : PssFactory) (data : Chunk)

include hsound

theorem PssSound.padding_k {padding : ℕ}
    (hlen : this.k = hasherHashSize params.hash +
      params.expectedSaltLen (hasherHashSize params.hash) + padding + 2) : padding + 1 < 2 ^ 31 := by
  have hsize := this.size_pos
  unfold RsaKey.k at hlen
  by_cases hfit : PssFits n params (params.expectedSaltLen (hasherHashSize params.hash))
  · have hmod := hsound.size_mod hfit
    have hpadding := hsound.padding_lt hfit
    omega
  · unfold PssFits at hfit
    omega

theorem PssSound.bounds (signature : Chunk) :
    verifyEmsaPssSignature this crypto params data signature ≠ none := by
  obtain hfalse | ⟨xof, hasher, mHash, hxof, hhasher, hhash, hlen, heq⟩ :=
    verify_cases this crypto params data signature
  · simp [hfalse]
  have hm : mHash.length = hasherHashSize params.hash := crypto.length_hash hhasher hhash
  have hle : mHash.length ≤ 64 := hm.trans_le (hasherHashSize_le _)
  have hsalt := params.expectedSaltLen_lt hle
  have hsize := this.size_lt
  have hlt : (this.rsavp1 signature).length < 2 ^ 64 := by
    rw [hlen]
    unfold RsaKey.k
    omega
  rw [heq]
  by_cases hshort : this.k < mHash.length + params.expectedSaltLen mHash.length + 2
  · rw [checkEncoding_of_lt hle hsalt (by omega)]
    simp
  · obtain ⟨padding, hpadding⟩ := Nat.exists_eq_add_of_le (not_lt.mp hshort)
    have hemlen : (this.rsavp1 signature).length =
        mHash.length + params.expectedSaltLen mHash.length + padding + 2 := by omega
    refine checkEncoding_ne_none hle hsalt hlt hemlen ?_
    rw [hm] at hpadding
    exact hsound.padding_k this (by omega)

theorem PssSound.accepted (signature : Chunk)
    (hverify : verifyEmsaPssSignature this crypto params data signature = some true) :
    PssEncodes n crypto params data (this.rsavp1 signature) := by
  obtain hfalse | ⟨xof, hasher, mHash, hxof, hhasher, hhash, hlen, heq⟩ :=
    verify_cases this crypto params data signature
  · rw [hfalse] at hverify
    cases hverify
  have hm : mHash.length = hasherHashSize params.hash := crypto.length_hash hhasher hhash
  have hle : mHash.length ≤ 64 := hm.trans_le (hasherHashSize_le _)
  have hsize := this.size_lt
  have hsize' := this.size_pos
  have hk : this.k = (n.size + 7) / 8 := rfl
  rw [heq] at hverify
  obtain ⟨mgf, salt, hmgf, hsaltlen, hfit, hencode, hclear⟩ :=
    checkEncoding_true hle (params.expectedSaltLen_lt hle) (by omega) (by omega) hverify
  rw [hlen] at hfit hencode hclear
  by_cases hmod : n.size % 8 = 1
  · -- without room for a salt in the encoding that is signed, the first byte is the one to be cleared
    have hnofit := mt hsound.size_mod (not_not.mpr hmod)
    rw [PssFits, ← hm] at hnofit
    rw [show this.k - mHash.length - params.expectedSaltLen mHash.length - 2 = 0 by omega,
      show 8 * this.k - (n.size - 1) = 8 by omega, pssDataBlock, List.replicate_zero,
      List.nil_append, List.singleton_append, clearUnused_cons, List.cons.injEq] at hclear
    exact absurd hclear.1 (by decide)
  · have hemlen : this.k = (n.size - 1 + 7) / 8 := by omega
    rw [hemlen] at hencode hlen
    refine ⟨xof, hasher, mHash, mgf, salt, _, hxof, hhasher, hhash, hmgf, hsaltlen, hencode, ?_⟩
    rw [hlen, ← hemlen, hk, Nat.sub_self, List.replicate_zero, List.nil_append]

theorem PssSound.built (signature : Chunk)
    (hbuild : buildEmsaPssSignature this crypto params data = some signature) :
    verifyEmsaPssSignature this crypto params data signature = some true := by
  obtain ⟨xof, hasher, mHash, mgf, salt, em, hxof, hhasher, hhash, hmgf, hsaltlen, hencode, rfl⟩ :=
    build_some hbuild
  have hm : mHash.length = hasherHashSize params.hash := crypto.length_hash hhasher hhash
  have hle : mHash.length ≤ 64 := hm.trans_le (hasherHashSize_le _)
  have hhashes : ∀ {input hash}, hasher.getHash input = some hash → hash.length = mHash.length :=
    fun h => (crypto.length_hash hhasher h).trans hm.symm
  have hsize := this.size_lt
  have hsize' := this.size_pos
  have hk : this.k = (n.size + 7) / 8 := rfl
  obtain ⟨padding, hpadding⟩ := emsaPssEncode_fits hencode
  have hused : PssFits n params (params.usedSaltLen (hasherHashSize params.hash)) := by
    rw [PssFits, ← hm]
    omega
  have hsalteq := hsound.salt_eq hused
  rw [hsalteq] at hused
  have hmod := hsound.size_mod hused
  rw [hm, hsalteq] at hsaltlen
  have hover : padding + 1 < 2 ^ 31 := hsound.padding_k this (by omega)
  rw [← hm] at hsaltlen
  obtain ⟨hne, hlesig, hrecover⟩ := rsavp1_encode this hhashes hpadding (by omega)
    (by omega) (by omega) hencode
  rw [show this.k - (n.size - 1 + 7) / 8 = 0 by omega, List.replicate_zero, List.nil_append]
    at hrecover
  have hemlen := length_of_encode hhashes hpadding hencode
  rw [verify_eq this crypto params data hxof hhasher hhash hne hlesig
    (by rw [hrecover, ← List.length_pos_iff]; omega),
    hrecover, hmgf]
  obtain ⟨h, hh, hcheck⟩ := checkEncoding_eq_checkDb 
    hhashes hle hpadding (params.expectedSaltLen_lt hle) (by omega) (by omega) (by omega) hencode
  rw [hcheck, hsaltlen, Nat.add_sub_cancel]
  exact checkDb_of_eq hsaltlen hover rfl hh

end

/-! ## Where they differ -/

/-- The mask that changes the first byte by `b`. -/
def firstByteMask (b : U8) : Xof where
  getBytes _ len := some ((b :: List.replicate len 0).take len)
  length_getBytes h := by
    cases h
    simp

/-- Hashes without entropy, and masks that change the first byte by `b`. -/
def maskFactory (b : U8) : PssFactory where
  toHasherFactory := zeroHashers
  createXof _ := some (firstByteMask b)
  rngBytes len := some (List.replicate len 0)
  length_rngBytes h := by
    cases h
    exact List.length_replicate

theorem memxor_mask (b x : U8) (db : Chunk) :
    memxor (x :: db) ((b :: List.replicate (db.length + 1) 0).take (db.length + 1)) =
      (x ^^^ b) :: db := by
  have htail : ∀ (len : ℕ) (db : Chunk), db.length ≤ len →
      List.zipWith (· ^^^ ·) db (List.replicate len (0 : U8)) = db := by
    intro len db
    induction db generalizing len with
    | nil => simp
    | cons c db ih =>
      intro hlen
      obtain _ | len := len
      · simp at hlen
      rw [List.replicate_succ, List.zipWith_cons_cons, ih len (by simpa using hlen)]
      simp
  rw [List.take_succ_cons, List.take_replicate, Nat.min_eq_left (by omega), memxor,
    List.zipWith_cons_cons, htail _ db le_rfl]

/-- The encoding under such a mask, in which `m` bits are not used. -/
def maskEncoding (b : U8) (m : ℕ) (alg : HashAlgorithm) (padding : ℕ) (salt : Chunk) : Chunk :=
  clearUnused m ((pssDataBlock padding salt).modifyHead (· ^^^ b)) ++
    List.replicate (hasherHashSize alg) 0 ++ [0xbc]

section

variable {n : ℕ} {params : RsaPssParams} {xof : ExtOutFunction} {emLen embits padding : ℕ} {b : U8}
  {mHash salt em data : Chunk}

theorem encode_mask {alg : HashAlgorithm} (hlen : emLen = mHash.length + salt.length + padding + 2) :
    emsaPssEncode (zeroHasher alg) (firstByteMask b) emLen embits mHash salt = some em ↔
      em = maskEncoding b (8 * emLen - embits) alg padding salt := by
  obtain ⟨x, db, hdb⟩ := List.exists_cons_of_length_pos
    (by rw [length_pssDataBlock]; omega : 0 < (pssDataBlock padding salt).length)
  have hdblen : db.length + 1 = padding + 1 + salt.length := by
    rw [← length_pssDataBlock, hdb, List.length_cons]
  rw [emsaPssEncode_some hlen, maskEncoding]
  simp only [zeroHasher, firstByteMask, Option.some.injEq, hdb, ← hdblen, List.modifyHead_cons]
  constructor
  · rintro ⟨h, mask, rfl, rfl, rfl⟩
    rw [memxor_mask]
  · rintro rfl
    exact ⟨_, _, rfl, rfl, by rw [memxor_mask]⟩

theorem length_maskEncoding (b : U8) (m : ℕ) (alg : HashAlgorithm) (padding : ℕ) (salt : Chunk) :
    (maskEncoding b m alg padding salt).length =
      hasherHashSize alg + salt.length + padding + 2 := by
  simp [maskEncoding]
  omega

theorem maskEncoding_zero {m : ℕ} {alg : HashAlgorithm} (hm : m ≤ 7) :
    maskEncoding 0 m alg padding salt =
      pssDataBlock padding salt ++ List.replicate (hasherHashSize alg) 0 ++ [0xbc] := by
  have hid : (pssDataBlock padding salt).modifyHead (· ^^^ 0) = pssDataBlock padding salt := by
    obtain _ | ⟨x, db⟩ := pssDataBlock padding salt
    · rfl
    · rw [List.modifyHead_cons, show x ^^^ 0 = x from BitVec.xor_zero]
  rw [maskEncoding, hid, clearUnused_pssDataBlock (.inl hm)]

theorem pssEncodes_mask (h : PssEncodes n (maskFactory b) params data em) :
    ∃ salt padding, salt.length = params.expectedSaltLen (hasherHashSize params.hash) ∧
      (n.size - 1 + 7) / 8 = hasherHashSize params.hash + salt.length + padding + 2 ∧
      em = List.replicate ((n.size + 7) / 8 - (n.size - 1 + 7) / 8) 0 ++
        maskEncoding b (8 * ((n.size - 1 + 7) / 8) - (n.size - 1)) params.hash padding salt := by
  obtain ⟨xof, hasher, mHash, mgf, salt, enc, -, hhasher, hhash, hmgf, hsalt, hencode, rfl⟩ := h
  have hm := (maskFactory b).length_hash hhasher hhash
  cases hhasher
  cases hmgf
  obtain ⟨padding, hlen⟩ := emsaPssEncode_fits hencode
  obtain rfl := (encode_mask hlen).mp hencode
  rw [hm] at hlen hsalt
  refine ⟨salt, padding, hsalt, hlen, ?_⟩
  rw [length_maskEncoding, ← hlen]

theorem exists_verify (this : RsaKey n) (b : U8)
    (hxof : xofMgf1FromHashAlgorithm params.mgf1Hash = some xof)
    (hsalt : salt.length = params.expectedSaltLen (hasherHashSize params.hash))
    (hlen : this.k = hasherHashSize params.hash + salt.length + padding + 2)
    (hm : 8 * this.k - (n.size - 1) ≤ 7 ∨ 8 * this.k - (n.size - 1) ≤ 8 ∧ 0 < padding) :
    ∃ signature, this.rsavp1 signature =
        maskEncoding b (8 * this.k - (n.size - 1)) params.hash padding salt ∧
      verifyEmsaPssSignature this (maskFactory b) params [] signature =
        checkDb (zeroHasher params.hash) salt.length (List.replicate (hasherHashSize params.hash) 0)
          (List.replicate (hasherHashSize params.hash) 0) (pssDataBlock padding salt) padding := by
  have hsize := this.size_lt
  have hsize' := this.size_pos
  have hk : this.k = (n.size + 7) / 8 := rfl
  have hle := hasherHashSize_le params.hash
  have hsaltlt := params.expectedSaltLen_lt hle
  obtain ⟨mHash, hmHash⟩ : ∃ mHash : Chunk, mHash = List.replicate (hasherHashSize params.hash) 0 :=
    ⟨_, rfl⟩
  have hmlen : mHash.length = hasherHashSize params.hash := by rw [hmHash, List.length_replicate]
  have hhashes : ∀ {input hash}, (zeroHasher params.hash).getHash input = some hash →
      hash.length = mHash.length := fun h => (zeroHasher_length h).trans hmlen.symm
  rw [← hmlen] at hlen hle
  have hencode : emsaPssEncode (zeroHasher params.hash) (firstByteMask b) this.k (n.size - 1) mHash
      salt = some (maskEncoding b (8 * this.k - (n.size - 1)) params.hash padding salt) :=
    (encode_mask hlen).mpr rfl
  obtain ⟨hne, hlesig, hrecover⟩ := rsavp1_encode this hhashes hlen (by omega) (by omega) le_rfl
    hencode
  rw [Nat.sub_self, List.replicate_zero, List.nil_append] at hrecover
  obtain ⟨h, hh, hcheck⟩ := checkEncoding_eq_checkDb hhashes hle hlen (by omega : salt.length < 2 ^ 63)
    (by omega) (by omega) hm hencode
  cases hh
  have hverify := verify_eq this (maskFactory b) params [] hxof rfl
    (by rw [hmHash]; rfl : (zeroHasher params.hash).getHash [] = some mHash) hne hlesig
    (by rw [hrecover, ← List.length_pos_iff, length_maskEncoding]; omega)
  rw [Nat.add_sub_cancel, ← hmHash] at hcheck
  refine ⟨_, hrecover, ?_⟩
  rw [hverify, hrecover, hmlen, ← hsalt, ← hmHash]
  exact hcheck

end

section

variable {n : ℕ} {params : RsaPssParams} {xof : ExtOutFunction} (hn : 1 < n)
  (hsize : n.size < 2 ^ 63) (hxof : xofMgf1FromHashAlgorithm params.mgf1Hash = some xof)

include hxof

/-- **The padding can be counted**, for an encoding as long as the modulus. -/
theorem padding_of_agrees {b : U8} {padding : ℕ}
    (hagree : PssAgrees (identityKey n hn hsize) (maskFactory b) params [])
    (hlen : (n.size + 7) / 8 = hasherHashSize params.hash +
      params.expectedSaltLen (hasherHashSize params.hash) + padding + 2)
    (hpadding : n.size % 8 ≠ 1 ∨ 0 < padding) : padding + 1 < 2 ^ 31 := by
  let this := identityKey n hn hsize
  have hk : this.k = (n.size + 7) / 8 := rfl
  have hsize' := this.size_pos
  by_contra hover
  obtain ⟨salt, hsalt⟩ : ∃ salt : Chunk,
      salt.length = params.expectedSaltLen (hasherHashSize params.hash) :=
    ⟨List.replicate _ 0, List.length_replicate⟩
  have hlen' : this.k = hasherHashSize params.hash + salt.length + padding + 2 := by omega
  obtain ⟨signature, -, hverify⟩ := exists_verify this b hxof hsalt hlen'
    (by rcases hpadding with hmod | hpos <;> omega)
  rw [checkDb_eq_none (by omega) rfl] at hverify
  exact hagree.bounds signature hverify

/-- **No byte is missing** where hash and salt fit. -/
theorem size_mod_of_agrees
    (hagree : PssAgrees (identityKey n hn hsize) (maskFactory 1) params [])
    (hfit : PssFits n params (params.expectedSaltLen (hasherHashSize params.hash))) :
    n.size % 8 ≠ 1 := by
  let this := identityKey n hn hsize
  have hk : this.k = (n.size + 7) / 8 := rfl
  have hsize' := this.size_pos
  intro hmod
  obtain ⟨padding, hpadding⟩ := Nat.exists_eq_add_of_le hfit
  obtain ⟨salt, hsalt⟩ : ∃ salt : Chunk,
      salt.length = params.expectedSaltLen (hasherHashSize params.hash) :=
    ⟨List.replicate _ 0, List.length_replicate⟩
  have hlen : this.k = hasherHashSize params.hash + salt.length + (padding + 1) + 2 := by omega
  have hover : padding + 1 + 1 < 2 ^ 31 :=
    padding_of_agrees hn hsize hxof hagree (by omega) (.inr (by omega))
  obtain ⟨signature, hrecover, hverify⟩ := exists_verify this 1 hxof hsalt hlen (by omega)
  rw [checkDb_of_eq rfl hover rfl rfl] at hverify
  obtain ⟨salt', padding', hsalt', hlen', hem⟩ :=
    pssEncodes_mask (hagree.accepted signature hverify)
  obtain rfl : padding = padding' := by omega
  rw [hrecover, show 8 * this.k - (n.size - 1) = 8 by omega,
    show (n.size + 7) / 8 - (n.size - 1 + 7) / 8 = 1 by omega,
    show 8 * ((n.size - 1 + 7) / 8) - (n.size - 1) = 0 by omega, maskEncoding, maskEncoding,
    pssDataBlock, pssDataBlock, List.replicate_succ] at hem
  -- the second byte is the first of the data block, masked only by the signer
  have hsecond := congrArg (fun em : Chunk => em[1]?) hem
  obtain _ | padding := padding
  · simp at hsecond
  · simp [List.replicate_succ] at hsecond

/-- **A given salt that fits has the expected length.** -/
theorem salt_of_agrees
    (hagree : PssAgrees (identityKey n hn hsize) (maskFactory 0) params [])
    (hfit : PssFits n params (params.usedSaltLen (hasherHashSize params.hash))) :
    params.usedSaltLen (hasherHashSize params.hash) =
      params.expectedSaltLen (hasherHashSize params.hash) := by
  let this := identityKey n hn hsize
  have hk : this.k = (n.size + 7) / 8 := rfl
  have hsize' := this.size_pos
  obtain ⟨salt, hsalt⟩ : ∃ salt, params.chooseSalt (maskFactory 0)
      (params.usedSaltLen (hasherHashSize params.hash)) = some salt := by
    unfold RsaPssParams.chooseSalt
    split_ifs
    · exact ⟨_, rfl⟩
    · exact ⟨_, rfl⟩
  have hsaltlen := length_chooseSalt hsalt
  obtain ⟨padding, hpadding⟩ := Nat.exists_eq_add_of_le hfit
  obtain ⟨mHash, hmHash⟩ : ∃ mHash : Chunk, mHash = List.replicate (hasherHashSize params.hash) 0 :=
    ⟨_, rfl⟩
  have hmlen : mHash.length = hasherHashSize params.hash := by rw [hmHash, List.length_replicate]
  have hlen : (n.size - 1 + 7) / 8 = mHash.length + salt.length + padding + 2 := by omega
  have hhashes : ∀ {input hash}, (zeroHasher params.hash).getHash input = some hash →
      hash.length = mHash.length := fun h => (zeroHasher_length h).trans hmlen.symm
  have hencode : emsaPssEncode (zeroHasher params.hash) (firstByteMask 0) ((n.size - 1 + 7) / 8)
      (n.size - 1) mHash salt = some (maskEncoding 0 (8 * ((n.size - 1 + 7) / 8) - (n.size - 1))
        params.hash padding salt) := (encode_mask hlen).mpr rfl
  have hbuild : buildEmsaPssSignature this (maskFactory 0) params [] = some (this.rsasp1 _) :=
    build_of_encode hxof rfl (by rw [hmHash]; rfl) rfl (by rw [hmlen]; exact hsalt) hencode
  obtain ⟨-, -, hrecover⟩ := rsavp1_encode this hhashes hlen (by omega) (by omega) (by omega) hencode
  have hverify := hagree.built _ hbuild
  obtain ⟨salt', padding', hsalt', hlen', hem⟩ :=
    pssEncodes_mask (hagree.accepted _ hverify)
  rw [hrecover, hk, List.append_cancel_left_eq, maskEncoding_zero (by omega),
    maskEncoding_zero (by omega), List.append_cancel_right_eq, List.append_cancel_right_eq] at hem
  have hpad := pssDataBlock_inj hem
  omega

end

/-- **When signer and verifier agree**, for every RSA permutation below `n`, hash and mask generation
function. -/
theorem pss_agrees {n : ℕ} (hn : 1 < n) (hsize : n.size < 2 ^ 63) (params : RsaPssParams) :
    (∀ (this : RsaKey n) crypto data, PssAgrees this crypto params data) ↔
      xofMgf1FromHashAlgorithm params.mgf1Hash = none ∨ PssSound n params := by
  constructor
  · intro hagree
    obtain hxof | ⟨xof, hxof⟩ := Option.eq_none_or_eq_some (xofMgf1FromHashAlgorithm params.mgf1Hash)
    · exact .inl hxof
    have hmod := size_mod_of_agrees hn hsize hxof (hagree _ _ _)
    refine .inr ⟨hmod, fun hfit => ?_, salt_of_agrees hn hsize hxof (hagree _ _ _)⟩
    obtain ⟨padding, hpadding⟩ := Nat.exists_eq_add_of_le hfit
    have hk := hmod hfit
    have hover : padding + 1 < 2 ^ 31 :=
      padding_of_agrees hn hsize hxof (hagree _ (maskFactory 0) _) (by omega) (.inl hk)
    omega
  · rintro (hxof | hsound) this crypto data
    · exact agrees_of_no_xof hxof this crypto data
    · exact ⟨hsound.built this crypto data, hsound.accepted this crypto data,
        hsound.bounds this crypto data⟩

/-- SHA-256 throughout, with salts as long as the hash -/
def sha256Params : RsaPssParams where
  hash := .sha256
  mgf1Hash := .sha256
  saltLen := -1
  salt := []
  length_salt := Nat.two_pow_pos 63

/-- With a modulus of 1024 bits they agree. -/
theorem pss_agrees_1024 :
    (2 ^ 1023 + 1).size = 1024 ∧
      ∀ (this : RsaKey (2 ^ 1023 + 1)) crypto data, PssAgrees this crypto sha256Params data := by
  have hsize : (2 ^ 1023 + 1).size = 1024 := size_pow_add_one (by omega)
  refine ⟨hsize, (pss_agrees (by norm_num) (by omega) sha256Params).mpr (.inr ⟨?_, ?_, ?_⟩)⟩
  · omega
  · rw [hsize]
    intro _
    omega
  · intro _
    rfl

/-- With a modulus of 1025 bits they do not. -/
theorem not_pss_agrees :
    ¬ PssAgrees (identityKey (2 ^ 1024 + 1) (by norm_num)
      ((size_pow_add_one (by omega : 0 < 1024)).trans_lt (by omega))) (maskFactory 1) sha256Params [] := by
  have hsize : (2 ^ 1024 + 1).size = 1025 := size_pow_add_one (by omega)
  intro hagree
  have hmod := size_mod_of_agrees _ _ (rfl : xofMgf1FromHashAlgorithm .sha256 = some .mgf1Sha256) hagree
  rw [hsize] at hmod
  refine hmod ?_ rfl
  rw [PssFits, hsize]
  decide

end StrongSwan
