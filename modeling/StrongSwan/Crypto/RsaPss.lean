import StrongSwan.Crypto.Hasher
import StrongSwan.Crypto.Rsa
import Mathlib.Tactic.IntervalCases

/-!
# RSASSA-PSS signatures

`buildEmsaPssSignature` and `verifyEmsaPssSignature` are the two halves of the scheme. Sizes are
`size_t`, the salt length of the parameters is signed; the verification returns no result if it
touches a byte outside the encoding it recovered, or overflows its `int` index.

`emsaPssEncode` is the encoding of a message by itself, in a given number of bytes and with a given
number of bits in use.

* `build_some`: what is signed is an encoding in as many bytes as its bits need.
* **`checkEncoding_true`**: what the verification accepts is an encoding in as many bytes as it
  recovered, with a salt of the length it expects.
* `checkEncoding_eq_checkDb`: of an encoding, it checks the data block.
* `checkEncoding_ne_none`: it stays in the recovered encoding.
-/

namespace StrongSwan

/-! ## Masks and random bytes -/

/-- The mask generation functions among `ext_out_function_t`. -/
inductive ExtOutFunction
  | mgf1Sha1 | mgf1Sha224 | mgf1Sha256 | mgf1Sha384 | mgf1Sha512
  deriving DecidableEq, Repr

/-- `xof_mgf1_from_hash_algorithm`; `none` is `XOF_UNDEFINED`. -/
def xofMgf1FromHashAlgorithm : HashAlgorithm → Option ExtOutFunction
  | .sha1 => some .mgf1Sha1
  | .sha224 => some .mgf1Sha224
  | .sha256 => some .mgf1Sha256
  | .sha384 => some .mgf1Sha384
  | .sha512 => some .mgf1Sha512
  | .identity | .unknown | .md2 | .md4 | .md5 | .sha3_224 | .sha3_256 | .sha3_384 | .sha3_512 => none

/-- `xof_t`: the first bytes it generates from a seed. -/
structure Xof where
  getBytes : Chunk → ℕ → Option Chunk
  length_getBytes : ∀ {seed len mask}, getBytes seed len = some mask → mask.length = len

/-- What `crypto_factory_t` creates for the scheme; `rngBytes` are the bytes of `RNG_STRONG`. -/
structure PssFactory extends HasherFactory where
  createXof : ExtOutFunction → Option Xof
  rngBytes : ℕ → Option Chunk
  length_rngBytes : ∀ {len bytes}, rngBytes len = some bytes → bytes.length = len

/-- `rsa_pss_params_t`; `saltLen` is the bits of a `ssize_t`. -/
structure RsaPssParams where
  hash : HashAlgorithm
  mgf1Hash : HashAlgorithm
  saltLen : U64
  salt : Chunk
  /-- An object in memory has fewer bytes. -/
  length_salt : salt.length < 2 ^ 63

/-- `RSA_PSS_SALT_LEN_DEFAULT` -/
def rsaPssSaltLenDefault : ℤ := -1

/-- The salt length without a given salt, for hashes of `hashLen` bytes. -/
def RsaPssParams.expectedSaltLen (params : RsaPssParams) (hashLen : ℕ) : ℕ :=
  if rsaPssSaltLenDefault < params.saltLen.toInt then params.saltLen.toNat else hashLen

/-- The length of the salt a signature is built with. -/
def RsaPssParams.usedSaltLen (params : RsaPssParams) (hashLen : ℕ) : ℕ :=
  if params.salt.length ≠ 0 then params.salt.length else params.expectedSaltLen hashLen

theorem RsaPssParams.expectedSaltLen_lt (params : RsaPssParams) {hashLen : ℕ} (h : hashLen ≤ 64) :
    params.expectedSaltLen hashLen < 2 ^ 63 := by
  unfold expectedSaltLen rsaPssSaltLenDefault
  split_ifs with hlen
  · rw [BitVec.toInt_eq_toNat_cond] at hlen
    split_ifs at hlen with hsign
    · omega
    · have := params.saltLen.isLt
      omega
  · omega

theorem RsaPssParams.usedSaltLen_lt (params : RsaPssParams) {hashLen : ℕ} (h : hashLen ≤ 64) :
    params.usedSaltLen hashLen < 2 ^ 63 := by
  unfold usedSaltLen
  split_ifs
  · exact params.length_salt
  · exact params.expectedSaltLen_lt h

/-! ## The two functions -/

/-- Clear the unused bits of the first byte. -/
def clearUnused (maskbits : ℕ) (db : Chunk) : Chunk :=
  if maskbits ≠ 0 then db.modifyHead (· &&& ((0xff : U8) >>> maskbits)) else db

/-- `DB = PS | 0x01 | salt` -/
def pssDataBlock (padding : ℕ) (salt : Chunk) : Chunk := List.replicate padding 0 ++ [0x01] ++ salt

/-- `M' = 0x0000000000000000 | mHash | salt` -/
def pssMessage (hash salt : Chunk) : Chunk := List.replicate 8 0 ++ hash ++ salt

/-- The salt of a signature: the given one, or random bytes -/
def RsaPssParams.chooseSalt (params : RsaPssParams) (crypto : PssFactory) (saltLen : ℕ) :
    Option Chunk :=
  if saltLen ≠ 0 ∧ params.salt.length = 0 then crypto.rngBytes saltLen else some params.salt

/-- Build a signature using the PKCS#1 EMSA PSS scheme -/
def buildEmsaPssSignature {n : ℕ} (this : RsaKey n) (crypto : PssFactory) (params : RsaPssParams)
    (data : Chunk) : Option Chunk := do
  let xof ← xofMgf1FromHashAlgorithm params.mgf1Hash
  let embits := n.size - 1
  let emlen := (embits + 7) / 8
  let hasher ← crypto.createHasher params.hash
  let mHash ← hasher.getHash data
  let saltLen := params.usedSaltLen mHash.length
  if emlen < (mHash.length + saltLen + 2) % 2 ^ 64 then none else
  let salt ← params.chooseSalt crypto saltLen
  let h ← hasher.getHash (pssMessage mHash salt)
  let db := pssDataBlock (emlen - salt.length - mHash.length - 2) salt
  let mgf ← crypto.createXof xof
  let dbmask ← mgf.getBytes h db.length
  let maskbits := 8 * emlen - embits
  let em := clearUnused maskbits (memxor db dbmask) ++ h ++ [0xbc]
  some (this.rsasp1 em)

/-- The `len` bytes from an offset on, if the chunk has them -/
def slice? (chunk : Chunk) (offset len : ℕ) : Option Chunk :=
  if offset + len ≤ chunk.length then some ((chunk.drop offset).take len) else none

/-- The loop over the padding of `DB`, from index `i` for `count` bytes: whether they are zero. The
index is an `int`. -/
def paddingZero (db : Chunk) : ℕ → ℕ → Option Bool
  | _, 0 => some true
  | i, count + 1 =>
    match db[i]? with
    | none => none
    | some b =>
      if b ≠ 0 then some false
      else if i + 1 < 2 ^ 31 then paddingZero db (i + 1) count
      else none

/-- The check that `DB = PS | 0x01 | salt` with `padding` bytes in `PS`, and of the hash over this
salt -/
def checkDb (hasher : Hasher) (saltLen : ℕ) (mHash h db : Chunk) (padding : ℕ) : Option Bool :=
  match paddingZero db 0 padding with
  | none => none
  | some false => some false
  | some true =>
    match db[padding]? with
    | none => none
    | some b =>
      if ¬ padding + 1 < 2 ^ 31 then none
      else if b ≠ 0x01 then some false
      else
        match slice? db (padding + 1) saltLen with
        | none => none
        | some salt =>
          match hasher.getHash (pssMessage mHash salt) with
          | none => some false
          | some hash => some (decide (h = hash))

/-- Take the mask off the data block and check it -/
def checkMaskedDb (hasher : Hasher) (mgf : Option Xof) (maskbits saltLen : ℕ)
    (mHash maskedDb h : Chunk) : Option Bool :=
  match mgf with
  | none => some false
  | some mgf =>
    match mgf.getBytes h maskedDb.length with
    | none => some false
    | some dbmask =>
      if maskbits ≠ 0 ∧ maskedDb.length = 0 then none else
      let db := clearUnused maskbits (memxor maskedDb dbmask)
      checkDb hasher saltLen mHash h db (sizeSub (sizeSub db.length saltLen) 1)

/-- `verify_emsa_pss_signature` on the recovered encoding -/
def checkEncoding (hasher : Hasher) (mgf : Option Xof) (embits saltLen : ℕ) (mHash em : Chunk) :
    Option Bool :=
  let maskbits := 8 * em.length - embits
  if em.length < (mHash.length + saltLen + 2) % 2 ^ 64 then some false else
  match em[em.length - 1]?, em[0]? with
  | some last, some first =>
    if last ≠ 0xbc ∨ first &&& ((0xff : U8) <<< (8 - maskbits)) ≠ 0 then some false else
    let dbLen := sizeSub (sizeSub em.length mHash.length) 1
    match slice? em 0 dbLen, slice? em dbLen mHash.length with
    | some maskedDb, some h => checkMaskedDb hasher mgf maskbits saltLen mHash maskedDb h
    | _, _ => none
  | _, _ => none

/-- Verification of an EMSA PSS signature described in PKCS#1; `none` if a byte outside the recovered
encoding is touched. -/
def verifyEmsaPssSignature {n : ℕ} (this : RsaKey n) (crypto : PssFactory) (params : RsaPssParams)
    (data signature : Chunk) : Option Bool :=
  match xofMgf1FromHashAlgorithm params.mgf1Hash with
  | none => some false
  | some xof =>
    if signature.length = 0 ∨ signature.length > this.k then some false else
    let em := this.rsavp1 signature
    if em.length = 0 then some false else
    let embits := n.size - 1
    match crypto.createHasher params.hash with
    | none => some false
    | some hasher =>
      match hasher.getHash data with
      | none => some false
      | some mHash =>
        checkEncoding hasher (crypto.createXof xof) embits (params.expectedSaltLen mHash.length) mHash
          em

/-! ## The encoding of a message -/

/-- The EMSA-PSS encoding in `emLen` bytes, of which `embits` bits are used, of a message of hash
`mHash`. -/
def emsaPssEncode (hasher : Hasher) (mgf : Xof) (emLen embits : ℕ) (mHash salt : Chunk) :
    Option Chunk := do
  if emLen < mHash.length + salt.length + 2 then none else
  let h ← hasher.getHash (pssMessage mHash salt)
  let db := pssDataBlock (emLen - salt.length - mHash.length - 2) salt
  let dbmask ← mgf.getBytes h db.length
  some (clearUnused (8 * emLen - embits) (memxor db dbmask) ++ h ++ [0xbc])

variable {salt : Chunk} {params : RsaPssParams} {crypto : PssFactory}

theorem length_chooseSalt {hashLen : ℕ}
    (h : params.chooseSalt crypto (params.usedSaltLen hashLen) = some salt) :
    salt.length = params.usedSaltLen hashLen := by
  unfold RsaPssParams.chooseSalt at h
  split_ifs at h with hrng
  · exact crypto.length_rngBytes h
  · cases h
    unfold RsaPssParams.usedSaltLen at hrng ⊢
    split_ifs at hrng ⊢ with h0
    · rfl
    · omega

/-- **What is signed** is the encoding in as many bytes as its bits need. -/
theorem build_some {n : ℕ} {this : RsaKey n}
    {data signature : Chunk}
    (h : buildEmsaPssSignature this crypto params data = some signature) :
    ∃ xof hasher mHash mgf salt em, xofMgf1FromHashAlgorithm params.mgf1Hash = some xof ∧
      crypto.createHasher params.hash = some hasher ∧ hasher.getHash data = some mHash ∧
      crypto.createXof xof = some mgf ∧ salt.length = params.usedSaltLen mHash.length ∧
      emsaPssEncode hasher mgf ((n.size - 1 + 7) / 8) (n.size - 1) mHash salt = some em ∧
      signature = this.rsasp1 em := by
  unfold buildEmsaPssSignature at h
  simp only [Option.bind_eq_bind, Option.bind_eq_some_iff] at h
  obtain ⟨xof, hxof, hasher, hhasher, mHash, hmHash, h⟩ := h
  obtain ⟨hfit, h⟩ := Option.ite_none_left_eq_some.mp h
  simp only [Option.bind_eq_some_iff] at h
  obtain ⟨salt, hsalt, hash, hhash, mgf, hmgf, dbmask, hmask, h⟩ := h
  have hm : mHash.length ≤ 64 :=
    (crypto.length_hash hhasher hmHash).trans_le (hasherHashSize_le _)
  have hused := params.usedSaltLen_lt hm
  have hsaltlen := length_chooseSalt hsalt
  refine ⟨xof, hasher, mHash, mgf, salt, _, hxof, hhasher, hmHash, hmgf, hsaltlen, ?_,
    (Option.some.inj h).symm⟩
  rw [Nat.mod_eq_of_lt (by omega)] at hfit
  rw [emsaPssEncode, if_neg (by omega)]
  simp only [hhash, hmask, Option.bind_eq_bind, Option.bind_some]

theorem build_of_encode {n : ℕ} {this : RsaKey n}
    {data mHash salt em : Chunk} {xof : ExtOutFunction} {hasher : Hasher} {mgf : Xof}
    (hxof : xofMgf1FromHashAlgorithm params.mgf1Hash = some xof)
    (hhasher : crypto.createHasher params.hash = some hasher)
    (hmHash : hasher.getHash data = some mHash) (hmgf : crypto.createXof xof = some mgf)
    (hsalt : params.chooseSalt crypto (params.usedSaltLen mHash.length) = some salt)
    (hencode : emsaPssEncode hasher mgf ((n.size - 1 + 7) / 8) (n.size - 1) mHash salt = some em) :
    buildEmsaPssSignature this crypto params data = some (this.rsasp1 em) := by
  have hm : mHash.length ≤ 64 :=
    (crypto.length_hash hhasher hmHash).trans_le (hasherHashSize_le _)
  have hused := params.usedSaltLen_lt hm
  have hsaltlen := length_chooseSalt hsalt
  rw [emsaPssEncode] at hencode
  obtain ⟨hfit, hencode⟩ := Option.ite_none_left_eq_some.mp hencode
  simp only [Option.bind_eq_bind, Option.bind_eq_some_iff, Option.some.injEq] at hencode
  obtain ⟨h, hh, dbmask, hmask, rfl⟩ := hencode
  unfold buildEmsaPssSignature
  simp only [Option.bind_eq_bind, hxof, hhasher, hmHash, Option.bind_some]
  rw [Nat.mod_eq_of_lt (by omega), if_neg (by omega)]
  simp only [hsalt, hh, hmgf, hmask, Option.bind_some]

@[simp] theorem length_pssDataBlock (padding : ℕ) (salt : Chunk) :
    (pssDataBlock padding salt).length = padding + 1 + salt.length := by
  simp only [pssDataBlock, List.length_append, List.length_replicate, List.length_singleton]

theorem pssDataBlock_inj {padding padding' : ℕ} {salt salt' : Chunk}
    (h : pssDataBlock padding salt = pssDataBlock padding' salt') : padding = padding' := by
  have hzeros := congrArg (fun db : Chunk => (db.takeWhile (· = 0)).length) h
  simpa [pssDataBlock, List.takeWhile_append] using hzeros

theorem emsaPssEncode_some {hasher : Hasher} {mgf : Xof} {emLen embits padding : ℕ}
    {mHash salt em : Chunk} (hlen : emLen = mHash.length + salt.length + padding + 2) :
    emsaPssEncode hasher mgf emLen embits mHash salt = some em ↔
      ∃ h mask, hasher.getHash (pssMessage mHash salt) = some h ∧
        mgf.getBytes h (padding + 1 + salt.length) = some mask ∧
        em = clearUnused (8 * emLen - embits) (memxor (pssDataBlock padding salt) mask) ++ h ++
          [0xbc] := by
  have hps : emLen - salt.length - mHash.length - 2 = padding := by omega
  rw [emsaPssEncode, if_neg (by omega)]
  simp only [Option.bind_eq_bind, Option.bind_eq_some_iff, hps, length_pssDataBlock,
    Option.some.injEq]
  constructor
  · rintro ⟨h, hh, mask, hmask, rfl⟩
    exact ⟨h, mask, hh, hmask, rfl⟩
  · rintro ⟨h, mask, hh, hmask, rfl⟩
    exact ⟨h, hh, mask, hmask, rfl⟩

theorem emsaPssEncode_fits {hasher : Hasher} {mgf : Xof} {emLen embits : ℕ} {mHash salt em : Chunk}
    (hencode : emsaPssEncode hasher mgf emLen embits mHash salt = some em) :
    ∃ padding, emLen = mHash.length + salt.length + padding + 2 := by
  rw [emsaPssEncode] at hencode
  obtain ⟨hfit, -⟩ := Option.ite_none_left_eq_some.mp hencode
  exact ⟨emLen - mHash.length - salt.length - 2, by omega⟩

/-! ## Unused bits -/

theorem and_shiftLeft_eq_zero_iff (x : U8) {m : ℕ} (hm : m ≤ 8) :
    x &&& ((0xff : U8) <<< (8 - m)) = 0 ↔ x &&& ((0xff : U8) >>> m) = x := by
  interval_cases m <;> revert x <;> decide +kernel

theorem toNat_lt_of_and (x : U8) {m : ℕ} (hm : m ≤ 8) (h : x &&& ((0xff : U8) >>> m) = x) :
    x.toNat < 2 ^ (8 - m) := by
  interval_cases m <;> revert x <;> decide +kernel

theorem and_xor_and (x y f : U8) (h : x &&& f = x) : (((x ^^^ y) &&& f) ^^^ y) &&& f = x := by
  ext i hi
  have hbit := congrArg (fun z : U8 => z[i]) h
  simp only [BitVec.getElem_and] at hbit
  simp only [BitVec.getElem_and, BitVec.getElem_xor]
  cases hx : x[i] <;> cases hy : y[i] <;> cases hf : f[i] <;> simp_all

@[simp] theorem length_clearUnused (m : ℕ) (db : Chunk) : (clearUnused m db).length = db.length := by
  unfold clearUnused
  split_ifs <;> simp

@[simp] theorem clearUnused_cons (m : ℕ) (b : U8) (db : Chunk) :
    clearUnused m (b :: db) = (b &&& ((0xff : U8) >>> m)) :: db := by
  unfold clearUnused
  split_ifs with h
  · rfl
  · have hff : (0xff : U8) = BitVec.allOnes 8 := by decide
    rw [not_not.mp h, BitVec.ushiftRight_zero, hff, BitVec.and_allOnes]

@[simp] theorem clearUnused_clearUnused (m : ℕ) (db : Chunk) :
    clearUnused m (clearUnused m db) = clearUnused m db := by
  obtain _ | ⟨b, db⟩ := db
  · unfold clearUnused
    split_ifs <;> rfl
  · simp [BitVec.and_assoc]

/-- **Masking twice**: what has no unused bits set comes back. -/
theorem clearUnused_memxor_memxor {m : ℕ} {db mask : Chunk} (hlen : mask.length = db.length)
    (hclear : clearUnused m db = db) :
    clearUnused m (memxor (clearUnused m (memxor db mask)) mask) = db := by
  obtain _ | ⟨b, db⟩ := db
  · obtain rfl := List.length_eq_zero_iff.mp hlen
    simp [clearUnused, memxor]
  · obtain _ | ⟨c, mask⟩ := mask
    · simp at hlen
    simp only [clearUnused_cons, List.cons.injEq, and_true] at hclear
    have htail : memxor (memxor db mask) mask = db := memxor_memxor (by simpa using hlen)
    simp only [memxor, List.zipWith_cons_cons, clearUnused_cons] at htail ⊢
    rw [and_xor_and b c _ hclear, htail]

/-! ## Checking the data block -/

/-- The loop tells whether the padding is zero. -/
theorem paddingZero_some {db : Chunk} {i count : ℕ} {zero : Bool}
    (h : paddingZero db i count = some zero) :
    zero = true ↔ (db.drop i).take count = List.replicate count 0 := by
  induction count generalizing i with
  | zero =>
    cases h
    simp
  | succ count ih =>
    rw [paddingZero] at h
    split at h
    · cases h
    · rename_i b hb
      obtain ⟨hi, rfl⟩ := List.getElem?_eq_some_iff.mp hb
      rw [List.drop_eq_getElem_cons hi, List.take_succ_cons, List.replicate_succ, List.cons.injEq]
      split_ifs at h with hzero hover
      · cases h
        simp only [Bool.false_eq_true, false_iff, not_and]
        exact fun hb => absurd hb hzero
      · rw [ih h]
        simp [not_not.mp hzero]

theorem paddingZero_ne_none {db : Chunk} {i count : ℕ} (hlen : i + count ≤ db.length)
    (hover : i + count < 2 ^ 31) : paddingZero db i count ≠ none := by
  induction count generalizing i with
  | zero => simp [paddingZero]
  | succ count ih =>
    rw [paddingZero, List.getElem?_eq_getElem (by omega)]
    dsimp only
    split_ifs with hzero hnext
    · simp
    · exact ih (by omega) (by omega)
    · omega

theorem drop_cons_of_getElem? {db : Chunk} {i : ℕ} {b : U8} (h : db[i]? = some b) :
    db.drop i = b :: db.drop (i + 1) := by
  obtain ⟨hi, rfl⟩ := List.getElem?_eq_some_iff.mp h
  exact List.drop_eq_getElem_cons hi

variable {hasher : Hasher} {saltLen padding : ℕ} {mHash h db : Chunk}

theorem slice?_some {chunk slice : Chunk} {offset len : ℕ} (h : slice? chunk offset len = some slice) :
    slice.length = len ∧ slice = (chunk.drop offset).take len := by
  unfold slice? at h
  split_ifs at h with hlen
  cases h
  refine ⟨?_, rfl⟩
  rw [List.length_take, List.length_drop]
  omega

/-- **The data blocks that are accepted** end in a salt of the expected length, after zeros and a
one, and `h` is the hash over this salt. -/
theorem checkDb_true (hlen : db.length = padding + 1 + saltLen)
    (hcheck : checkDb hasher saltLen mHash h db padding = some true) :
    ∃ salt, salt.length = saltLen ∧ db = pssDataBlock padding salt ∧
      hasher.getHash (pssMessage mHash salt) = some h := by
  unfold checkDb at hcheck
  split at hcheck
  · cases hcheck
  · cases hcheck
  rename_i hzero
  split at hcheck
  · cases hcheck
  rename_i b hb
  split_ifs at hcheck with hover hone
  · cases hcheck
  split at hcheck
  · cases hcheck
  rename_i salt hsalt
  split at hcheck
  · cases hcheck
  rename_i hash hhash
  obtain ⟨hsaltlen, hslice⟩ := slice?_some hsalt
  refine ⟨salt, hsaltlen, ?_, ?_⟩
  · have hpadding := (paddingZero_some hzero).mp rfl
    have hrest : (db.drop (padding + 1)).take saltLen = db.drop (padding + 1) :=
      List.take_of_length_le (by rw [List.length_drop]; omega)
    rw [List.drop_zero] at hpadding
    rw [pssDataBlock, ← hpadding, hslice, hrest, List.append_assoc, List.singleton_append,
      ← not_not.mp hone,
      ← drop_cons_of_getElem? hb, List.take_append_drop]
  · rw [hhash, of_decide_eq_true (Option.some.inj hcheck)]

theorem checkDb_of_eq (hsalt : salt.length = saltLen) (hover : padding + 1 < 2 ^ 31)
    (hdb : db = pssDataBlock padding salt)
    (hhash : hasher.getHash (pssMessage mHash salt) = some h) :
    checkDb hasher saltLen mHash h db padding = some true := by
  have hlen : db.length = padding + 1 + saltLen := by rw [hdb, length_pssDataBlock, hsalt]
  have hzero : paddingZero db 0 padding = some true := by
    have hne : paddingZero db 0 padding ≠ none := paddingZero_ne_none (by omega) (by omega)
    obtain ⟨zero, hzero⟩ := Option.ne_none_iff_exists'.mp hne
    rw [hzero, (paddingZero_some hzero).mpr]
    simp [hdb, pssDataBlock]
  have hone : db[padding]? = some 0x01 := by simp [hdb, pssDataBlock]
  have hslice : slice? db (padding + 1) saltLen = some salt := by
    rw [slice?, if_pos (by omega), hdb, pssDataBlock, List.drop_append, List.take_of_length_le]
    · simp
    · simp [hsalt]
  unfold checkDb
  simp only [hzero, hone, hover, hslice, hhash, not_true_eq_false, if_false, ne_eq, decide_true]

theorem checkDb_ne_none (hlen : db.length = padding + 1 + saltLen) (hover : padding + 1 < 2 ^ 31) :
    checkDb hasher saltLen mHash h db padding ≠ none := by
  have hzero : paddingZero db 0 padding ≠ none := paddingZero_ne_none (by omega) (by omega)
  unfold checkDb
  split
  · contradiction
  · simp
  rw [List.getElem?_eq_getElem (show padding < db.length by omega)]
  dsimp only
  rw [slice?, if_pos (show padding + 1 + saltLen ≤ db.length by omega), if_neg (not_not.mpr hover)]
  split_ifs
  · simp
  · dsimp only
    split <;> simp

theorem checkDb_eq_none (hover : 2 ^ 31 ≤ padding + 1)
    (hdb : db = pssDataBlock padding salt) :
    checkDb hasher saltLen mHash h db padding = none := by
  have hone : db[padding]? = some 0x01 := by simp [hdb, pssDataBlock]
  unfold checkDb
  split
  · rfl
  · rename_i hzero
    have := (paddingZero_some hzero).not.mp (by simp)
    simp [hdb, pssDataBlock] at this
  · rw [hone]
    exact if_pos (by omega)

/-! ## Checking an encoding -/

variable {mgf : Xof} {embits emLen : ℕ} {em : Chunk}

variable {xof : Option Xof}

theorem checkEncoding_of_lt (hhash : mHash.length ≤ 64) (hsalt : saltLen < 2 ^ 63)
    (hlen : em.length < mHash.length + saltLen + 2) :
    checkEncoding hasher xof embits saltLen mHash em = some false := by
  unfold checkEncoding
  dsimp only
  rw [Nat.mod_eq_of_lt (by omega), if_pos hlen]

theorem checkEncoding_eq {p : Chunk} {first last : U8}
    (hhash : h.length = mHash.length) (hle : mHash.length ≤ 64) (hsalt : saltLen < 2 ^ 63)
    (hp : saltLen ≤ p.length) (hem : em = first :: p ++ h ++ [last]) (hlt : em.length < 2 ^ 64) :
    checkEncoding hasher xof embits saltLen mHash em =
      if last ≠ 0xbc ∨ first &&& ((0xff : U8) <<< (8 - (8 * em.length - embits))) ≠ 0 then some false
      else checkMaskedDb hasher xof (8 * em.length - embits) saltLen mHash (first :: p) h := by
  have hlen : em.length = p.length + 1 + mHash.length + 1 := by
    simp only [hem, List.length_append, List.length_cons, List.length_nil, hhash]
  have hlast : em[em.length - 1]? = some last := by
    rw [← List.getLast?_eq_getElem?, hem, List.getLast?_concat]
  have hfirst : em[0]? = some first := by simp [hem]
  have hdb : sizeSub (sizeSub em.length mHash.length) 1 = p.length + 1 := by
    rw [sizeSub_eq (show mHash.length ≤ em.length by omega) hlt, sizeSub_eq (by omega) (by omega)]
    omega
  have hmasked : slice? em 0 (p.length + 1) = some (first :: p) := by
    rw [slice?, if_pos (by omega), hem]
    simp
  have hh : slice? em (p.length + 1) mHash.length = some h := by
    rw [slice?, if_pos (by omega), hem, ← hhash, List.append_assoc,
      List.drop_left' (by simp), List.take_left]
  unfold checkEncoding
  dsimp only
  rw [Nat.mod_eq_of_lt (by omega), if_neg (by omega), hlast, hfirst, hdb, hmasked, hh]

theorem exists_parts (hlen : mHash.length + saltLen + 2 ≤ em.length) :
    ∃ first p h last, h.length = mHash.length ∧ saltLen ≤ p.length ∧
      em = first :: p ++ h ++ [last] := by
  obtain ⟨front, last, rfl⟩ : ∃ front last, em = front ++ [last] :=
    ⟨em.dropLast, em.getLast (by rintro rfl; simp at hlen), (List.dropLast_append_getLast _).symm⟩
  rw [List.length_append, List.length_singleton] at hlen
  obtain ⟨first, p, hp⟩ : ∃ first p, front.take (front.length - mHash.length) = first :: p :=
    List.exists_cons_of_length_pos (by rw [List.length_take]; omega)
  refine ⟨first, p, front.drop (front.length - mHash.length), last, ?_, ?_, ?_⟩
  · rw [List.length_drop]
    omega
  · have := congrArg List.length hp
    rw [List.length_take, List.length_cons] at this
    omega
  · rw [← hp, List.take_append_drop]

theorem and_shiftLeft_iff {first : U8} {p : Chunk} {m : ℕ} (hm : m ≤ 8) :
    first &&& ((0xff : U8) <<< (8 - m)) = 0 ↔ clearUnused m (first :: p) = first :: p := by
  rw [and_shiftLeft_eq_zero_iff first hm, clearUnused_cons, List.cons.injEq, and_iff_left rfl]

theorem checkMaskedDb_of_none {maskbits : ℕ} {p : Chunk} (hmask : mgf.getBytes h p.length = none) :
    checkMaskedDb hasher (some mgf) maskbits saltLen mHash p h = some false := by
  unfold checkMaskedDb
  simp only [hmask]

theorem checkMaskedDb_eq {maskbits : ℕ} {p mask : Chunk} (hp : p.length = padding + 1 + saltLen)
    (hlt : p.length < 2 ^ 64) (hmask : mgf.getBytes h p.length = some mask) :
    checkMaskedDb hasher (some mgf) maskbits saltLen mHash p h =
      checkDb hasher saltLen mHash h (clearUnused maskbits (memxor p mask)) padding := by
  have hlen : (clearUnused maskbits (memxor p mask)).length = p.length := by
    simp [memxor, mgf.length_getBytes hmask]
  unfold checkMaskedDb
  dsimp only
  rw [hmask]
  dsimp only
  rw [if_neg (by omega), hlen, sizeSub_eq (show saltLen ≤ p.length by omega) hlt,
    sizeSub_eq (by omega) (by omega), show p.length - saltLen - 1 = padding by omega]

/-- **What is accepted** is an encoding in as many bytes as were recovered, with a salt of the expected
length. -/
theorem checkEncoding_true (hle : mHash.length ≤ 64) (hsalt : saltLen < 2 ^ 63)
    (hlt : em.length < 2 ^ 64) (hbits : 8 * em.length - embits ≤ 8)
    (hcheck : checkEncoding hasher xof embits saltLen mHash em = some true) :
    ∃ mgf salt, xof = some mgf ∧ salt.length = saltLen ∧
      mHash.length + saltLen + 2 ≤ em.length ∧
      emsaPssEncode hasher mgf em.length embits mHash salt = some em ∧
      clearUnused (8 * em.length - embits)
          (pssDataBlock (em.length - mHash.length - saltLen - 2) salt) =
        pssDataBlock (em.length - mHash.length - saltLen - 2) salt := by
  by_cases hlen : em.length < mHash.length + saltLen + 2
  · rw [checkEncoding_of_lt hle hsalt hlen] at hcheck
    cases hcheck
  rw [not_lt] at hlen
  obtain ⟨first, p, h, last, hhash, hp, hem⟩ := exists_parts hlen
  rw [checkEncoding_eq hhash hle hsalt hp hem hlt] at hcheck
  split_ifs at hcheck with hparts
  · cases hcheck
  rw [not_or, not_not, not_not, and_shiftLeft_iff hbits (p := p)] at hparts
  obtain ⟨rfl, hclear⟩ := hparts
  obtain _ | mgf := xof
  · cases hcheck
  obtain hmask | ⟨mask, hmask⟩ := Option.eq_none_or_eq_some (mgf.getBytes h (first :: p).length)
  · rw [checkMaskedDb_of_none hmask] at hcheck
    cases hcheck
  have hemlen : em.length = p.length + 1 + mHash.length + 1 := by
    simp only [hem, List.length_append, List.length_cons, List.length_nil, hhash]
  have hplen : (first :: p).length = p.length - saltLen + 1 + saltLen := by
    rw [List.length_cons]
    omega
  rw [checkMaskedDb_eq hplen (by rw [List.length_cons]; omega) hmask] at hcheck
  obtain ⟨salt, hsaltlen, hdb, hgethash⟩ := checkDb_true
    (by simp [memxor, mgf.length_getBytes hmask]; omega) hcheck
  refine ⟨mgf, salt, rfl, hsaltlen, hlen, (emsaPssEncode_some
    (show em.length = mHash.length + salt.length + (p.length - saltLen) + 2 by omega)).mpr
    ⟨h, mask, hgethash, ?_, ?_⟩, ?_⟩
  · rw [hsaltlen, ← hplen]
    exact hmask
  · rw [← hdb, clearUnused_memxor_memxor (mgf.length_getBytes hmask) hclear, hem]
  · rw [show em.length - mHash.length - saltLen - 2 = p.length - saltLen by omega, ← hdb,
      clearUnused_clearUnused]

theorem checkEncoding_ne_none (hle : mHash.length ≤ 64) (hsalt : saltLen < 2 ^ 63)
    (hlt : em.length < 2 ^ 64) (hlen : em.length = mHash.length + saltLen + padding + 2)
    (hover : padding + 1 < 2 ^ 31) : checkEncoding hasher xof embits saltLen mHash em ≠ none := by
  obtain ⟨first, p, h, last, hhash, hp, hem⟩ :=
    exists_parts (show mHash.length + saltLen + 2 ≤ em.length by omega)
  have hemlen : em.length = p.length + 1 + mHash.length + 1 := by
    simp only [hem, List.length_append, List.length_cons, List.length_nil, hhash]
  have hplen : (first :: p).length = padding + 1 + saltLen := by
    rw [List.length_cons]
    omega
  rw [checkEncoding_eq hhash hle hsalt hp hem hlt]
  split_ifs
  · simp
  obtain _ | mgf := xof
  · simp [checkMaskedDb]
  obtain hmask | ⟨mask, hmask⟩ := Option.eq_none_or_eq_some (mgf.getBytes h (first :: p).length)
  · rw [checkMaskedDb_of_none hmask]
    simp
  · rw [checkMaskedDb_eq hplen (by omega) hmask]
    exact checkDb_ne_none (by simp [memxor, mgf.length_getBytes hmask]; omega) hover

theorem clearUnused_pssDataBlock {m : ℕ} (hm : m ≤ 7 ∨ m ≤ 8 ∧ 0 < padding) :
    clearUnused m (pssDataBlock padding salt) = pssDataBlock padding salt := by
  obtain _ | padding := padding
  · have hone : ∀ m ≤ 7, (0x01 : U8) &&& ((0xff : U8) >>> m) = 0x01 := by decide
    rw [pssDataBlock, List.replicate_zero, List.nil_append, List.singleton_append, clearUnused_cons,
      hone m (by omega)]
  · rw [pssDataBlock, List.replicate_succ, List.cons_append, List.cons_append, clearUnused_cons,
      show (0 : U8) &&& ((0xff : U8) >>> m) = 0 from BitVec.zero_and]

theorem length_of_encode
    (hhash : ∀ {input hash}, hasher.getHash input = some hash → hash.length = mHash.length)
    (hlen : emLen = mHash.length + salt.length + padding + 2)
    (hencode : emsaPssEncode hasher mgf emLen embits mHash salt = some em) : em.length = emLen := by
  obtain ⟨h, mask, hh, hmask, rfl⟩ := (emsaPssEncode_some hlen).mp hencode
  simp [memxor, mgf.length_getBytes hmask, hhash hh]
  omega

theorem checkEncoding_eq_checkDb
    (hhash : ∀ {input hash}, hasher.getHash input = some hash → hash.length = mHash.length)
    (hle : mHash.length ≤ 64) (hlen : emLen = mHash.length + salt.length + padding + 2)
    (hsalt : saltLen < 2 ^ 63) (hsalt' : saltLen ≤ padding + salt.length) (hlt : emLen < 2 ^ 64)
    (hm : 8 * emLen - embits ≤ 7 ∨ 8 * emLen - embits ≤ 8 ∧ 0 < padding)
    (hencode : emsaPssEncode hasher mgf emLen embits mHash salt = some em) :
    ∃ h, hasher.getHash (pssMessage mHash salt) = some h ∧
      checkEncoding hasher (some mgf) embits saltLen mHash em =
        checkDb hasher saltLen mHash h (pssDataBlock padding salt)
          (padding + salt.length - saltLen) := by
  have hemlen := length_of_encode hhash hlen hencode
  obtain ⟨h, mask, hh, hmask, hem⟩ := (emsaPssEncode_some hlen).mp hencode
  have hmasklen := mgf.length_getBytes hmask
  set maskedDb := clearUnused (8 * emLen - embits) (memxor (pssDataBlock padding salt) mask) with hdb
  have hdblen : maskedDb.length = padding + 1 + salt.length := by
    rw [hdb, length_clearUnused, memxor, List.length_zipWith, hmasklen, length_pssDataBlock,
      Nat.min_self]
  obtain ⟨first, p, hp⟩ := List.exists_cons_of_length_pos (by omega : 0 < maskedDb.length)
  refine ⟨h, hh, ?_⟩
  have hplen : p.length + 1 = padding + 1 + salt.length := by rw [← hdblen, hp, List.length_cons]
  rw [hp] at hem
  have hclear : clearUnused (8 * emLen - embits) (first :: p) = first :: p := by
    rw [← hp, hdb, clearUnused_clearUnused]
  have hpadding : maskedDb.length = padding + salt.length - saltLen + 1 + saltLen := by omega
  rw [checkEncoding_eq (hhash hh) hle hsalt (by omega) hem (by omega), hemlen, if_neg, ← hp,
    checkMaskedDb_eq hpadding (by omega) (by rw [hdblen]; exact hmask), hdb,
    clearUnused_memxor_memxor (by rw [hmasklen, length_pssDataBlock]) (clearUnused_pssDataBlock hm)]
  rw [not_or, not_not, not_not, and_shiftLeft_iff (by omega)]
  exact ⟨rfl, hclear⟩

end StrongSwan
