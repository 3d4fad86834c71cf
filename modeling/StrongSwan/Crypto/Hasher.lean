import StrongSwan.Basic

/-!
# Hash functions

`Hasher` is a hash function with the size of its hashes, and `Hasher.Ideal` says that it has no
collisions among short inputs. `HasherFactory` creates the hashers of the algorithms it has, each
with the hash size of its algorithm.
-/

namespace StrongSwan

/-- `hasher_t`; `getHash` fails if there is no result. -/
structure Hasher where
  hashSize : ℕ
  getHash : Chunk → Option Chunk

/-- The hash is injective on inputs of at most `len` bytes, and never fails on them. -/
structure Hasher.Ideal (this : Hasher) (len : ℕ) : Prop where
  total : ∀ {input}, input.length ≤ len → (this.getHash input).isSome = true
  length_hash : ∀ {input hash}, this.getHash input = some hash → hash.length = this.hashSize
  inj : ∀ {input input' hash}, input.length ≤ len → input'.length ≤ len →
    this.getHash input = some hash → this.getHash input' = some hash → input = input'

/-- A hash that pads inputs of at most `len` bytes. -/
def paddingHasher (len : ℕ) : Hasher where
  hashSize := len + 1
  getHash input := some ((input.take len ++ [1] ++ List.replicate len 0).take (len + 1))

/-- Remove the padding. -/
def unpad (hash : Chunk) : Chunk := (hash.reverse.dropWhile (· = 0)).tail.reverse

theorem unpad_hash {len : ℕ} {input hash : Chunk} (hlen : input.length ≤ len)
    (h : (paddingHasher len).getHash input = some hash) : unpad hash = input := by
  cases h
  rw [List.take_of_length_le hlen, List.append_assoc, List.take_append,
    List.take_of_length_le (by omega), List.singleton_append,
    show len + 1 - input.length = (len - input.length) + 1 by omega, List.take_succ_cons,
    List.take_replicate, Nat.min_eq_left (by omega)]
  simp [unpad]

inductive HashAlgorithm
  | sha1 | sha256 | sha384 | sha512 | identity | unknown | md2 | md4 | md5 | sha224
  | sha3_224 | sha3_256 | sha3_384 | sha3_512
  deriving DecidableEq, Repr

def hasherHashSize : HashAlgorithm → ℕ
  | .sha1 => 20
  | .sha256 => 32
  | .sha384 => 48
  | .sha512 => 64
  | .md2 => 16
  | .md4 => 16
  | .md5 => 16
  | .sha224 => 28
  | .sha3_224 => 28
  | .sha3_256 => 32
  | .sha3_384 => 48
  | .sha3_512 => 64
  | .identity => 0
  | .unknown => 0

theorem hasherHashSize_le (alg : HashAlgorithm) : hasherHashSize alg ≤ 64 := by
  cases alg <;> decide

/-- The hashers `crypto_factory_t` has; their hashes have the size of the algorithm. -/
structure HasherFactory where
  createHasher : HashAlgorithm → Option Hasher
  hashSize_eq : ∀ {alg hasher}, createHasher alg = some hasher →
    hasher.hashSize = hasherHashSize alg
  length_hash : ∀ {alg hasher input hash}, createHasher alg = some hasher →
    hasher.getHash input = some hash → hash.length = hasherHashSize alg

theorem paddingHasher_ideal (len : ℕ) : (paddingHasher len).Ideal len where
  total _ := rfl
  length_hash h := by
    cases h
    simp [paddingHasher]
  inj hlen hlen' h h' := by rw [← unpad_hash hlen h, unpad_hash hlen' h']

/-- A hash without entropy -/
def zeroHasher (alg : HashAlgorithm) : Hasher :=
  ⟨hasherHashSize alg, fun _ => some (List.replicate (hasherHashSize alg) 0)⟩

theorem zeroHasher_length {alg : HashAlgorithm} {input hash : Chunk}
    (h : (zeroHasher alg).getHash input = some hash) : hash.length = hasherHashSize alg := by
  cases h
  exact List.length_replicate

/-- Such hashes for every algorithm -/
def zeroHashers : HasherFactory where
  createHasher alg := some (zeroHasher alg)
  hashSize_eq h := by
    cases h
    rfl
  length_hash h h' := by
    cases h
    exact zeroHasher_length h'

end StrongSwan
