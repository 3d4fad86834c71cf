import StrongSwan.Basic

/-!
# AEAD transforms

`Aead` is a transform with its sizes, and `Aead.Lawful` says that it decrypts what it encrypted.
-/

namespace StrongSwan

structure Aead where
  blockSize : ℕ
  ivSize : ℕ
  icvSize : ℕ
  /-- `get_iv` of its IV generator, if it has one -/
  ivGen : Option (U32 → ℕ → Option Chunk)
  /-- ciphertext and ICV of a plaintext, with the associated data and the IV -/
  encrypt : Chunk → Chunk → Chunk → Option Chunk
  /-- plaintext of a ciphertext with its ICV, with the associated data and the IV -/
  decrypt : Chunk → Chunk → Chunk → Option Chunk

/-- What an AEAD promises. -/
structure Aead.Lawful (this : Aead) : Prop where
  blockSize_pos : 1 ≤ this.blockSize
  ivSize_aligned : 4 ∣ this.ivSize
  length_iv : ∀ {getIv seq len iv}, this.ivGen = some getIv → getIv seq len = some iv →
    iv.length = len
  length_encrypt : ∀ {plain assoc iv encrypted}, this.encrypt plain assoc iv = some encrypted →
    encrypted.length = plain.length + this.icvSize
  decrypt_encrypt : ∀ {plain assoc iv encrypted}, this.encrypt plain assoc iv = some encrypted →
    this.decrypt encrypted assoc iv = some plain

/-- An AEAD that changes nothing. -/
def plainAead : Aead where
  blockSize := 1
  ivSize := 0
  icvSize := 0
  ivGen := none
  encrypt plain _ _ := some plain
  decrypt encrypted _ _ := some encrypted

end StrongSwan
