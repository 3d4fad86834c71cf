import StrongSwan.Basic
import Mathlib.Data.Set.Finite.List

/-!
# Crypters and signers

`Crypter` and `Signer` are transforms with a key. `Lawful` says what they promise.

* `Crypter.encrypt_decrypt`: what is decrypted encrypts to the same data again.
-/

namespace StrongSwan

/-- `crypter_t`. Data is encrypted in place, so a result has its length. -/
structure Crypter where
  blockSize : ℕ
  ivSize : ℕ
  /-- ciphertext of a plaintext with the IV -/
  encrypt : Chunk → Chunk → Option Chunk
  /-- plaintext of a ciphertext with the IV -/
  decrypt : Chunk → Chunk → Option Chunk

/-- What a block cipher promises, for data of a multiple of the block size. -/
structure Crypter.Lawful (this : Crypter) : Prop where
  blockSize_pos : 1 ≤ this.blockSize
  blockSize_le : this.blockSize ≤ 255
  ivSize_le : this.ivSize ≤ this.blockSize
  encrypt : ∀ {plain iv : Chunk}, iv.length = this.ivSize → this.blockSize ∣ plain.length →
    ∃ encrypted, this.encrypt plain iv = some encrypted ∧ encrypted.length = plain.length ∧
      this.decrypt encrypted iv = some plain

/-- `signer_t`: the signature of data -/
structure Signer where
  blockSize : ℕ
  sign : Chunk → Option Chunk

/-- `verify_signature` -/
def Signer.verify (this : Signer) (data signature : Chunk) : Bool := this.sign data = some signature

/-- What a signer promises. -/
structure Signer.Lawful (this : Signer) : Prop where
  blockSize_le : this.blockSize ≤ 255
  sign : ∀ data, ∃ signature, this.sign data = some signature ∧
    signature.length = this.blockSize

theorem Crypter.encrypt_decrypt {this : Crypter} (h : this.Lawful) {iv encrypted plain : Chunk}
    (hiv : iv.length = this.ivSize) (hlength : this.blockSize ∣ encrypted.length)
    (hdecrypt : this.decrypt encrypted iv = some plain) :
    this.encrypt plain iv = some encrypted ∧ plain.length = encrypted.length := by
  let ofLength : Set Chunk := { data | data.length = encrypted.length }
  have hbytes : Finite U8 := Finite.of_injective BitVec.toFin fun _ _ => BitVec.eq_of_toFin_eq
  have hfinite : ofLength.Finite := List.finite_length_eq U8 encrypted.length
  let cipher (data : Chunk) : Chunk := (this.encrypt data iv).getD []
  have hcipher : ∀ data ∈ ofLength, this.encrypt data iv = some (cipher data) ∧
      (cipher data).length = encrypted.length ∧ this.decrypt (cipher data) iv = some data := by
    intro data hdata
    have hdvd : this.blockSize ∣ data.length := hdata ▸ hlength
    obtain ⟨result, hresult, hlen, hback⟩ := h.encrypt hiv hdvd
    have hcipher : cipher data = result := by
      change (this.encrypt data iv).getD [] = result
      rw [hresult, Option.getD_some]
    rw [hcipher]
    exact ⟨hresult, hlen.trans hdata, hback⟩
  have hmaps : Set.MapsTo cipher ofLength ofLength := fun data hdata => (hcipher data hdata).2.1
  have hinj : Set.InjOn cipher ofLength := by
    intro data hdata data' hdata' heq
    have hback := (hcipher data hdata).2.2
    rw [heq, (hcipher data' hdata').2.2] at hback
    exact (Option.some.inj hback).symm
  have hsurj := ((hfinite.injOn_iff_bijOn_of_mapsTo hmaps).1 hinj).surjOn
  obtain ⟨data, hdata, heq⟩ := hsurj (show encrypted ∈ ofLength from rfl)
  obtain ⟨hencrypt, -, hback⟩ := hcipher data hdata
  rw [heq] at hencrypt hback
  rw [hdecrypt] at hback
  rw [Option.some.inj hback]
  exact ⟨hencrypt, hdata⟩

end StrongSwan
