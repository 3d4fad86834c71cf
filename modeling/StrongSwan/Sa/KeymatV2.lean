import StrongSwan.Crypto.Prf
import StrongSwan.Crypto.Proposal
import StrongSwan.Encoding.IkeHeader
import StrongSwan.Utils.Identification

/-!
# Key material of IKEv2

`KeymatV2` derives the keys of an IKE_SA and of its CHILD_SAs, and makes authentication data.

* `CryptoFactory`, `KeyedAead`: the algorithms, and what is keyed.
* `deriveIkeAead`, `deriveIkeTraditional`, `deriveIkeKeys`.
* `deriveChildKeys`, `getAuthOctets`, `getPskSig`.

Crypto objects are their sizes, they never fail once they are created.
-/

namespace StrongSwan

/-- `keymat_get_keylen_encr`, in bits -/
def keymatGetKeylenEncr (alg : U16) : U16 :=
  if alg = encrDes then 64
  else if alg = encr3des then 192
  else if alg = encrChacha20Poly1305 then 256
  else 0

/-- `keymat_get_keylen_integ`, in bits -/
def keymatGetKeylenInteg (alg : U16) : U16 :=
  if alg ∈ [1, 6, 5, 8] then 128 -- MD5, AES-XCBC and AES-CMAC
  else if alg ∈ [2, 7] then 160 -- SHA1
  else if alg ∈ [12, 1026] then 256
  else if alg = 13 then 384
  else if alg = 14 then 512
  else 0

/-- `crypto_factory_t`: nothing is created for algorithms that are not supported, and otherwise
signers, crypters and AEADs with a key size in bytes. -/
structure CryptoFactory where
  createPrf : U16 → Option Prf
  createSigner : U16 → Option ℕ
  createCrypter : U16 → ℕ → Option ℕ
  createAead : U16 → ℕ → ℕ → Option ℕ
  /-- `iv_gen_create_for_alg` -/
  createIvGen : U16 → Bool

/-- `aead_t` with its keys -/
inductive KeyedAead
  | combined (alg : U16) (keySize saltSize : ℕ) (key : Chunk)
  /-- `aead_create` of a crypter and a signer -/
  | traditional (encAlg : U16) (encSize : ℕ) (encKey : Chunk) (intAlg : U16) (intKey : Chunk)
  deriving DecidableEq

structure DiffieHellman where
  getSharedSecret : Option Chunk

/-- `private_keymat_v2_t`, without the hash algorithms of the peer -/
structure KeymatV2 where
  /-- IKE_SA role, initiator or responder -/
  initiator : Bool
  aeadIn : Option KeyedAead
  aeadOut : Option KeyedAead
  /-- general purpose PRF -/
  prf : Option Prf
  prfAlg : U16
  /-- key to derive key material from for CHILD_SAs, rekeying -/
  skd : Chunk
  /-- key to build outgoing authentication data (SKp) -/
  skpBuild : Chunk
  /-- key to verify incoming authentication data (SKp) -/
  skpVerify : Chunk

def keymatV2Create (initiator : Bool) : KeymatV2 where
  initiator
  aeadIn := none
  aeadOut := none
  prf := none
  prfAlg := prfUndefined
  skd := []
  skpBuild := []
  skpVerify := []

/-- What is negotiated for an IKE_SA. -/
structure IkeExchange where
  proposal : Proposal
  dh : DiffieHellman
  nonceI : Chunk
  nonceR : Chunk
  id : IkeSaId
  /-- PRF of old SA if rekeying, undefined otherwise -/
  rekeyFunction : U16
  /-- SK_d of old SA if rekeying -/
  rekeySkd : Chunk

/-- What is negotiated for a CHILD_SA. -/
structure ChildExchange where
  proposal : Proposal
  dh : Option DiffieHellman
  nonceI : Chunk
  nonceR : Chunk

/-- The keys of a CHILD_SA. -/
structure ChildKeys where
  encrI : Chunk
  integI : Chunk
  encrR : Chunk
  integR : Chunk
  deriving DecidableEq

namespace KeymatV2

variable (cfg : CryptoFactory)

def aeadSaltSize (alg : U16) : Option ℕ :=
  if alg ∈ [encrAesGcmIcv8, encrAesGcmIcv12, encrAesGcmIcv16, encrChacha20Poly1305] then some 4
  else if alg ∈ [encrAesCcmIcv8, encrAesCcmIcv12, encrAesCcmIcv16, encrCamelliaCcmIcv8,
    encrCamelliaCcmIcv12, encrCamelliaCcmIcv16] then some 3
  else none

/-- Set the AEADs of both directions, by the role. -/
def setAeads (this : KeymatV2) (aeadI aeadR : KeyedAead) : KeymatV2 :=
  if this.initiator then { this with aeadIn := some aeadR, aeadOut := some aeadI }
  else { this with aeadIn := some aeadI, aeadOut := some aeadR }

/-- Both AEADs are there. -/
def hasAeads (this : KeymatV2) : Bool := this.aeadIn.isSome && this.aeadOut.isSome

/-- Derive IKE keys for a combined AEAD algorithm. -/
def deriveIkeAead (this : KeymatV2) (alg keySize : U16) (prfPlus : PrfPlus) : KeymatV2 × PrfPlus :=
  match aeadSaltSize alg with
  | none => (this, prfPlus)
  | some saltSize =>
    match cfg.createAead alg (keySize.toNat / 8) saltSize with
    | none => (this, prfPlus)
    | some aeadKeySize =>
      -- the size is cut off to 16 bits for the first AEAD, and compared with that of the second
      let size : U16 := BitVec.ofNat 16 aeadKeySize
      if size.toNat ≠ aeadKeySize then (this, prfPlus)
      else
        let (skEi, prfPlus) := prfPlus.allocateBytes size.toNat
        let (skEr, prfPlus) := prfPlus.allocateBytes size.toNat
        (this.setAeads (.combined alg (keySize.toNat / 8) saltSize skEi)
          (.combined alg (keySize.toNat / 8) saltSize skEr), prfPlus)

/-- Derive IKE keys for traditional encryption and MAC algorithms. -/
def deriveIkeTraditional (this : KeymatV2) (encAlg encSize intAlg : U16) (prfPlus : PrfPlus) :
    KeymatV2 × PrfPlus :=
  match cfg.createSigner intAlg, cfg.createCrypter encAlg (encSize.toNat / 8) with
  | some signerKeySize, some crypterKeySize =>
    let (skAi, prfPlus) := prfPlus.allocateBytes signerKeySize
    let (skAr, prfPlus) := prfPlus.allocateBytes signerKeySize
    let (skEi, prfPlus) := prfPlus.allocateBytes crypterKeySize
    let (skEr, prfPlus) := prfPlus.allocateBytes crypterKeySize
    if cfg.createIvGen encAlg then
      (this.setAeads (.traditional encAlg (encSize.toNat / 8) skEi intAlg skAi)
        (.traditional encAlg (encSize.toNat / 8) skEr intAlg skAr), prfPlus)
    else (this, prfPlus)
  | _, _ => (this, prfPlus)

/-- Derive the keys that protect messages, for the algorithms of a proposal. -/
def deriveAeads (this : KeymatV2) (proposal : Proposal) (prfPlus : PrfPlus) :
    Bool × KeymatV2 × PrfPlus :=
  match proposal.getAlgorithm .encryptionAlgorithm with
  | none => (false, this, prfPlus)
  | some (alg, keySize) =>
    if encryptionAlgorithmIsAead alg then
      let (this, prfPlus) := this.deriveIkeAead cfg alg keySize prfPlus
      (this.hasAeads, this, prfPlus)
    else
      match proposal.getAlgorithm .integrityAlgorithm with
      | none => (false, this, prfPlus)
      | some (intAlg, _) =>
        let (this, prfPlus) := this.deriveIkeTraditional cfg alg keySize intAlg prfPlus
        (this.hasAeads, this, prfPlus)

/-- The nonces as a key for the PRF, which may need a fixed key that only uses the first bytes. -/
def fixedNonce (alg : U16) (prf : Prf) (nonceI nonceR : Chunk) : Chunk :=
  if alg ∈ [prfAes128Cmac, prfAes128Xcbc, prfCamellia128Xcbc] then
    let keySize : U16 := BitVec.ofNat 16 (prf.keySize / 2)
    nonceI.take keySize.toNat ++ nonceR.take keySize.toNat
  else nonceI ++ nonceR

/-- The stream of keys: `prf+ (SKEYSEED, Ni | Nr | SPIi | SPIr)`. -/
def ikePrfPlus (exchange : IkeExchange) (alg : U16) (prf : Prf) (secret : Chunk) : Option PrfPlus :=
  let fullNonce := exchange.nonceI ++ exchange.nonceR
  let seed := fullNonce ++ htoun64 exchange.id.initiatorSpi ++ htoun64 exchange.id.responderSpi
  if exchange.rekeyFunction = prfUndefined then
    let skeyseed := prf.bytes (fixedNonce alg prf exchange.nonceI exchange.nonceR) secret
    some (prfPlusCreate prf skeyseed true seed)
  else
    -- use OLD SAs PRF functions for both prf_plus and prf
    match cfg.createPrf exchange.rekeyFunction with
    | none => none
    | some rekeyPrf =>
      let skeyseed := rekeyPrf.bytes exchange.rekeySkd (secret ++ fullNonce)
      some (prfPlusCreate rekeyPrf skeyseed true seed)

/-- Set the keys for authentication, by the role. -/
def setSkp (this : KeymatV2) (skPi skPr : Chunk) : KeymatV2 :=
  if this.initiator then { this with skpBuild := skPi, skpVerify := skPr }
  else { this with skpVerify := skPi, skpBuild := skPr }

/-- `SK_d | SK_ai | SK_ar | SK_ei | SK_er | SK_pi | SK_pr` -/
def deriveFrom (this : KeymatV2) (proposal : Proposal) (prf : Prf) (prfPlus : PrfPlus) : KeymatV2 :=
  let keySize : U16 := BitVec.ofNat 16 prf.keySize
  let (skd, prfPlus) := prfPlus.allocateBytes keySize.toNat
  match { this with skd }.deriveAeads cfg proposal prfPlus with
  | (false, this, _) => this
  | (true, this, prfPlus) =>
    let (skPi, prfPlus) := prfPlus.allocateBytes keySize.toNat
    let (skPr, _) := prfPlus.allocateBytes keySize.toNat
    this.setSkp skPi skPr

def deriveIkeKeys (this : KeymatV2) (exchange : IkeExchange) : Bool × KeymatV2 :=
  match exchange.dh.getSharedSecret with
  | none => (false, this)
  | some secret =>
    match exchange.proposal.getAlgorithm .pseudoRandomFunction with
    | none => (false, this)
    | some (alg, _) =>
      let this := { this with prfAlg := alg, prf := cfg.createPrf alg }
      match cfg.createPrf alg with
      | none => (false, this)
      | some prf =>
        match ikePrfPlus cfg exchange alg prf secret with
        | none => (false, this)
        | some prfPlus =>
          let this := this.deriveFrom cfg exchange.proposal prf prfPlus
          (this.skpBuild.length ≠ 0 && this.skpVerify.length ≠ 0, this)

/-- The bytes that the key of a CHILD_SA for encryption has, if the proposal has an algorithm for
that. -/
def childEncSize (proposal : Proposal) : Option U16 :=
  match proposal.getAlgorithm .encryptionAlgorithm with
  | none => some 0
  | some (encAlg, encSize) =>
    let encSize := if encSize = 0 then keymatGetKeylenEncr encAlg else encSize
    if encAlg ≠ encrNull ∧ encSize = 0 then none
    -- CCM/GCM/CTR/GMAC needs additional bytes
    else if encAlg ∈ [encrAesCcmIcv8, encrAesCcmIcv12, encrAesCcmIcv16, encrCamelliaCcmIcv8,
      encrCamelliaCcmIcv12, encrCamelliaCcmIcv16] then some (encSize / 8 + 3)
    else if encAlg ∈ [encrAesGcmIcv8, encrAesGcmIcv12, encrAesGcmIcv16, encrAesCtr, encrCamelliaCtr,
      encrNullAuthAesGmac, encrChacha20Poly1305] then some (encSize / 8 + 4)
    else some (encSize / 8)

/-- The same for integrity. -/
def childIntSize (proposal : Proposal) : Option U16 :=
  match proposal.getAlgorithm .integrityAlgorithm with
  | none => some 0
  | some (intAlg, intSize) =>
    let intSize := if intSize = 0 then keymatGetKeylenInteg intAlg else intSize
    if intSize = 0 then none else some (intSize / 8)

def deriveChildKeys (this : KeymatV2) (exchange : ChildExchange) : Option ChildKeys :=
  match childEncSize exchange.proposal, childIntSize exchange.proposal, this.prf with
  | some encSize, some intSize, some prf =>
    let secret := match exchange.dh with
      | none => some []
      | some dh => dh.getSharedSecret
    match secret with
    | none => none
    | some secret =>
      let prfPlus := prfPlusCreate prf this.skd true (secret ++ exchange.nonceI ++ exchange.nonceR)
      let (encrI, prfPlus) := prfPlus.allocateBytes encSize.toNat
      let (integI, prfPlus) := prfPlus.allocateBytes intSize.toNat
      let (encrR, prfPlus) := prfPlus.allocateBytes encSize.toNat
      let (integR, _) := prfPlus.allocateBytes intSize.toNat
      some { encrI, integI, encrR, integR }
  | _, _, _ => none

/-- `IDx'`: the ID payload without its header. -/
def idOctets (id : Identification) (reserved : Chunk) : Chunk :=
  [id.type.number.setWidth 8] ++ reserved ++ id.encoded

/-- `message + nonce + prf(Sk_px, IDx')` -/
def getAuthOctets (this : KeymatV2) (verify : Bool) (ikeSaInit nonce : Chunk) (id : Identification)
    (reserved : Chunk) : Option Chunk :=
  let skp := if verify then this.skpVerify else this.skpBuild
  this.prf.map fun prf => ikeSaInit ++ nonce ++ prf.bytes skp (idOctets id reserved)

/-- `IKEV2_KEY_PAD` -/
def ikev2KeyPad : Chunk := "Key Pad for IKEv2".toList.map fun c => BitVec.ofNat 8 c.toNat

/-- `AUTH = prf(prf(Shared Secret,"Key Pad for IKEv2"), <msg octets>)` -/
def getPskSig (this : KeymatV2) (verify : Bool) (ikeSaInit nonce secret : Chunk) (id : Identification)
    (reserved : Chunk) : Option Chunk :=
  -- EAP uses SK_p if no MSK has been established
  let secret := if secret.length = 0 then (if verify then this.skpVerify else this.skpBuild)
    else secret
  match this.getAuthOctets verify ikeSaInit nonce id reserved, this.prf with
  | some octets, some prf => some (prf.bytes (prf.bytes secret ikev2KeyPad) octets)
  | _, _ => none

end KeymatV2

end StrongSwan
