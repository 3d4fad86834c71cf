import StrongSwan.Credentials.AuthCfg

/-!
# The credential manager: trust chains

From a certificate the manager walks up to issuers, first among the trusted certificates, then among
all, until it reaches a trusted one that is self-issued. On its way it collects what authorization
rules are checked against.

* `CredentialManager`: the certificates in order of enumeration, and what is asked of them.
* `checkLifetime`, `checkCertificate`, `getIssuerCert`, `getKeyStrength`, `verifyTrustChain`.

Validators neither change the certificates nor add to the evidence; hooks are left out.
-/

namespace StrongSwan

inductive KeyType
  | any | rsa | ecdsa | dsa | ed25519 | ed448 | bliss
  deriving DecidableEq, Repr

namespace CredentialManager

/-- `MAX_TRUST_PATH_LEN` -/
def maxTrustPathLen : ℕ := 7

/-- What `check_lifetime` of a validator returns. -/
inductive Status
  | success
  | needMore
  | failed
  deriving DecidableEq, Repr

/-- `cert_validator_t`, with the methods it has. -/
structure CertValidator (Cert : Type) where
  checkLifetime : Option (Cert → ℕ → Bool → AuthCfg Cert → Status)
  validate : Option (Cert → Cert → Bool → ℕ → Bool → AuthCfg Cert → Bool)

end CredentialManager

/-- `private_credential_manager_t`; `hasIssuer subject cert` are those that are enumerated by the type and
issuer of a subject. -/
structure CredentialManager (Cert : Type) where
  trustedCerts : List Cert
  certs : List Cert
  hasIssuer : Cert → Cert → Bool
  /-- the signature scheme, if the first certificate is issued by the second one -/
  issuedBy : Cert → Cert → Option SignatureParams
  equals : Cert → Cert → Bool
  getPublicKey : Cert → Option (KeyType × U32)
  getValidity : Cert → Bool
  validators : List (CredentialManager.CertValidator Cert)

namespace CredentialManager

variable {Cert : Type} (this : CredentialManager Cert)

/-- The first status of a validator that is not `NEED_MORE`. -/
def lifetimeStatus (cert : Cert) (pathlen : ℕ) (trusted : Bool) (auth : AuthCfg Cert) :
    List (CertValidator Cert) → Status
  | [] => .needMore
  | validator :: rest =>
    match validator.checkLifetime with
    | none => lifetimeStatus cert pathlen trusted auth rest
    | some check =>
      match check cert pathlen trusted auth with
      | .needMore => lifetimeStatus cert pathlen trusted auth rest
      | status => status

def checkLifetime (cert : Cert) (pathlen : ℕ) (trusted : Bool) (auth : AuthCfg Cert) : Bool :=
  match lifetimeStatus cert pathlen trusted auth this.validators with
  | .needMore => this.getValidity cert
  | .success => true
  | .failed => false

def checkCertificate (subject issuer : Cert) (online : Bool) (pathlen : ℕ) (trusted : Bool)
    (auth : AuthCfg Cert) : Bool :=
  this.checkLifetime subject pathlen false auth &&
    this.checkLifetime issuer (pathlen + 1) trusted auth &&
    this.validators.all fun validator =>
      match validator.validate with
      | some validate => validate subject issuer online pathlen trusted auth
      | none => true

/-- Get the issuing certificate of a subject certificate, and the scheme of the signature. -/
def getIssuerCert (subject : Cert) (trusted : Bool) : Option (Cert × SignatureParams) :=
  ((if trusted then this.trustedCerts else this.certs).filter (this.hasIssuer subject)).findSome?
    fun candidate => (this.issuedBy subject candidate).map (candidate, ·)

/-- The rule of the strength of a key. -/
def keyStrength (cert : Cert) : Option (AuthEntry Cert) :=
  match this.getPublicKey cert with
  | some (.rsa, strength) => some ⟨.rsaStrength, (strength : U32)⟩
  | some (.ecdsa, strength) => some ⟨.ecdsaStrength, (strength : U32)⟩
  | some (.bliss, strength) => some ⟨.blissStrength, (strength : U32)⟩
  | _ => none

/-- Get the strength of a certificate, add it to `auth`. -/
def getKeyStrength (cert : Cert) (auth : AuthCfg Cert) : AuthCfg Cert :=
  match this.keyStrength cert with
  | some entry => auth.add entry
  | none => auth

def addIssuer (type : AuthRule) (issuer : type.Value Cert) (scheme : SignatureParams)
    (auth : AuthCfg Cert) : AuthCfg Cert :=
  (auth.add ⟨type, issuer⟩).add ⟨.signatureScheme, scheme⟩

/-- Is the certificate issued by itself? -/
def selfIssued (cert : Cert) : Bool := (this.issuedBy cert cert).isSome

/-- The loop of `verify_trust_chain`, for at most `fuel` more certificates: is the chain trusted, and
what was collected. -/
def verifyLoop (online : Bool) : ℕ → ℕ → Cert → AuthCfg Cert → Bool → Bool × AuthCfg Cert
  | 0, _, _, auth, trusted => (trusted, auth)
  | fuel + 1, pathlen, current, auth, trusted =>
    let next := fun (issuer : Cert) (auth : AuthCfg Cert) (trusted : Bool) =>
      if this.checkCertificate current issuer online pathlen trusted auth then
        let auth := this.getKeyStrength issuer auth
        if trusted then (true, auth)
        else verifyLoop online fuel (pathlen + 1) issuer auth trusted
      else (false, auth)
    match this.getIssuerCert current true with
    | some (issuer, scheme) =>
      -- accept only self-signed CAs as trust anchor
      if this.selfIssued issuer then next issuer (addIssuer .caCert issuer scheme auth) true
      else next issuer (addIssuer .imCert issuer scheme auth) trusted
    | none =>
      match this.getIssuerCert current false with
      | some (issuer, scheme) =>
        -- a self-signed certificate that is not trusted
        if this.equals current issuer then (trusted, auth)
        else next issuer (addIssuer .imCert issuer scheme auth) trusted
      | none => (trusted, auth)

/-- Try to verify the trust chain of `subject`, and add what was collected to `result`. -/
def verifyTrustChain (subject : Cert) (result : AuthCfg Cert) (trusted online : Bool) :
    Bool × AuthCfg Cert :=
  let auth := this.getKeyStrength subject .create
  let auth := auth.add ⟨.subjectCert, subject⟩
  let verified := this.verifyLoop online (maxTrustPathLen + 1) 0 subject auth trusted
  if verified.1 then (true, (result.merge verified.2 false).1)
  else (false, result)

end CredentialManager

end StrongSwan
