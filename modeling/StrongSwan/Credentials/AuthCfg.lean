import StrongSwan.Crypto.Hasher
import StrongSwan.Crypto.RsaPss
import StrongSwan.Utils.Identification

/-!
# Authentication configs

An `AuthCfg` is an array of rules with values. Rules that may occur only once are inserted at the front,
where they hide older values, the others at the end.

* `AuthRule`, `AuthEntry`: an entry has a value of the kind of its rule.
* `createEnumerator`, `add`, `replace`, `get`, `merge`, `purge`, `clone`: the operations.
* `authCfgEquals`, `equals`: the entries of one config are searched for in the other one.

A config is merged into another object, and the sentinel after the last rule is none.
-/

namespace StrongSwan

inductive AuthRule
  | identity | identityLoose | authClass | aaaIdentity | eapIdentity | eapType | eapVendor
  | xauthBackend | xauthIdentity | caCert | imCert | subjectCert | crlValidation | ocspValidation
  | certValidationSuspended | group | rsaStrength | ecdsaStrength | blissStrength | signatureScheme
  | ikeSignatureScheme | certPolicy
  | helperImCert | helperSubjectCert | helperImHashUrl | helperSubjectHashUrl
  | helperRevocationCert | helperAcCert
  deriving DecidableEq, Repr

/-- `signature_params_t`: only RSASSA-PSS has parameters. -/
inductive SignatureParams
  | plain (scheme : U32)
  | pss (params : Option RsaPssParams)

namespace SignatureParams

/-- The salt length, `-1` if there is none. -/
def rsaPssSaltLength (pss : RsaPssParams) : ℤ :=
  if pss.saltLen.toInt ≤ rsaPssSaltLenDefault then
    if hasherHashSize pss.hash = 0 then -1 else hasherHashSize pss.hash
  else pss.saltLen.toInt

/-- `signature_params_equal`, of schemes that are there. -/
def equal : SignatureParams → SignatureParams → Bool
  | plain a, plain b => a = b
  | pss none, pss none => true
  | pss (some a), pss (some b) =>
    decide (a.hash = b.hash) && decide (a.mgf1Hash = b.mgf1Hash) &&
      decide (rsaPssSaltLength a = rsaPssSaltLength b)
  | _, _ => false

/-- `signature_params_clone`, without the salt that is there for unit tests. -/
def clone : SignatureParams → SignatureParams
  | plain scheme => plain scheme
  | pss none => pss none
  | pss (some params) => pss (some { params with salt := [], length_salt := by decide })

end SignatureParams

/-- The kinds of values that rules have. -/
inductive RuleKind
  | number
  | cert
  | identity
  | params
  | text

@[reducible] def RuleKind.Value (Cert : Type) : RuleKind → Type
  | .number => U32
  | .cert => Cert
  | .identity => Identification
  | .params => SignatureParams
  | .text => String

namespace AuthRule

/-- Check if the given rule is a rule for which there may be multiple values. -/
def isMultiValueRule : AuthRule → Bool
  | authClass | eapType | eapVendor | identity | identityLoose | eapIdentity | aaaIdentity
  | xauthIdentity | xauthBackend | certValidationSuspended | helperSubjectCert
  | helperSubjectHashUrl => false
  | ocspValidation | crlValidation | group | subjectCert | caCert | imCert | certPolicy | rsaStrength
  | ecdsaStrength | blissStrength | signatureScheme | ikeSignatureScheme | helperImCert
  | helperImHashUrl | helperRevocationCert | helperAcCert => true

@[reducible] def kind : AuthRule → RuleKind
  | identityLoose | authClass | eapType | eapVendor | crlValidation | ocspValidation | rsaStrength
  | ecdsaStrength | blissStrength | certValidationSuspended => .number
  | caCert | imCert | subjectCert | helperImCert | helperSubjectCert | helperRevocationCert
  | helperAcCert => .cert
  | identity | eapIdentity | aaaIdentity | xauthIdentity | group => .identity
  | signatureScheme | ikeSignatureScheme => .params
  | certPolicy | xauthBackend | helperImHashUrl | helperSubjectHashUrl => .text

abbrev Value (Cert : Type) (type : AuthRule) : Type := type.kind.Value Cert

/-- The defaults `get` has for rules without an entry (`EAP_NAK` is 3, `VALIDATION_FAILED` too). -/
def defaultValue (Cert : Type) : (type : AuthRule) → Option (type.Value Cert)
  | authClass => some (0 : U32)
  | eapType => some (3 : U32)
  | eapVendor => some (0 : U32)
  | rsaStrength => some (0 : U32)
  | ecdsaStrength => some (0 : U32)
  | blissStrength => some (0 : U32)
  | crlValidation => some (3 : U32)
  | ocspValidation => some (3 : U32)
  | identityLoose => some (0 : U32)
  | certValidationSuspended => some (0 : U32)
  | _ => none

end AuthRule

/-- `entry_t` -/
structure AuthEntry (Cert : Type) where
  type : AuthRule
  value : type.Value Cert

structure AuthCfg (Cert : Type) where
  entries : List (AuthEntry Cert)

namespace AuthCfg

variable {Cert : Type}

/-! ## Values -/

/-- The comparison of two values of a kind; certificates compare with `certEquals`. -/
def valueEquals (certEquals : Cert → Cert → Bool) :
    (kind : RuleKind) → kind.Value Cert → kind.Value Cert → Bool
  | .number => fun (a b : U32) => decide (a = b)
  | .cert => certEquals
  | .identity => Identification.equals
  | .params => SignatureParams.equal
  | .text => fun (a b : String) => decide (a = b)

/-- A copy of a value, or a reference to it. -/
def copyValue : (kind : RuleKind) → kind.Value Cert → kind.Value Cert
  | .params => SignatureParams.clone
  | .number | .cert | .identity | .text => id

/-- The comparison `get` makes of validation results. -/
def exceeds : (kind : RuleKind) → kind.Value Cert → kind.Value Cert → Bool
  | .number => fun (current best : U32) => decide (best < current)
  | _ => fun _ _ => false

def valueOf (type : AuthRule) (entry : AuthEntry Cert) : Option (type.Value Cert) :=
  if h : entry.type = type then some (h ▸ entry.value) else none

/-- Compare two entries for equality. -/
def entryEquals (certEquals : Cert → Cert → Bool) (e1 e2 : AuthEntry Cert) : Bool :=
  match valueOf e1.type e2 with
  | some value => valueEquals certEquals e1.type.kind e1.value value
  | none => false

/-! ## Operations -/

def create : AuthCfg Cert := ⟨[]⟩

/-- What an enumerator yields, when it has already enumerated the types `enumerated`. -/
def enumerate (enumerated : List AuthRule) : List (AuthEntry Cert) → List (AuthEntry Cert)
  | [] => []
  | entry :: inner =>
    if !entry.type.isMultiValueRule && decide (entry.type ∈ enumerated) then
      enumerate enumerated inner
    else entry :: enumerate (entry.type :: enumerated) inner

def createEnumerator (this : AuthCfg Cert) : List (AuthEntry Cert) := enumerate [] this.entries

/-- Where the enumerator is in the array, at its `n`-th entry. -/
def currentIndex (enumerated : List AuthRule) : List (AuthEntry Cert) → ℕ → Option ℕ
  | [], _ => none
  | entry :: inner, n =>
    if !entry.type.isMultiValueRule && decide (entry.type ∈ enumerated) then
      (currentIndex enumerated inner n).map (· + 1)
    else match n with
      | 0 => some 0
      | n + 1 => (currentIndex (entry.type :: enumerated) inner n).map (· + 1)

/-- Replace the entry an enumerator is at, its `n`-th. -/
def replace (this : AuthCfg Cert) (n : ℕ) (entry : AuthEntry Cert) : AuthCfg Cert :=
  match currentIndex [] this.entries n with
  | some i => ⟨this.entries.set i entry⟩
  | none => this

/-- The loop of `get`: the highest value of CRL and OCSP validation, and the first one of others. -/
def getLoop (type : AuthRule) :
    List (AuthEntry Cert) → Option (type.Value Cert) → Option (type.Value Cert)
  | [], best => best
  | entry :: rest, best =>
    match valueOf type entry with
    | none => getLoop type rest best
    | some current =>
      if type = .crlValidation ∨ type = .ocspValidation then
        match best with
        | none => getLoop type rest (some current)
        | some b => getLoop type rest (if exceeds type.kind current b then some current else some b)
      else some current

def get (this : AuthCfg Cert) (type : AuthRule) : Option (type.Value Cert) :=
  match getLoop type this.createEnumerator none with
  | some value => some value
  | none => type.defaultValue Cert

def add (this : AuthCfg Cert) (entry : AuthEntry Cert) : AuthCfg Cert :=
  if entry.type.isMultiValueRule then ⟨this.entries ++ [entry]⟩
  else ⟨entry :: this.entries⟩

def copyEntry (entry : AuthEntry Cert) : AuthEntry Cert :=
  ⟨entry.type, copyValue entry.type.kind entry.value⟩

/-- Add copies of what an enumerator of `other` yields. -/
def addCopies (this other : AuthCfg Cert) : AuthCfg Cert :=
  other.createEnumerator.foldl (fun this entry => this.add (copyEntry entry)) this

/-- Merge all rules of `other`, and what is left of it. -/
def merge (this other : AuthCfg Cert) (copy : Bool) : AuthCfg Cert × AuthCfg Cert :=
  if copy then (this.addCopies other, other)
  else (⟨other.entries.foldr (· :: ·) this.entries⟩, ⟨[]⟩)

/-- Search an entry of one config in the other one. -/
def search (certEquals : Cert → Cert → Bool) (i1 : AuthEntry Cert) : List (AuthEntry Cert) → Bool
  | [] => false
  | i2 :: rest =>
    if entryEquals certEquals i1 i2 then true
    else if decide (i1.type = i2.type) && !i1.type.isMultiValueRule then
      -- the search continues for multi valued rules only
      false
    else search certEquals i1 rest

/-- Compare two configs for equality. -/
def authCfgEquals (certEquals : Cert → Cert → Bool) (this other : AuthCfg Cert) : Bool :=
  this.entries.all fun i1 => search certEquals i1 other.entries

def equals (certEquals : Cert → Cert → Bool) (this other : AuthCfg Cert) : Bool :=
  authCfgEquals certEquals this other && authCfgEquals certEquals other this

def purge (this : AuthCfg Cert) (keepCa : Bool) : AuthCfg Cert :=
  ⟨this.entries.filter fun entry => keepCa && decide (entry.type = .caCert)⟩

def clone (this : AuthCfg Cert) : AuthCfg Cert := create.addCopies this

end AuthCfg

end StrongSwan
