import StrongSwan.Utils.Identification

/-!
# Name constraints of certificates

CAs may permit or exclude names. `checkNameConstraints` checks a certificate against its issuer only: a
sub-CA has to inherit the constraints of its issuer.

* `rdnParts`: the parts of a DN. `fqdnMatches`, `emailMatches`, `dnMatches`: whether a name is under a
  constraint.
* `nameConstraintMatches`, `nameConstraintInherited`, `checkNameConstraints`.
-/

namespace StrongSwan

/-- `id_part_t`: the RDNs that are known -/
inductive IdPart
  | rdnCn
  | rdnS
  | rdnSn
  | rdnC
  | rdnL
  | rdnSt
  | rdnO
  | rdnOu
  | rdnT
  | rdnD
  | rdnN
  | rdnG
  | rdnI
  | rdnDnq
  | rdnDmdn
  | rdnPn
  | rdnId
  | rdnE
  | rdnEn
  deriving DecidableEq, Repr

/-- The OIDs of the RDNs that are known. -/
def oid2part : List (Chunk × IdPart) :=
  [([0x55, 0x04, 0x03], .rdnCn), ([0x55, 0x04, 0x04], .rdnS), ([0x55, 0x04, 0x05], .rdnSn),
    ([0x55, 0x04, 0x06], .rdnC), ([0x55, 0x04, 0x07], .rdnL), ([0x55, 0x04, 0x08], .rdnSt),
    ([0x55, 0x04, 0x0A], .rdnO), ([0x55, 0x04, 0x0B], .rdnOu), ([0x55, 0x04, 0x0C], .rdnT),
    ([0x55, 0x04, 0x0D], .rdnD), ([0x55, 0x04, 0x29], .rdnN), ([0x55, 0x04, 0x2A], .rdnG),
    ([0x55, 0x04, 0x2B], .rdnI), ([0x55, 0x04, 0x2E], .rdnDnq), ([0x55, 0x04, 0x36], .rdnDmdn),
    ([0x55, 0x04, 0x41], .rdnPn), ([0x55, 0x04, 0x2D], .rdnId), (oidEmailAddress, .rdnE),
    ([0x60, 0x86, 0x48, 0x01, 0x86, 0xF8, 0x42, 0x03, 0x01, 0x03], .rdnEn)]

/-- The part of an OID; what follows behind a known one is not read. -/
def partOf (oid : Chunk) : Option IdPart := (oid2part.find? fun entry => entry.1.isPrefixOf oid).map (·.2)

/-- `create_part_enumerator`: the RDNs of a DN that are known, nothing for other identities. -/
def Identification.rdnParts (this : Identification) : List (IdPart × Chunk) :=
  if this.type = .derAsn1Dn then
    (rdns this.encoded).filterMap fun rdn => (partOf rdn.oid).map fun part => (part, rdn.data)
  else []

/-- `x509_t`, as far as name constraints are concerned -/
structure X509 where
  subject : Identification
  subject_type : subject.type = .derAsn1Dn
  subjectAltNames : List Identification
  /-- the flag `X509_CA` -/
  isCa : Bool
  permitted : List Identification
  excluded : List Identification

namespace ConstraintsValidator

/-! ## Matching -/

/-- The constraint is a suffix; what precedes it is empty, or one of them has a dot where they meet. -/
def fqdnMatches (constraint id : Identification) : Bool :=
  let c := constraint.encoded
  let i := id.encoded
  if c = [] ∨ i.length < c.length then false
  else
    let diff := i.take (i.length - c.length)
    if !chunkEquals c (i.drop diff.length) then false
    else diff = [] || c.head? = some 0x2e || diff.getLast? = some 0x2e

def emailMatches (constraint id : Identification) : Bool :=
  let c := constraint.encoded
  let i := id.encoded
  if c = [] ∨ i.length < c.length then false
  -- constraint is a full email address
  else if 0x40 ∈ c then chunkEquals c i
  else
    let diff := i.take (i.length - c.length)
    if diff = [] ∨ !chunkEquals c (i.drop diff.length) then false
    -- constraint is domain, suffix match, or it is host specific, only username can be appended
    else c.head? = some 0x2e || diff.getLast? = some 0x40

def dnMatches (constraint id : Identification) : Bool := constraint.rdnParts.isPrefixOf id.rdnParts

/-- How an identity of the type of the constraint matches it. -/
def typeMatches (constraint id : Identification) : Bool :=
  match constraint.type with
  | .fqdn => fqdnMatches constraint id
  | .rfc822Addr => emailMatches constraint id
  | .derAsn1Dn => dnMatches constraint id
  -- NameConstraint matching not implemented
  | _ => false

/-- Go through the names: those of the type of the constraint are matched until one does not match as
expected. -/
def namesMatch (constraint : Identification) (expected : Bool) : List Identification → Bool → Bool
  | [], result => result
  | id :: rest, result =>
    let result := if id.type = constraint.type then typeMatches constraint id else result
    if result ≠ expected then result else namesMatch constraint expected rest result

/-- Check if a certificate matches to a NameConstraint. -/
def nameConstraintMatches (constraint : Identification) (cert : X509) (permitted : Bool) : Bool :=
  if constraint.type = .derAsn1Dn ∧ dnMatches constraint cert.subject ≠ permitted then
    dnMatches constraint cert.subject
  else namesMatch constraint permitted cert.subjectAltNames permitted

/-- The constraints of one kind. -/
def constraints (cert : X509) (permitted : Bool) : List Identification :=
  if permitted then cert.permitted else cert.excluded

/-- Check if a permitted or excluded NameConstraint has been inherited to sub-CA. -/
def nameConstraintInherited (constraint : Identification) (x509 : X509) (permitted : Bool) : Bool :=
  -- not a sub-CA, not required
  !x509.isCa || (constraints x509 permitted).any fun id =>
    id.type = constraint.type &&
      -- a permitted constraint can be narrowed, an excluded one can be widened
      if permitted then typeMatches constraint id else typeMatches id constraint

def checkNameConstraints (subject issuer : X509) : Bool :=
  (issuer.permitted.all fun constraint =>
      nameConstraintMatches constraint subject true && nameConstraintInherited constraint subject true) &&
    issuer.excluded.all fun constraint =>
      !nameConstraintMatches constraint subject false && nameConstraintInherited constraint subject false

/-- The checks of a chain: each certificate with its issuer. -/
def checkChain : X509 → List X509 → Bool
  | _, [] => true
  | subject, issuer :: rest => checkNameConstraints subject issuer && checkChain issuer rest

end ConstraintsValidator

end StrongSwan
