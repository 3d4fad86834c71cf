import StrongSwan.Asn1.Asn1
import StrongSwan.Utils.ChunkHash

/-!
# Identities

An `Identification` has a type and an encoding. `equals` depends on the type: names are compared
without case, and distinguished names by their RDNs.

* `strncasecmp`, `asn1Unwrap`, `rdns`, `compareDn`.
* `Identification.equals`; it is neither symmetric nor transitive.
* `Identification.hash`
-/

namespace StrongSwan

/-- `id_type_t`: the types that are not compared byte by byte, `ID_ANY`, and all others. -/
inductive IdType
  | any
  | fqdn
  | rfc822Addr
  | derAsn1Dn
  | other (number : U32) (h : number ∉ [0, 2, 3, 9])
  deriving DecidableEq, Repr

def IdType.number : IdType → U32
  | any => 0
  | fqdn => 2
  | rfc822Addr => 3
  | derAsn1Dn => 9
  | other number _ => number

structure Identification where
  type : IdType
  encoded : Chunk
  deriving DecidableEq

/-- `chunk_equals`; a chunk without bytes has no pointer, as `chunk_clone` makes it, and equals
nothing. -/
def chunkEquals (a b : Chunk) : Bool := a ≠ [] && a = b

def tolower (c : U8) : U8 := if 0x41 ≤ c ∧ c ≤ 0x5A then c + 0x20 else c

/-- `strncasecmp` of two strings with enough bytes is zero. -/
def strncasecmp : Chunk → Chunk → Bool
  | c :: s, c' :: s' => tolower c = tolower c' && (c = 0 || strncasecmp s s')
  | _, _ => true

/-! ## Distinguished names -/

/-- `OID_EMAIL_ADDRESS`: 1.2.840.113549.1.9.1 -/
def oidEmailAddress : Chunk := [0x2A, 0x86, 0x48, 0x86, 0xF7, 0x0D, 0x01, 0x09, 0x01]

/-- `asn1_known_oid` returns `OID_EMAIL_ADDRESS`; what follows behind a terminal symbol is not
read. -/
def isEmailAddress (oid : Chunk) : Bool := oidEmailAddress.isPrefixOf oid

/-- `asn1_unwrap`: type, contents, and what follows. -/
def asn1Unwrap : Chunk → Option (U8 × Chunk × Chunk)
  | type :: len :: blob =>
    let inner (len : ℕ) (blob : Chunk) :=
      if len > blob.length then none else some (type, blob.take len, blob.drop len)
    if len &&& 0x80 = 0 then inner len.toNat blob
    else
      let octets := (len &&& 0x7F).toNat
      if octets = 0 ∨ octets > blob.length ∨ octets > 8 then none
      else inner (Bytes.value (blob.take octets)) (blob.drop octets)
  | _ => none

/-- The contents, if they have a type. -/
def asn1UnwrapType (type : U8) (blob : Chunk) : Option (Chunk × Chunk) :=
  match asn1Unwrap blob with
  | some (type', inner, rest) => if type' = type then some (inner, rest) else none
  | none => none

/-- A relative distinguished name, and whether the DN ends with its data: these are not empty, as there
is no pointer then. -/
structure Rdn where
  oid : Chunk
  type : U8
  data : Chunk
  isLast : Bool

/-- `rdn_enumerate` with the SETs and SEQUENCEs that are left. Each call makes at least one of them
shorter. -/
def rdnEnumerate (after : Chunk) : ℕ → Chunk → Chunk → List Rdn
  | 0, _, _ => []
  | fuel + 1, sets, seqs =>
    -- no SEQUENCEs in current SET, parse next SET
    match if seqs = [] then asn1UnwrapType asn1Set sets else some (seqs, sets) with
    | none => []
    | some (seqs, sets) =>
      match asn1UnwrapType asn1Sequence seqs with
      | none => []
      | some (rdn, seqs) =>
        match asn1UnwrapType asn1Oid rdn with
        | none => []
        | some (oid, rdn) =>
          match asn1Unwrap rdn with
          | none => []
          | some (type, data, rdn) =>
            ⟨oid, type, data, data ≠ [] ∧ rdn = [] ∧ seqs = [] ∧ sets = [] ∧ after = []⟩ ::
              rdnEnumerate after fuel sets seqs

/-- `create_rdn_enumerator` -/
def rdns (dn : Chunk) : List Rdn :=
  match asn1UnwrapType asn1Sequence dn with
  | some (sets, after) => rdnEnumerate after dn.length sets []
  | none => []

/-- Compare RDNs; `finished` if the last ones were the ends of their DNs. -/
def compareRdns : List Rdn → List Rdn → (finished : Bool) → Bool
  | [], [], finished => finished
  | t :: ts, o :: os, _ =>
    if t.oid ≠ o.oid ∨ t.data.length ≠ o.data.length then false
    else
      -- ignore case for printableStrings and email RDNs
      let same : Bool :=
        if t.type = o.type ∧ (t.type = asn1PrintableString ∨
            t.type = asn1Ia5String ∧ isEmailAddress t.oid) then strncasecmp t.data o.data
        else t.data = o.data
      if same then compareRdns ts os (t.isLast && o.isLast) else false
  | _, _, _ => false

/-- `compare_dn`, without wildcards -/
def compareDn (t o : Chunk) : Bool :=
  if t.length ≠ o.length then false
  else chunkEquals t o || compareRdns (rdns t) (rdns o) false

/-! ## Comparing identities -/

namespace Identification

/-- `equals`; that of a DN does not look at the type of the other identity. -/
def equals (this other : Identification) : Bool :=
  match this.type with
  | .fqdn | .rfc822Addr =>
    this.type = other.type && this.encoded.length = other.encoded.length &&
      !this.encoded.contains 0 && !other.encoded.contains 0 &&
      strncasecmp this.encoded other.encoded
  | .derAsn1Dn => compareDn this.encoded other.encoded
  | _ => this.type = other.type && (this.type = .any || chunkEquals this.encoded other.encoded)

/-- A DN equals a key ID with its encoding, which does not equal the DN. -/
example : (equals ⟨.derAsn1Dn, [0x30, 0]⟩ ⟨.other 11 (by decide), [0x30, 0]⟩,
    equals ⟨.other 11 (by decide), [0x30, 0]⟩ ⟨.derAsn1Dn, [0x30, 0]⟩) = (true, false) := by decide

/-! ## Hashing identities -/

/-- `hash_binary`, with the secret key -/
def hashBinary (key : Chunk) (this : Identification) (inc : U32) : U32 :=
  let hash := chunkHashInc key (chunkFromThing this.type.number) inc
  if this.type ≠ .any then chunkHashInc key this.encoded hash else hash

/-- `hash_dn`, with the secret key -/
def hashDn (key : Chunk) (this : Identification) (inc : U32) : U32 :=
  (rdns this.encoded).foldl (fun hash rdn => chunkHashInc key rdn.data (chunkHashInc key rdn.oid hash))
    (chunkHashInc key (chunkFromThing this.type.number) inc)

/-- `hash`, as `identification_create` sets it -/
def hash (key : Chunk) (this : Identification) (inc : U32) : U32 :=
  match this.type with
  | .derAsn1Dn => this.hashDn key inc
  | _ => this.hashBinary key inc

end Identification

end StrongSwan
