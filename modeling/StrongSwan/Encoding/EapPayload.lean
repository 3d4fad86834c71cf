import StrongSwan.Basic

/-!
# EAP payloads

An `EapPayload` carries an EAP message: code, identifier, length, and a type that may be expanded.

* `getCode`, `getIdentifier`, `getType`, `isExpanded`.
* `eapPayloadCreateNak`: the answer to a request for another method.
-/

namespace StrongSwan

def eapRequest : U8 := 1
def eapResponse : U8 := 2
def eapSuccess : U8 := 3
def eapFailure : U8 := 4

/-- `eap_type_t` with a vendor, zero for none -/
structure EapType where
  type : U32
  vendor : U32
  deriving DecidableEq, Repr

/-- `EAP_IDENTITY` -/
def eapIdentityType : EapType := ⟨1, 0⟩

/-- `EAP_NAK` -/
def eapNak : U32 := 3

/-- `EAP_EXPANDED` -/
def eapExpanded : U8 := 254

structure EapPayload where
  data : Chunk
  deriving DecidableEq

namespace EapPayload

def getCode (this : EapPayload) : U8 := this.data.getD 0 0

def getIdentifier (this : EapPayload) : U8 := this.data.getD 1 0

/-- Get the type at the given offset, and the new offset. -/
def extractType (this : EapPayload) (offset : ℕ) : Option (EapType × ℕ) :=
  if this.data.length > offset then
    let type := this.data.getD offset 0
    if type ≠ eapExpanded then some (⟨type.setWidth 32, 0⟩, offset + 1)
    else if this.data.length ≥ offset + 8 then
      some (⟨untoh32 (this.data.drop (offset + 4)),
        untoh32 (this.data.drop offset) &&& 0x00FFFFFF⟩, offset + 8)
    else none
  else none

/-- The type; zero if there is none. -/
def getType (this : EapPayload) : EapType := ((this.extractType 4).map (·.1)).getD ⟨0, 0⟩

def isExpanded (this : EapPayload) : Bool :=
  decide (this.data.length > 4) && this.data.getD 4 0 = eapExpanded

end EapPayload

/-- Write the given type either expanded or not. -/
def writeType (type : EapType) (expanded : Bool) : Chunk :=
  if expanded then
    [eapExpanded] ++ Bytes.ofNat 3 type.vendor.toNat ++ htoun32 type.type
  else [type.type.setWidth 8]

/-- `eap_payload_create_nak`, with the types that are registered -/
def eapPayloadCreateNak (registered : List EapType) (identifier : U8) (preferred : EapType)
    (expanded : Bool) : EapPayload :=
  -- the preferred type is only sent if we actually find it
  let types := registered.filter fun reg =>
    !((preferred.type ≠ 0 && preferred.type ≠ reg.type) ||
      (preferred.type ≠ 0 && preferred.vendor ≠ 0 && preferred.vendor ≠ reg.vendor))
  let added := types.filter fun reg => reg.vendor = 0 || expanded
  -- found vendor specific method, but this is not an expanded Nak
  let foundVendor := types.any fun reg => !(reg.vendor = 0 || expanded)
  let body := added.flatMap (writeType · expanded) ++
    (if foundVendor then writeType ⟨eapExpanded.setWidth 32, 0⟩ expanded else []) ++
    (if added = [] ∧ !foundVendor then writeType ⟨0, 0⟩ expanded else [])
  let rest := writeType ⟨eapNak, 0⟩ expanded ++ body
  ⟨[eapResponse, identifier] ++ Bytes.ofNat 2 (rest.length + 4) ++ rest⟩

end StrongSwan
