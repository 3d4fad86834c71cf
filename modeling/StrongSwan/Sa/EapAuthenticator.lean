import StrongSwan.Encoding.EapPayload
import StrongSwan.Sa.KeymatV2

/-!
# The EAP authenticator of a client

A server runs EAP methods with the client, tells it the success, and both prove in AUTH payloads that
they have the key of the method.

* `EapMethods`: methods, as parameters.
* `EapAuthenticator`: `clientProcessEap`, `verifyAuth`, `buildAuth`.
* `processClient`, `buildClient`, `isMutual`.

Where the code reads a method that is not there, there is no result.
-/

namespace StrongSwan

/-- What a method makes of a request. -/
inductive EapResult
  | needMore (out : EapPayload)
  | success (out : EapPayload)
  | failed

/-- `eap_method_t` for peers, with the instances that the EAP manager creates; `σ` is the state of a
method of any kind. -/
structure EapMethods (σ : Type) where
  /-- the types that are registered -/
  registered : List EapType
  /-- `create_instance`, for the identities of server and peer -/
  createInstance : EapType → Identification → Identification → Option σ
  getType : σ → EapType
  process : σ → EapPayload → EapResult × σ
  isMutual : σ → Bool
  /-- the MSK, if it is established -/
  getMsk : σ → Option Chunk

structure EapMethods.Lawful {σ : Type} (this : EapMethods σ) : Prop where
  getType_create : ∀ {type server peer method}, this.createInstance type server peer = some method →
    this.getType method = type
  getType_process : ∀ method request, this.getType (this.process method request).2 =
    this.getType method

/-- What the authenticator reads of the IKE_SA, and of its configuration for the client. -/
structure EapIkeSa where
  keymat : KeymatV2
  myId : Identification
  otherId : Identification
  /-- `AUTH_RULE_EAP_IDENTITY` -/
  eapIdentity : Option Identification
  /-- `AUTH_RULE_AAA_IDENTITY` -/
  aaaIdentity : Option Identification
  /-- `AUTH_RULE_EAP_TYPE` and `AUTH_RULE_EAP_VENDOR` -/
  eapType : Option U32
  eapVendor : Option U32

/-- What the authenticator finds in a message. -/
structure AuthMessage where
  eap : Option EapPayload
  /-- the data of the AUTH payload -/
  auth : Option Chunk

structure EapAuthenticator (σ : Type) where
  ikeSa : EapIkeSa
  /-- others nonce to include in AUTH calculation -/
  receivedNonce : Chunk
  /-- our nonce to include in AUTH calculation -/
  sentNonce : Chunk
  /-- others IKE_SA_INIT message data to include in AUTH calculation -/
  receivedInit : Chunk
  /-- our IKE_SA_INIT message data to include in AUTH calculation -/
  sentInit : Chunk
  /-- reserved bytes of ID payload -/
  reserved : Chunk
  /-- current EAP method processing -/
  method : Option σ
  /-- MSK used to build and verify auth payload -/
  msk : Chunk
  /-- EAP authentication method completed successfully -/
  eapComplete : Bool
  /-- set if we require mutual EAP due EAP-only authentication -/
  requireMutual : Bool
  /-- authentication payload verified successfully -/
  authComplete : Bool
  /-- generated EAP payload -/
  eapPayload : Option EapPayload
  /-- EAP identity of peer -/
  eapIdentity : Option Identification

def eapAuthenticatorCreateBuilder {σ : Type} (ikeSa : EapIkeSa) (receivedNonce sentNonce receivedInit
    sentInit reserved : Chunk) : EapAuthenticator σ where
  ikeSa
  receivedNonce
  sentNonce
  receivedInit
  sentInit
  reserved
  method := none
  msk := []
  eapComplete := false
  requireMutual := false
  authComplete := false
  eapPayload := none
  eapIdentity := none

namespace EapAuthenticator

variable {σ : Type} (methods : EapMethods σ)

def loadMethod (this : EapAuthenticator σ) (type : EapType) : Option σ :=
  methods.createInstance type (this.ikeSa.aaaIdentity.getD this.ikeSa.otherId)
    (this.eapIdentity.getD this.ikeSa.myId)

def nak (request : EapPayload) (preferred : EapType) (expanded : Bool) : EapPayload :=
  eapPayloadCreateNak methods.registered request.getIdentifier preferred expanded

/-- Answer a request for the identity. -/
def processIdentity (this : EapAuthenticator σ) (request : EapPayload) :
    EapPayload × EapAuthenticator σ :=
  let id := match this.ikeSa.eapIdentity with
    | some id => if id.type = .any then this.ikeSa.myId else id
    | none => this.ikeSa.myId
  let this := { this with eapIdentity := some id }
  match this.loadMethod methods request.getType with
  | some method =>
    match (methods.process method request).1 with
    | .success out => (out, { this with method := none })
    | _ => (nak methods request ⟨0, 0⟩ false, { this with method := none })
  | none => (nak methods request ⟨0, 0⟩ false, { this with method := none })

def processMethod (this : EapAuthenticator σ) (method : σ) (request : EapPayload) :
    Option EapPayload × EapAuthenticator σ :=
  let this := { this with method := some (methods.process method request).2 }
  match (methods.process method request).1 with
  | .needMore out => (some out, this)
  -- client methods should never return SUCCESS
  | _ => (none, this)

def clientProcessEap (this : EapAuthenticator σ) (request : EapPayload) :
    Option EapPayload × EapAuthenticator σ :=
  let type := request.getType
  if type = eapIdentityType then
    let (out, this) := this.processIdentity methods request
    (some out, this)
  else
    match this.method with
    | some method => this.processMethod methods method request
    | none =>
      let conf : EapType := ⟨this.ikeSa.eapType.getD eapNak, this.ikeSa.eapVendor.getD 0⟩
      if conf.type ≠ eapNak ∧ conf ≠ type then
        (some (nak methods request conf request.isExpanded), this)
      else
        match this.loadMethod methods type with
        | none => (some (nak methods request ⟨0, 0⟩ request.isExpanded), this)
        | some method => this.processMethod methods method request

/-- Verify AUTH payload. -/
def verifyAuth (this : EapAuthenticator σ) (message : AuthMessage) (nonce init : Chunk) :
    Option (Bool × EapAuthenticator σ) :=
  match message.auth with
  | none => some (false, this)
  | some received =>
    match this.ikeSa.keymat.getPskSig true init nonce this.msk this.ikeSa.otherId this.reserved with
    | none => some (false, this)
    | some auth =>
      if auth.length = 0 ∨ auth ≠ received then some (false, this)
      else
        -- the type of the method is recorded
        this.method.map fun _ => (true, { this with authComplete := true })

/-- Build the data of an AUTH payload. -/
def buildAuth (this : EapAuthenticator σ) (nonce init : Chunk) : Option Chunk :=
  this.ikeSa.keymat.getPskSig false init nonce this.msk this.ikeSa.myId this.reserved

def processSuccess (this : EapAuthenticator σ) : Option (EapAuthenticator σ) :=
  this.method.map fun method =>
    let msk := (methods.getMsk method).getD this.msk
    let type := methods.getType method
    { this with
      msk
      eapComplete := true
      ikeSa := { this.ikeSa with
        eapType := some type.type
        eapVendor := if type.vendor ≠ 0 then some type.vendor else this.ikeSa.eapVendor } }

def processClient (this : EapAuthenticator σ) (message : AuthMessage) :
    Option (Status × EapAuthenticator σ) :=
  if this.eapComplete then
    match this.verifyAuth message this.sentNonce this.receivedInit with
    | none => none
    | some (false, this) => some (.failed, this)
    | some (true, this) =>
      if this.requireMutual then
        this.method.map fun method =>
          -- we require mutual authentication due to EAP-only
          (if methods.isMutual method then .success else .failed, this)
      else some (.success, this)
  else
    match message.eap with
    | none => some (.failed, this)
    | some eapPayload =>
      if eapPayload.getCode = eapRequest then
        let (out, this) := this.clientProcessEap methods eapPayload
        some (if out.isSome then .needMore else .failed, { this with eapPayload := out })
      else if eapPayload.getCode = eapSuccess then
        (this.processSuccess methods).map fun this => (.needMore, this)
      else some (.failed, this)

/-- Also returns what is added to the message: an EAP payload, or the data of an AUTH payload. -/
def buildClient (this : EapAuthenticator σ) : AuthMessage × EapAuthenticator σ :=
  match this.eapPayload with
  | some eapPayload => (⟨some eapPayload, none⟩, { this with eapPayload := none })
  | none =>
    if this.eapComplete then (⟨none, this.buildAuth this.receivedNonce this.sentInit⟩, this)
    else (⟨none, none⟩, this)

def isMutual (this : EapAuthenticator σ) : Bool × EapAuthenticator σ :=
  match this.method.filter fun method => methods.getType method ≠ eapIdentityType with
  | some method => (methods.isMutual method, this)
  -- we don't know yet, but insist on it after EAP is complete
  | none => (true, { this with requireMutual := true })

end EapAuthenticator

end StrongSwan
