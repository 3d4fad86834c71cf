import StrongSwan.Encoding.IkeHeader
import StrongSwan.Networking.Host
import StrongSwan.Utils.Identification

/-!
# IKE_SAs

What the manager of IKE_SAs reads of them, and what they do to that while they are checked out.

* `IkeSaId.equals`, `IkeSaId.hash`.
* `IkeSa`, `ikeSaCreate`; `IkeSa.Change`: none changes the role.
-/

namespace StrongSwan

namespace IkeSaId

def equals (this other : IkeSaId) : Bool :=
  this.ikeVersion = other.ikeVersion &&
    (this.ikeVersion = ikev1MajorVersion || this.isInitiatorFlag = other.isInitiatorFlag) &&
    this.initiatorSpi = other.initiatorSpi && this.responderSpi = other.responderSpi

def switchInitiator (this : IkeSaId) : IkeSaId :=
  { this with isInitiatorFlag := !this.isInitiatorFlag }

/-- An SPI as a number in memory, cut off to 32 bits. -/
def spiHash (spi : U64) : U32 := untoh32 ((htoun64 spi).take 4).reverse

/-- The SPI that decides about the row: our own one, but always the initiator's in IKEv1. -/
def hashSpi (this : IkeSaId) : U64 :=
  if this.ikeVersion = ikev1MajorVersion ∨ this.isInitiatorFlag then this.initiatorSpi
  else this.responderSpi

def hash (this : IkeSaId) : U32 := spiHash this.hashSpi

end IkeSaId

inductive IkeVersion
  | any
  | ikev1
  | ikev2
  deriving DecidableEq, Repr

inductive IkeSaState
  | created
  | connecting
  | established
  | passive
  | rekeying
  | rekeyed
  | deleting
  | destroying
  deriving DecidableEq, Repr

structure IkeSa where
  id : IkeSaId
  version : IkeVersion
  state : IkeSaState
  uniqueId : U32
  myId : Identification
  /-- what `get_other_eap_id` returns -/
  otherEapId : Identification
  otherHost : Host
  /-- `COND_INIT_CONTACT_SEEN` -/
  initContactSeen : Bool
  deriving DecidableEq

def ikeSaCreate (id : IkeSaId) (version : IkeVersion) (uniqueId : U32) : IkeSa where
  id
  version := if version = .any then .ikev2 else version
  state := .created
  uniqueId
  myId := ⟨.any, []⟩
  otherEapId := ⟨.any, []⟩
  otherHost := ⟨.inet, [0, 0, 0, 0], 0, rfl⟩
  initContactSeen := false

inductive IkeSa.Change
  | setState (state : IkeSaState)
  | setMyId (id : Identification)
  | setOtherEapId (id : Identification)
  | setOtherHost (host : Host)
  | setInitContactSeen (enable : Bool)
  | setInitiatorSpi (spi : U64)
  | setResponderSpi (spi : U64)

def IkeSa.apply (this : IkeSa) : Change → IkeSa
  | .setState state => { this with state }
  | .setMyId myId => { this with myId }
  | .setOtherEapId otherEapId => { this with otherEapId }
  | .setOtherHost otherHost => { this with otherHost }
  | .setInitContactSeen initContactSeen => { this with initContactSeen }
  | .setInitiatorSpi spi => { this with id.initiatorSpi := spi }
  | .setResponderSpi spi => { this with id.responderSpi := spi }

/-- **An IKE_SA keeps its role.** -/
@[simp] theorem IkeSa.role_apply (this : IkeSa) (change : Change) :
    (this.apply change).id.isInitiatorFlag = this.id.isInitiatorFlag := by
  cases change <;> rfl

end StrongSwan
