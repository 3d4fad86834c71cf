import StrongSwan.Lib.System
import StrongSwan.Sa.EapAuthenticator

/-!
# The client authenticates the server

* `EapRun`, `clientSystem`: a client that is fed with messages until it is done; a run is broken once
  a method is read that was not loaded.
* `Served`: a method was loaded for a request, and processed it and others.
* `EapRun.Inv`, the invariant of all runs in which no success is premature (`EapEvent.Timely`).
* **`client_authenticated`**.
-/

namespace StrongSwan

variable {σ : Type}

/-- What happens to the client. -/
inductive EapEvent
  /-- a message is received -/
  | process (message : AuthMessage)
  /-- a message is sent -/
  | build
  /-- mutual authentication is asked for -/
  | isMutual

/-- A client, the EAP requests it got so far, and whether its last message was not enough. -/
structure EapRun (σ : Type) where
  this : EapAuthenticator σ
  requests : List EapPayload
  status : Status

def AuthMessage.requests (message : AuthMessage) : List EapPayload :=
  (message.eap.filter fun eap => eap.getCode = eapRequest).toList

namespace EapRun

variable (methods : EapMethods σ)

/-- The next state; none if the client reads a method that was not loaded. A client that failed or
succeeded is destroyed. -/
def step (run : EapRun σ) : EapEvent → Option (EapRun σ)
  | .process message =>
    if run.status ≠ .needMore then some run
    else (run.this.processClient methods message).map fun result =>
      ⟨result.2, run.requests ++ message.requests, result.1⟩
  | .build =>
    if run.status ≠ .needMore then some run else some { run with this := run.this.buildClient.2 }
  | .isMutual =>
    if run.status ≠ .needMore then some run
    else some { run with this := (run.this.isMutual methods).2 }

/-- **A success is not premature**: a method is loaded when it arrives, and a mutual method has its
MSK if mutual authentication is required. -/
def Timely (run : EapRun σ) : EapEvent → Prop
  | .process message =>
    run.status = .needMore → run.this.eapComplete = false →
      (∃ eap, message.eap = some eap ∧ eap.getCode = eapSuccess) →
      ∃ method, run.this.method = some method ∧
        (run.this.requireMutual = true → methods.isMutual method = true →
          ∃ msk, methods.getMsk method = some msk ∧ msk ≠ [])
  | _ => True

end EapRun

/-- All clients; a state without a run is one in which a method was read that was not loaded. -/
def clientSystem (methods : EapMethods σ) : LTS.System (Option (EapRun σ)) EapEvent :=
  LTS.ofFun
    (fun run => ∃ ikeSa receivedNonce sentNonce receivedInit sentInit reserved, run =
      some ⟨eapAuthenticatorCreateBuilder ikeSa receivedNonce sentNonce receivedInit sentInit reserved,
        [], .needMore⟩)
    (fun run event => run.bind (·.step methods event))

/-- **A method was loaded for a request** and processed it, and others after it. -/
inductive Served (methods : EapMethods σ) (type : EapType) : List EapPayload → σ → Prop
  | load {server peer : Identification} {method : σ} {request : EapPayload} :
      methods.createInstance type server peer = some method → request.getType = type →
      Served methods type [request] (methods.process method request).2
  | process {requests : List EapPayload} {method : σ} {request : EapPayload} :
      Served methods type requests method →
      Served methods type (requests ++ [request]) (methods.process method request).2

variable {methods : EapMethods σ} {type : EapType} {requests : List EapPayload} {method : σ}

theorem Served.own (h : Served methods type requests method) : ∃ request ∈ requests,
    request.getType = type := by
  induction h with
  | load _ htype => exact ⟨_, List.mem_singleton_self _, htype⟩
  | process _ ih =>
    obtain ⟨request, hmem, htype⟩ := ih
    exact ⟨request, List.mem_append_left _ hmem, htype⟩

theorem Served.getType (hlawful : methods.Lawful) (h : Served methods type requests method) :
    methods.getType method = type := by
  induction h with
  | load hcreate _ => rw [hlawful.getType_process, hlawful.getType_create hcreate]
  | process _ ih => rw [hlawful.getType_process, ih]

namespace EapRun

variable {run run' : EapRun σ} {message : AuthMessage}

def Loaded (methods : EapMethods σ) (received : List EapPayload) (method : σ) : Prop :=
  ∃ type requests, type ≠ eapIdentityType ∧ requests ⊆ received ∧ Served methods type requests method

/-- The invariant of a client. -/
structure Inv (methods : EapMethods σ) (run : EapRun σ) : Prop where
  loaded : ∀ method, run.this.method = some method → Loaded methods run.requests method
  incomplete : run.this.eapComplete = false → run.this.msk = []
  complete : run.this.eapComplete = true → ∃ method, run.this.method = some method ∧
    run.this.msk = (methods.getMsk method).getD [] ∧
    (run.this.requireMutual = true → methods.isMutual method = true → run.this.msk ≠ [])

/-- **The server is authenticated**: a method was loaded, processed a request of its type, and is
mutual and has exported an MSK if that is required; the AUTH payload was made with this MSK. -/
def Authenticated (methods : EapMethods σ) (run : EapRun σ) (message : AuthMessage) : Prop :=
  ∃ method, run.this.method = some method ∧
    (∃ request ∈ run.requests, request.getType = methods.getType method) ∧
    Loaded methods run.requests method ∧
    run.this.msk = (methods.getMsk method).getD [] ∧
    (run.this.requireMutual = true → methods.isMutual method = true ∧
      ∃ msk, methods.getMsk method = some msk ∧ msk ≠ []) ∧
    ∃ auth, message.auth = some auth ∧ auth ≠ [] ∧
      run.this.ikeSa.keymat.getPskSig true run.this.receivedInit run.this.sentNonce run.this.msk
        run.this.ikeSa.otherId run.this.reserved = some auth

theorem Loaded.mono {received received' : List EapPayload} (h : Loaded methods received method)
    (hsub : received ⊆ received') : Loaded methods received' method := by
  obtain ⟨type, requests, htype, hrequests, hserved⟩ := h
  exact ⟨type, requests, htype, List.Subset.trans hrequests hsub, hserved⟩

/-! ## What one call does -/

/-- What a request does not change. -/
structure SameProgress (this this' : EapAuthenticator σ) : Prop where
  msk : this'.msk = this.msk
  eapComplete : this'.eapComplete = this.eapComplete
  requireMutual : this'.requireMutual = this.requireMutual

/-- **What a request does to the method**: it is dropped or kept, or it processes the request, perhaps
after it was loaded for that. -/
theorem clientProcessEap_cases (methods : EapMethods σ) (this : EapAuthenticator σ)
    (request : EapPayload) :
    SameProgress this (this.clientProcessEap methods request).2 ∧
      ((this.clientProcessEap methods request).2.method = none ∨
        (this.clientProcessEap methods request).2.method = this.method ∨
        request.getType ≠ eapIdentityType ∧ ∃ method,
          (this.method = some method ∨
            ∃ server peer, methods.createInstance request.getType server peer = some method) ∧
          (this.clientProcessEap methods request).2.method =
            some (methods.process method request).2) := by
  have hmethod : ∀ method, SameProgress this (this.processMethod methods method request).2 ∧
      (this.processMethod methods method request).2.method =
        some (methods.process method request).2 := by
    intro method
    unfold EapAuthenticator.processMethod
    dsimp only
    split <;> exact ⟨⟨rfl, rfl, rfl⟩, rfl⟩
  unfold EapAuthenticator.clientProcessEap
  dsimp only
  by_cases hidentity : request.getType = eapIdentityType
  · rw [if_pos hidentity]
    unfold EapAuthenticator.processIdentity
    dsimp only
    split
    · split <;> exact ⟨⟨rfl, rfl, rfl⟩, .inl rfl⟩
    · exact ⟨⟨rfl, rfl, rfl⟩, .inl rfl⟩
  · rw [if_neg hidentity]
    cases hthis : this.method with
    | some method =>
      exact ⟨(hmethod method).1, .inr (.inr ⟨hidentity, method, .inl rfl, (hmethod method).2⟩)⟩
    | none =>
      dsimp only
      split_ifs
      · exact ⟨⟨rfl, rfl, rfl⟩, .inr (.inl hthis)⟩
      · cases hload : this.loadMethod methods request.getType with
        | none => exact ⟨⟨rfl, rfl, rfl⟩, .inr (.inl hthis)⟩
        | some method =>
          exact ⟨(hmethod method).1,
            .inr (.inr ⟨hidentity, method, .inr ⟨_, _, hload⟩, (hmethod method).2⟩)⟩

/-- **What a verification says**: it succeeds if the AUTH payload is the right one. -/
theorem verifyAuth_cases {this : EapAuthenticator σ} (hmethod : this.method = some method)
    (message : AuthMessage) (nonce init : Chunk) :
    this.verifyAuth message nonce init = some (false, this) ∨
      this.verifyAuth message nonce init = some (true, { this with authComplete := true }) ∧
        ∃ auth, message.auth = some auth ∧ auth ≠ [] ∧
          this.ikeSa.keymat.getPskSig true init nonce this.msk this.ikeSa.otherId this.reserved =
            some auth := by
  unfold EapAuthenticator.verifyAuth
  cases hauth : message.auth with
  | none => exact .inl rfl
  | some received =>
    dsimp only
    split
    · exact .inl rfl
    · rename_i auth hsig
      split_ifs with hdiffers
      · exact .inl rfl
      · rw [not_or, not_not] at hdiffers
        obtain ⟨hlength, rfl⟩ := hdiffers
        rw [hmethod]
        refine .inr ⟨rfl, auth, rfl, ?_, hsig⟩
        rintro rfl
        exact hlength rfl

theorem mem_requests {eap : EapPayload} (hmessage : message.eap = some eap)
    (hcode : eap.getCode = eapRequest) : message.requests = [eap] := by
  simp [AuthMessage.requests, hmessage, hcode]

/-- What holds after a message. -/
def Processed (methods : EapMethods σ) (run : EapRun σ) (message : AuthMessage) : Prop :=
  ∃ result, run.this.processClient methods message = some result ∧
    Inv methods ⟨result.2, run.requests ++ message.requests, result.1⟩ ∧
    (result.1 = .success → run.Authenticated methods message)

theorem Inv.loaded_append (h : run.Inv methods) (message : AuthMessage) :
    ∀ method, run.this.method = some method →
      Loaded methods (run.requests ++ message.requests) method := fun method hmethod =>
  (h.loaded method hmethod).mono (List.subset_append_left _ _)

theorem Inv.authenticated (h : run.Inv methods) (hlawful : methods.Lawful)
    (hcomplete : run.this.eapComplete = true) (hmethod : run.this.method = some method)
    (hrequired : run.this.requireMutual = true → methods.isMutual method = true)
    (hauth : ∃ auth, message.auth = some auth ∧ auth ≠ [] ∧
      run.this.ikeSa.keymat.getPskSig true run.this.receivedInit run.this.sentNonce run.this.msk
        run.this.ikeSa.otherId run.this.reserved = some auth) :
    run.Authenticated methods message := by
  obtain ⟨_, hmethod', hmsk, hmutual⟩ := h.complete hcomplete
  cases hmethod.symm.trans hmethod'
  obtain ⟨type, requests, htype, hsub, hserved⟩ := h.loaded method hmethod
  obtain ⟨request, hrequest, hown⟩ := hserved.own
  refine ⟨method, hmethod, ⟨request, hsub hrequest, hown.trans (hserved.getType hlawful).symm⟩,
    h.loaded method hmethod, hmsk, fun hrequire => ⟨hrequired hrequire, ?_⟩, hauth⟩
  have hne := hmutual hrequire (hrequired hrequire)
  rw [hmsk] at hne
  cases hget : methods.getMsk method with
  | none => simp [hget] at hne
  | some msk => exact ⟨msk, rfl, by simpa [hget] using hne⟩

theorem Inv.process_complete (h : run.Inv methods) (hlawful : methods.Lawful)
    (hcomplete : run.this.eapComplete = true) : run.Processed methods message := by
  obtain ⟨method, hmethod, -⟩ := h.complete hcomplete
  unfold Processed EapAuthenticator.processClient
  rw [if_pos hcomplete]
  obtain hfailed | ⟨hverified, hauth⟩ :=
    verifyAuth_cases hmethod message run.this.sentNonce run.this.receivedInit
  · rw [hfailed]
    exact ⟨_, rfl, ⟨h.loaded_append message, h.incomplete, h.complete⟩,
      fun hsuccess => (by cases hsuccess)⟩
  · rw [hverified]
    dsimp only
    split_ifs with hrequire
    · refine ⟨_, Option.map_eq_some_iff.mpr ⟨method, hmethod, rfl⟩,
        ⟨h.loaded_append message, h.incomplete, h.complete⟩, fun hsuccess =>
        h.authenticated hlawful hcomplete hmethod (fun _ => ?_) hauth⟩
      by_contra hnot
      simp [hnot] at hsuccess
    · exact ⟨_, rfl, ⟨h.loaded_append message, h.incomplete, h.complete⟩, fun _ =>
        h.authenticated hlawful hcomplete hmethod (fun hrequired => absurd hrequired hrequire) hauth⟩

theorem Inv.process_request (h : run.Inv methods) (hcomplete : run.this.eapComplete = false)
    {eap : EapPayload} (hmessage : message.eap = some eap) (hcode : eap.getCode = eapRequest) :
    Inv methods ⟨{ (run.this.clientProcessEap methods eap).2 with
        eapPayload := (run.this.clientProcessEap methods eap).1 },
      run.requests ++ message.requests,
      if (run.this.clientProcessEap methods eap).1.isSome then .needMore else .failed⟩ := by
  obtain ⟨hsame, hcases⟩ := clientProcessEap_cases methods run.this eap
  refine ⟨fun method hmethod => ?_, fun _ => hsame.msk.trans (h.incomplete hcomplete),
    fun hdone => ?_⟩
  · dsimp only at hmethod
    obtain hnone | hkept | ⟨htype, method', hwas, hprocessed⟩ := hcases
    · rw [hnone] at hmethod
      cases hmethod
    · exact h.loaded_append message method (hkept ▸ hmethod)
    · rw [hprocessed] at hmethod
      cases hmethod
      have hmem : [eap] ⊆ run.requests ++ message.requests := by
        rw [mem_requests hmessage hcode]
        exact List.subset_append_right _ _
      obtain hwas | ⟨server, peer, hcreate⟩ := hwas
      · obtain ⟨type, requests, hidentity, hsub, hserved⟩ := h.loaded_append message method' hwas
        exact ⟨type, requests ++ [eap], hidentity, List.append_subset.mpr ⟨hsub, hmem⟩,
          hserved.process⟩
      · exact ⟨eap.getType, [eap], htype, hmem, .load hcreate rfl⟩
  · dsimp only at hdone
    rw [hsame.eapComplete, hcomplete] at hdone
    cases hdone

/-- **A message keeps the invariant**, and a success authenticates the server. -/
theorem Inv.process (h : run.Inv methods) (hlawful : methods.Lawful)
    (hneedMore : run.status = .needMore) (htimely : run.Timely methods (.process message)) :
    run.Processed methods message := by
  by_cases hcomplete : run.this.eapComplete = true
  · exact h.process_complete hlawful hcomplete
  rw [Bool.not_eq_true] at hcomplete
  have hmsk := h.incomplete hcomplete
  unfold Processed EapAuthenticator.processClient
  rw [hcomplete, if_neg Bool.false_ne_true]
  have hfailed : ∃ result, some (Status.failed, run.this) = some result ∧
      Inv methods ⟨result.2, run.requests ++ message.requests, result.1⟩ ∧
      (result.1 = .success → run.Authenticated methods message) :=
    ⟨_, rfl, ⟨h.loaded_append message, h.incomplete, h.complete⟩, fun hsuccess => (by cases hsuccess)⟩
  cases hmessage : message.eap with
  | none => exact hfailed
  | some eap =>
    dsimp only
    by_cases hrequest : eap.getCode = eapRequest
    · rw [if_pos hrequest]
      refine ⟨_, rfl, h.process_request hcomplete hmessage hrequest, fun hresult => ?_⟩
      dsimp only at hresult
      split at hresult <;> cases hresult
    rw [if_neg hrequest]
    by_cases hsuccess : eap.getCode = eapSuccess
    · rw [if_pos hsuccess]
      obtain ⟨method, hmethod, hmutual⟩ := htimely hneedMore hcomplete ⟨eap, hmessage, hsuccess⟩
      rw [EapAuthenticator.processSuccess, Option.map_map]
      refine ⟨_, Option.map_eq_some_iff.mpr ⟨method, hmethod, rfl⟩, ⟨h.loaded_append message,
        fun hnot => (by cases hnot), fun _ => ⟨method, hmethod, ?_, fun hrequire hmut => ?_⟩⟩,
        fun hresult => (by cases hresult)⟩
      · dsimp only [Function.comp]
        rw [hmsk]
      · obtain ⟨msk, hget, hne⟩ := hmutual hrequire hmut
        dsimp only [Function.comp]
        rw [hget]
        exact hne
    · rw [if_neg hsuccess]
      exact hfailed

/-- **Every event keeps the invariant.** -/
theorem Inv.step (h : run.Inv methods) (hlawful : methods.Lawful) {event : EapEvent}
    (htimely : run.Timely methods event) :
    ∃ run', run.step methods event = some run' ∧ run'.Inv methods := by
  cases event with
  | process message =>
    unfold EapRun.step
    dsimp only
    split_ifs with hstatus
    · exact ⟨run, rfl, h⟩
    · obtain ⟨result, hresult, hinv, -⟩ := h.process hlawful (not_not.mp hstatus) htimely
      rw [hresult]
      exact ⟨_, rfl, hinv⟩
  | build =>
    unfold EapRun.step
    dsimp only
    split_ifs
    · exact ⟨run, rfl, h⟩
    · refine ⟨_, rfl, ?_⟩
      unfold EapAuthenticator.buildClient
      split
      · exact ⟨h.loaded, h.incomplete, h.complete⟩
      · split_ifs <;> exact ⟨h.loaded, h.incomplete, h.complete⟩
  | isMutual =>
    unfold EapRun.step
    dsimp only
    split_ifs
    · exact ⟨run, rfl, h⟩
    · refine ⟨_, rfl, ?_⟩
      unfold EapAuthenticator.isMutual
      split
      · exact h
      · rename_i hnone
        refine ⟨h.loaded, h.incomplete, fun hcomplete => ?_⟩
        -- a method that is loaded is not the one for identities
        obtain ⟨method, hmethod, -⟩ := h.complete hcomplete
        obtain ⟨type, _, htype, -, hserved⟩ := h.loaded method hmethod
        rw [hmethod, Option.filter_some, hserved.getType hlawful, if_pos (by simpa using htype)]
          at hnone
        cases hnone

end EapRun

/-- **The client authenticates the server**, in every run without a premature success: it never reads
a method that was not loaded, and it succeeds only if the server is authenticated. -/
theorem EapRun.client_authenticated {es : List EapEvent} {state : Option (EapRun σ)}
    (hlawful : methods.Lawful)
    (hrun : LTS.Run ((clientSystem methods).restrict fun state event =>
      ∀ run, state = some run → run.Timely methods event) es state) :
    ∃ run, state = some run ∧ ∀ message, run.status = .needMore →
      run.Timely methods (.process message) →
      ∃ result, run.this.processClient methods message = some result ∧
        (result.1 = .success → run.Authenticated methods message) := by
  have hinv : ∃ run, state = some run ∧ run.Inv methods := by
    refine hrun.invariant (I := fun state => ∃ run, state = some run ∧ EapRun.Inv methods run) ?_ ?_
    · rintro state ⟨_, _, _, _, _, _, rfl⟩
      exact ⟨_, rfl, fun method hmethod => (by cases hmethod), fun _ => rfl, fun hcomplete =>
        (by cases hcomplete)⟩
    · rintro state event state' ⟨run, rfl, hinv⟩ ⟨htimely, rfl⟩
      exact hinv.step hlawful (htimely run rfl)
  obtain ⟨run, rfl, hinv⟩ := hinv
  refine ⟨run, rfl, fun message hneedMore htimely => ?_⟩
  obtain ⟨result, hresult, -, hsuccess⟩ := hinv.process hlawful hneedMore htimely
  exact ⟨result, hresult, hsuccess⟩

/-! ## A method that needs two requests -/

/-- A mutual method of one type that has its MSK after two requests. -/
def twoRequests : EapMethods ℕ where
  registered := [⟨23, 0⟩]
  createInstance type _ _ := if type = ⟨23, 0⟩ then some 0 else none
  getType _ := ⟨23, 0⟩
  process n _ := (.needMore ⟨[eapResponse, 0, 0, 5, 23]⟩, n + 1)
  isMutual _ := true
  getMsk n := if n ≥ 2 then some [9] else none

theorem twoRequests_lawful : twoRequests.Lawful where
  getType_create := by
    intro type server peer method h
    by_contra htype
    have hnone : twoRequests.createInstance type server peer = none := if_neg (Ne.symm htype)
    rw [hnone] at h
    cases h
  getType_process _ _ := rfl

/-- A client of which mutual authentication is asked. -/
def askedClient : EapRun ℕ :=
  ⟨eapAuthenticatorCreateBuilder ⟨{ keymatV2Create true with
      prf := some prefixPrf, skpBuild := [1, 1, 1, 1], skpVerify := [2, 2, 2, 2] },
    ⟨.fqdn, [0x61]⟩, ⟨.fqdn, [0x62]⟩, none, none, none, none⟩ [3] [4] [5] [6] [0, 0, 0], [], .needMore⟩

/-- The messages of the server: a request of the method, a success, and the last one. -/
def requestMessage : AuthMessage := ⟨some ⟨[eapRequest, 0, 0, 5, 23]⟩, none⟩
def successMessage : AuthMessage := ⟨some ⟨[eapSuccess, 0, 0, 4]⟩, none⟩
def authMessage (auth : Chunk) : AuthMessage := ⟨none, some auth⟩

def clientAfter (es : List EapEvent) : Option (EapRun ℕ) :=
  es.foldl (fun run event => run.bind (·.step twoRequests event)) (some askedClient)

theorem run_clientAfter (es : List EapEvent) :
    LTS.Run (clientSystem twoRequests) es (clientAfter es) :=
  LTS.run_ofFun.mpr ⟨_, ⟨_, _, _, _, _, _, rfl⟩, rfl⟩

/-- The method is done when the server tells the success. -/
theorem client_authenticated_done :
    ∃ run, clientAfter [.isMutual, .process requestMessage, .process requestMessage,
        .process successMessage] = some run ∧
      run.Authenticated twoRequests (authMessage [9, 75, 101, 121]) := by
  have hrun : LTS.Run ((clientSystem twoRequests).restrict fun state event =>
      ∀ run, state = some run → run.Timely twoRequests event)
      [.isMutual, .process requestMessage, .process requestMessage, .process successMessage]
      (clientAfter [.isMutual, .process requestMessage, .process requestMessage,
        .process successMessage]) := by
    refine LTS.Along.run ?_ ⟨_, _, _, _, _, _, rfl⟩
    refine LTS.along_cons.mpr ⟨?_, LTS.along_cons.mpr ⟨?_, LTS.along_cons.mpr ⟨?_,
      LTS.along_cons.mpr ⟨?_, LTS.along_nil⟩⟩⟩⟩
    · rintro run -
      trivial
    · rintro run hrun - - ⟨eap, heap, hcode⟩
      cases heap
      cases hcode
    · rintro run hrun - - ⟨eap, heap, hcode⟩
      cases heap
      cases hcode
    · rintro run hrun - - -
      cases hrun
      exact ⟨2, rfl, fun _ _ => ⟨[9], rfl, by decide⟩⟩
  obtain ⟨run, hstate, hclient⟩ := EapRun.client_authenticated twoRequests_lawful hrun
  cases hstate
  refine ⟨_, rfl, ?_⟩
  obtain ⟨result, hresult, hsuccess⟩ := hclient (authMessage [9, 75, 101, 121]) rfl
    fun _ hnot => (by cases hnot)
  refine hsuccess ?_
  cases hresult
  rfl

/-- A success is the first message; and a success comes after one of two requests, and the AUTH
payload is made without an MSK. -/
theorem not_client_authenticated :
    (¬ ∀ (methods : EapMethods ℕ) (es : List EapEvent) (state : Option (EapRun ℕ)), methods.Lawful →
      LTS.Run (clientSystem methods) es state → ∃ run, state = some run) ∧
    ¬ ∀ (methods : EapMethods ℕ) (es : List EapEvent) (run : EapRun ℕ) (message : AuthMessage)
      (result : Status × EapAuthenticator ℕ), methods.Lawful →
      LTS.Run (clientSystem methods) es (some run) →
      run.this.processClient methods message = some result → result.1 = .success →
      run.Authenticated methods message := by
  refine ⟨fun h => ?_, fun h => ?_⟩
  · obtain ⟨run, hrun⟩ := h _ _ _ twoRequests_lawful (run_clientAfter [.process successMessage])
    cases hrun
  · obtain ⟨method, hmethod, -, -, -, hmutual, -⟩ := h _ _ _ (authMessage [2, 2, 2, 2]) _
      twoRequests_lawful (run_clientAfter [.isMutual, .process requestMessage,
        .process successMessage]) rfl rfl
    cases hmethod
    obtain ⟨-, msk, hmsk, -⟩ := hmutual rfl
    cases hmsk

end StrongSwan
