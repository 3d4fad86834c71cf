import StrongSwan.Bio.BioWriter

/-!
# TLS fragmentation

`TlsFragmentation` is the layer between TLS records and the handshake and application data protocols.
Handshake messages are collected in a buffer and cut into records; on the other side they are put
together again.

The upper layers are parameters: `TlsHandshake` is `tls_handshake_t` on its own state, and
`TlsApplication` is `tls_application_t`. An upper layer raises alerts by returning them.

* `TlsAlert`: `add`, `get`, `process`.
* `process`, `processHandshake`: a record is received.
* `build`, `buildHandshake`: the next record. The loops end when the upper layer has nothing to send
  any more, so they have fuel.
-/

namespace StrongSwan

namespace Tls

/-- `TLS_MAX_FRAGMENT_LEN` -/
def maxFragmentLen : ℕ := 16384

/-- `TLS_MAX_HANDSHAKE_LEN` -/
def maxHandshakeLen : ℕ := 65536

/-! ## Alerts -/

def tlsWarning : U8 := 1
def tlsFatal : U8 := 2
def tlsCloseNotify : U8 := 0
def tlsDecodeError : U8 := 50

structure TlsAlert where
  /-- warning queue -/
  warnings : List U8
  /-- do we have a fatal alert? -/
  fatal : Bool
  /-- has the fatal alert been consumed? -/
  consumed : Bool
  /-- fatal alert description -/
  desc : U8
  deriving DecidableEq

namespace TlsAlert

def create : TlsAlert := ⟨[], false, false, 0⟩

def add (this : TlsAlert) (level desc : U8) : TlsAlert :=
  if level = tlsFatal then
    if !this.fatal then { this with desc := desc, fatal := true } else this
  else { this with warnings := this.warnings ++ [desc] }

/-- Add the alerts an upper layer raises. -/
def addAll (this : TlsAlert) (alerts : List (U8 × U8)) : TlsAlert :=
  alerts.foldl (fun this alert => this.add alert.1 alert.2) this

/-- `get`: the level and description of the next alert to send -/
def get (this : TlsAlert) : Option (U8 × U8) × TlsAlert :=
  if this.fatal && !this.consumed then (some (tlsFatal, this.desc), { this with consumed := true })
  else
    match this.warnings with
    | warning :: warnings => (some (tlsWarning, warning), { this with warnings := warnings })
    | [] => (none, this)

/-- `process`: an alert is received -/
def process (this : TlsAlert) (level desc : U8) : Status × TlsAlert :=
  if desc = tlsCloseNotify then (.needMore, this.add tlsFatal tlsCloseNotify)
  else if level = tlsWarning then (.needMore, this)
  else (.failed, this)

end TlsAlert

/-! ## Upper layers -/

/-- `tls_handshake_t` on a state; messages are given by their type and body. -/
structure TlsHandshake (σ : Type) where
  process : σ → U8 → Chunk → Status × List (U8 × U8) × σ
  build : σ → Status × U8 × Chunk × List (U8 × U8) × σ
  /-- should the cipher be changed for inbound or outbound messages? -/
  cipherspecChanged : σ → (inbound : Bool) → Bool
  changeCipherspec : σ → (inbound : Bool) → σ
  finished : σ → Bool

/-- `tls_application_t` on a state: it reads from a reader, and adds to a writer. -/
structure TlsApplication (α : Type) where
  process : α → Chunk → Status × Chunk × α
  build : α → Chunk → Status × Chunk × α

inductive ContentType
  | changeCipherSpec
  | alert
  | handshake
  | applicationData
  | other (number : U8)
  deriving DecidableEq

inductive AlertState
  /-- no alert received/sent -/
  | none
  /-- currently sending an alert -/
  | sending
  /-- alert sent and out -/
  | sent
  deriving DecidableEq

inductive Purpose
  | eapTls
  | eapTtls
  | eapPeap
  | generic
  | genericNullok
  | eapTnc
  deriving DecidableEq

/-- Check if we should send a close notify once the application finishes. -/
def sendCloseNotify : Purpose → Bool
  | .eapTls | .eapTtls | .eapPeap => false
  | _ => true

structure TlsFragmentation (σ α : Type) where
  /-- upper layer handshake protocol -/
  handshake : σ
  alert : TlsAlert
  /-- state of alert handling -/
  state : AlertState
  /-- did the application layer complete successfully? -/
  applicationFinished : Bool
  /-- length of the handshake input buffer, zero if there is none -/
  inputLen : ℕ
  /-- handshake input buffer, up to the position in it -/
  input : Chunk
  /-- currently processed handshake message type -/
  type : U8
  /-- handshake output buffer -/
  output : Chunk
  /-- type of data in output buffer -/
  outputType : ContentType
  /-- upper layer application data protocol -/
  application : Option α
  purpose : Purpose

namespace TlsFragmentation

variable {σ α : Type}

def create (handshake : σ) (alert : TlsAlert) (application : Option α) (purpose : Purpose) :
    TlsFragmentation σ α where
  handshake := handshake
  alert := alert
  state := .none
  applicationFinished := false
  inputLen := 0
  input := []
  type := 0
  output := []
  outputType := .other 0
  application := application
  purpose := purpose

def addAlert (this : TlsFragmentation σ α) (desc : U8) : TlsFragmentation σ α :=
  { this with alert := this.alert.add tlsFatal desc }

/-! ## Receiving -/

/-- Where a loop goes on with the data that is left, or ends. -/
inductive Loop (σ α : Type)
  | next (this : TlsFragmentation σ α) (reader : Chunk)
  | done (status : Status) (this : TlsFragmentation σ α)

/-- The header of a new handshake message. -/
def readHeader (this : TlsFragmentation σ α) (reader : Chunk) : Loop σ α :=
  match BioReader.readUint8 reader with
  | none => .done .needMore (this.addAlert tlsDecodeError)
  | some (type, reader) =>
    match BioReader.readUint24 reader with
    | none => .done .needMore (this.addAlert tlsDecodeError)
    | some (len, reader) =>
      let this := { this with type := type }
      if len.toNat > maxHandshakeLen then .done .needMore (this.addAlert tlsDecodeError)
      else .next { this with inputLen := len.toNat, input := [] } reader

/-- A message that is completely defragmented is processed. -/
def processMessage (handshake : TlsHandshake σ) (this : TlsFragmentation σ α) (reader : Chunk) :
    Loop σ α :=
  let (status, alerts, state) := handshake.process this.handshake this.type this.input
  let this := { this with
    handshake := state
    alert := this.alert.addAll alerts
    inputLen := 0 }
  if status ≠ .needMore then .done status this
  else if this.alert.fatal then .done .needMore this
  else .next this reader

/-- Data for the current handshake message. -/
def readBody (handshake : TlsHandshake σ) (this : TlsFragmentation σ α) (reader : Chunk) : Loop σ α :=
  let len := min (this.inputLen - this.input.length) reader.length
  match BioReader.readData reader len with
  | none => .done .needMore (this.addAlert tlsDecodeError)
  | some (data, reader) =>
    let this := { this with input := this.input ++ data }
    if this.inputLen = this.input.length then processMessage handshake this reader
    else if this.alert.fatal then .done .needMore this
    else .next this reader

/-- `process_handshake`. Each time there is less data left. -/
def processHandshake (handshake : TlsHandshake σ) : ℕ → TlsFragmentation σ α → Chunk →
    Status × TlsFragmentation σ α
  | 0, this, _ => (.needMore, this)
  | fuel + 1, this, reader =>
    if reader = [] then (.needMore, this)
    else if reader.length > maxFragmentLen then (.needMore, this.addAlert tlsDecodeError)
    else
      match if this.inputLen = 0 then this.readHeader reader else .next this reader with
      | .done status this => (status, this)
      | .next this reader =>
        match this.readBody handshake reader with
        | .done status this => (status, this)
        | .next this reader => processHandshake handshake fuel this reader

/-- `process_application`; it does not return if the application does not read. -/
def processApplication (application : TlsApplication α) : ℕ → TlsFragmentation σ α → α → Chunk →
    Option (Status × TlsFragmentation σ α)
  | 0, _, _, _ => none
  | fuel + 1, this, state, reader =>
    if reader = [] then some (.needMore, this)
    else if reader.length > maxFragmentLen then some (.needMore, this.addAlert tlsDecodeError)
    else
      let (status, reader, state) := application.process state reader
      let this := { this with application := some state }
      match status with
      | .needMore => processApplication application fuel this state reader
      | .success =>
        let this := { this with applicationFinished := true }
        if !sendCloseNotify this.purpose then some (.success, this)
        else some (.needMore, this.addAlert tlsCloseNotify)
      | _ => some (.needMore, this.addAlert tlsCloseNotify)

def processAlert (this : TlsFragmentation σ α) (reader : Chunk) : Status × TlsFragmentation σ α :=
  match reader with
  | level :: description :: _ =>
    let (status, alert) := this.alert.process level description
    (status, { this with alert := alert })
  | _ => (.needMore, this.addAlert tlsDecodeError)

/-- `process`: a record is received -/
def process (handshake : TlsHandshake σ) (application : TlsApplication α) (fuel : ℕ)
    (this : TlsFragmentation σ α) (type : ContentType) (data : Chunk) :
    Option (Status × TlsFragmentation σ α) :=
  if this.state ≠ .none then
    -- don't accept more input, fatal error occurred
    some (.needMore, this)
  else
    match type with
    | .changeCipherSpec =>
      if handshake.cipherspecChanged this.handshake true then
        some (.needMore, { this with handshake := handshake.changeCipherspec this.handshake true })
      else some (.failed, this)
    | .alert => some (this.processAlert data)
    | .handshake => some (processHandshake handshake data.length this data)
    | .applicationData =>
      if !handshake.finished this.handshake then some (.failed, this)
      else
        match this.application with
        | some state => processApplication application fuel this state data
        | none => none
    | .other _ => some (.needMore, this)

/-! ## Sending -/

/-- `check_alerts`: the next alert to send -/
def checkAlerts (this : TlsFragmentation σ α) : Option Chunk × TlsFragmentation σ α :=
  match this.alert.get with
  | (some (level, desc), alert) => (some [level, desc], { this with alert := alert })
  | (none, alert) => (none, { this with alert := alert })

/-- `build_handshake`, with what was written to `msg` -/
def buildHandshake (handshake : TlsHandshake σ) : ℕ → TlsFragmentation σ α → Chunk →
    Option (Status × TlsFragmentation σ α)
  | 0, _, _ => none
  | fuel + 1, this, msg =>
    let (status, type, hs, alerts, state) := handshake.build this.handshake
    let this := { this with handshake := state, alert := this.alert.addAll alerts }
    match status with
    | .needMore =>
      if this.alert.fatal then some (status, this)
      else
        let msg := BioWriter.writeData24 (BioWriter.writeUint8 msg type) hs
        if !handshake.cipherspecChanged this.handshake false then
          buildHandshake handshake fuel this msg
        else some (status, { this with outputType := .handshake, output := msg })
    | .invalidState => some (status, { this with outputType := .handshake, output := msg })
    | _ => some (status, this)

/-- `build_application`, with what was written to `msg` -/
def buildApplication (application : TlsApplication α) : ℕ → TlsFragmentation σ α → α → Chunk →
    Option (Status × TlsFragmentation σ α)
  | 0, _, _, _ => none
  | fuel + 1, this, state, msg =>
    let (status, msg, state) := application.build state msg
    let this := { this with application := some state }
    match status with
    | .needMore => buildApplication application fuel this state msg
    | .invalidState => some (status, { this with outputType := .applicationData, output := msg })
    | .success =>
      let this := { this with applicationFinished := true }
      if !sendCloseNotify this.purpose then some (status, this)
      else some (status, this.addAlert tlsCloseNotify)
    | _ => some (status, this.addAlert tlsCloseNotify)

/-- The first fragment of the output buffer, if there is something in it. -/
def takeOutput (this : TlsFragmentation σ α) (status : Status) :
    Status × Option (ContentType × Chunk) × TlsFragmentation σ α :=
  if this.output ≠ [] then
    if this.output.length ≤ maxFragmentLen then
      (.needMore, some (this.outputType, this.output), { this with output := [] })
    else
      (.needMore, some (this.outputType, this.output.take maxFragmentLen),
        { this with output := this.output.drop maxFragmentLen })
  else (status, none, this)

/-- `build`: the next record -/
def build (handshake : TlsHandshake σ) (application : TlsApplication α) (fuel : ℕ)
    (this : TlsFragmentation σ α) :
    Option (Status × Option (ContentType × Chunk) × TlsFragmentation σ α) :=
  match this.state with
  | .sending => some (.invalidState, none, { this with state := .sent })
  | .sent => some (if this.applicationFinished then .success else .failed, none, this)
  | .none =>
    match this.checkAlerts with
    | (some data, this) => some (.needMore, some (.alert, data), { this with state := .sending })
    | (none, this) =>
      if this.output ≠ [] then some (this.takeOutput .invalidState)
      else if handshake.cipherspecChanged this.handshake false then
        some (.needMore, some (.changeCipherSpec, [1]),
          { this with handshake := handshake.changeCipherspec this.handshake false })
      else
        let built :=
          if !handshake.finished this.handshake then buildHandshake handshake fuel this []
          else
            match this.application with
            | some state => buildApplication application fuel this state []
            | none => some (.invalidState, this)
        match built with
        | none => none
        | some (status, this) =>
          match this.checkAlerts with
          | (some data, this) =>
            some (.needMore, some (.alert, data), { this with state := .sending })
          | (none, this) => some (this.takeOutput status)

end TlsFragmentation

end Tls

end StrongSwan
