import StrongSwan.Tls.TlsEap.Packets

/-!
# The bytes of the TLS stacks

Two sides in lock step pass each other the bytes of their TLS stacks.

* `Carried`: what one side has built is what the other has processed, but for the packet on its way.
* `step_spec`, `run_spec`: one step and many.
* **`transports`**: the two sides from the start.
-/

namespace StrongSwan

namespace Tls

variable {σ : Type} {stack : TlsStack σ}

namespace Exchange

variable {ex : Exchange σ} {type : EapTlsType}

/-- The bytes of the packet on its way -/
def payload (ex : Exchange σ) : Chunk := (ex.packet.map packetPayload).getD []

/-- The message count limit is not reached by the next packet. -/
def WithinLimit (ex : Exchange σ) : Prop :=
  ex.packet ≠ none → ex.receiver.maxMsgCount = 0 ∨ ex.receiver.processed < ex.receiver.maxMsgCount

/-- What one side has built is what the other side has processed, but for the packet on its way. -/
structure Carried (ex : Exchange σ) : Prop where
  forward : ex.sender.tls.built = ex.receiver.tls.processed ++ ex.payload
  backward : ex.receiver.tls.built = ex.sender.tls.processed

/-- The two sides while there is a packet -/
structure Open (type : EapTlsType) (ex : Exchange σ) (packet : Chunk) : Prop where
  receiver : ex.receiver.Wf
  sender : ex.sender.Wf
  types : ex.receiver.type = type ∧ ex.sender.type = type
  sound : Sound packet
  length : packet.length ≤ ex.sender.fragSize

/-- What a step sends -/
structure Sent (type : EapTlsType) (ex ex' : Exchange σ) (packet : Chunk) : Prop where
  empty : packetPayload packet = [] → ∃ code identifier, packet = emptyPacket type code identifier 0
  first : ex.receiver.tls.output = [] → ex'.sender.tls.output ≠ [] →
    packetFlags packet &&& flagMoreFrags ≠ 0 ∧ packetFlags packet &&& flagLength ≠ 0 ∧
      (untoh32 (packet.drop eapTlsHeaderLen)).toNat = ex'.sender.tls.output.length

/-- **A step** carries the bytes of a packet. -/
theorem step_spec (uninit : ℕ → U8) (hstack : stack.Lawful) (hcarried : ex.Carried)
    (hopen : ∀ packet, ex.packet = some packet → ex.Open type packet) (hlimit : ex.WithinLimit) :
    (ex.step stack uninit).Carried ∧
      ∀ packet, (ex.step stack uninit).packet = some packet →
        (ex.step stack uninit).Open type packet ∧ Sent type ex (ex.step stack uninit) packet := by
  unfold step
  cases hpacket : ex.packet with
  | none =>
    dsimp only
    refine ⟨hcarried, fun packet hsome => ?_⟩
    rw [hpacket] at hsome
    cases hsome
  | some packet =>
    dsimp only
    have hside := hopen packet hpacket
    have hforward := hcarried.forward
    rw [payload, hpacket, Option.map_some, Option.getD_some] at hforward
    obtain ⟨that, hreceives, ⟨status, this', out, hprocess, hneed, hends⟩ |
        ⟨this', out, hprocess, hsends⟩⟩ :=
      process_spec uninit hstack hside.receiver (hlimit (hpacket ▸ Option.some_ne_none _))
        hside.sound
    · -- the exchange ends
      have hend : ∀ result : Exchange σ, result.receiver = ex.sender → result.sender = this' →
          result.packet = none → result.Carried := by
        intro result hreceiver hsender hnone
        refine ⟨?_, ?_⟩
        · rw [payload, hnone, hreceiver, hsender, hends.built, hreceives.built]
          exact hcarried.backward.trans (List.append_nil _).symm
        · rw [hreceiver, hsender, hends.processed, hreceives.processed, hforward]
      rw [hprocess]
      cases status with
      | needMore => exact absurd rfl hneed
      | _ => exact ⟨hend _ rfl rfl rfl, fun packet hsome => by cases hsome⟩
    · rw [hprocess]
      dsimp only
      refine ⟨⟨?_, ?_⟩, ?_⟩
      · rw [payload, Option.map_some, Option.getD_some]
        change this'.tls.built = ex.sender.tls.processed ++ packetPayload out
        rw [hsends.built, hreceives.built, hcarried.backward]
      · change ex.sender.tls.built = this'.tls.processed
        rw [hsends.processed, hreceives.processed, hforward]
      · rintro packet' hsome
        obtain rfl := Option.some.inj hsome
        have htype : that.type = type := hreceives.type.trans hside.types.1
        have hlength : out.length ≤ this'.fragSize := by
          rw [hsends.same.fragSize]
          exact hsends.length
        rcases hsends.packet with ⟨code, identifier, hempty, hnil⟩ |
            ⟨payload, more, total, hfragment, hfirst⟩
        · refine ⟨⟨hside.sender, hsends.wf, ⟨hside.types.2, hsends.same.type.trans htype⟩,
            Or.inl ⟨_, _, _, _, hempty, Or.inl rfl⟩, hlength⟩,
            ⟨fun _ => ⟨code, identifier, htype ▸ hempty⟩, fun _ hne => absurd hnil hne⟩⟩
        · refine ⟨⟨hside.sender, hsends.wf, ⟨hside.types.2, hsends.same.type.trans htype⟩,
            Or.inr ⟨_, _, _, _, hfragment⟩, hlength⟩, ⟨fun hnil => ?_, fun houtput hne => ?_⟩⟩
          · rw [hfragment.payload_eq] at hnil
            exact absurd hnil hfragment.ne_nil
          · obtain ⟨rfl, rfl⟩ := hfirst (hreceives.output.trans houtput) hne
            obtain ⟨-, hmax⟩ := hfragment.total _ rfl
            have hlt : this'.tls.output.length < 2 ^ 32 := lt_of_le_of_lt hmax (by decide)
            rw [hfragment.flags, hfragment.body, lengthField, untoh32_htoun32_append,
              BitVec.toNat_ofNat, Nat.mod_eq_of_lt hlt, Option.isSome_some]
            exact ⟨by decide, by decide, rfl⟩

/-- **Many steps** -/
theorem run_spec (uninit : ℕ → U8) (hstack : stack.Lawful) (hcarried : ex.Carried)
    (hopen : ∀ packet, ex.packet = some packet → ex.Open type packet) (n : ℕ)
    (hlimit : ∀ k < n, (ex.run stack uninit k).WithinLimit) :
    (ex.run stack uninit n).Carried ∧
      ∀ packet, (ex.run stack uninit n).packet = some packet →
        (ex.run stack uninit n).Open type packet := by
  induction n with
  | zero => exact ⟨hcarried, hopen⟩
  | succ n ih =>
    obtain ⟨hcarried, hopen⟩ := ih fun k hk => hlimit k (Nat.lt_succ_of_lt hk)
    obtain ⟨hcarried', hsent⟩ :=
      step_spec uninit hstack hcarried hopen (hlimit n (Nat.lt_succ_self n))
    exact ⟨hcarried', fun packet hsome => (hsent packet hsome).1⟩

end Exchange

theorem wf_create {type : EapTlsType} (htype : type ≠ .tnc ∧ type ≠ .ptEap) (state : σ)
    (isServer : Bool) (identifier : U8) {fragSize : ℕ} (hfragSize : 11 ≤ fragSize ∧ fragSize < 2 ^ 16)
    (maxMsgCount : ℕ) (includeLength : Bool) :
    (TlsEap.create type state isServer identifier fragSize maxMsgCount includeLength).Wf := by
  refine ⟨htype, ?_, hfragSize, iff_of_true (decide_eq_true htype) rfl, Or.inr ⟨rfl, rfl⟩⟩
  change type.supportedVersion = 0
  cases type with
  | tnc => exact absurd rfl htype.1
  | ptEap => exact absurd rfl htype.2
  | _ => rfl

/-- **The bytes of the TLS stacks.** What one side has built is what the other has processed, but for the
packet on its way. A packet is not longer than a fragment, its length field is its size, it has no payload
only if it is an acknowledgement or the start, and the first fragment of a flight has the length of it. -/
theorem transports (hstack : stack.Lawful) (uninit : ℕ → U8) {type : EapTlsType}
    (htype : type ≠ .tnc ∧ type ≠ .ptEap) {server peer : TlsEap σ}
    {serverState peerState : σ} {serverId peerId : U8} {serverFrag peerFrag serverMax peerMax : ℕ}
    {serverLength peerLength : Bool} (hserverFrag : 11 ≤ serverFrag ∧ serverFrag < 2 ^ 16)
    (hpeerFrag : 11 ≤ peerFrag ∧ peerFrag < 2 ^ 16)
    (hserver : server =
      TlsEap.create type serverState true serverId serverFrag serverMax serverLength)
    (hpeer : peer = TlsEap.create type peerState false peerId peerFrag peerMax peerLength) (n : ℕ)
    (hlimit : ∀ k < n, ((Exchange.start server peer).run stack uninit k).WithinLimit) :
    ((Exchange.start server peer).run stack uninit n).Carried ∧
      (∀ packet, ((Exchange.start server peer).run stack uninit n).packet = some packet →
        packet.length ≤ ((Exchange.start server peer).run stack uninit n).sender.fragSize ∧
        (untoh16 (packet.drop 2)).toNat = packet.length ∧
        (packetPayload packet = [] → ∃ code identifier flags,
          packet = emptyPacket type code identifier flags ∧
            (flags = 0 ∨ n = 0 ∧ flags = flagStart))) ∧
      ∀ m packet, n = m + 1 →
        ((Exchange.start server peer).run stack uninit n).packet = some packet →
        ((Exchange.start server peer).run stack uninit m).receiver.tls.output = [] →
        ((Exchange.start server peer).run stack uninit n).sender.tls.output ≠ [] →
        packetFlags packet &&& flagMoreFrags ≠ 0 ∧ packetFlags packet &&& flagLength ≠ 0 ∧
          (untoh32 (packet.drop eapTlsHeaderLen)).toNat =
            ((Exchange.start server peer).run stack uninit n).sender.tls.output.length := by
  have hserverWf : server.Wf :=
    hserver ▸ wf_create htype serverState true serverId hserverFrag serverMax serverLength
  have hpeerWf : peer.Wf :=
    hpeer ▸ wf_create htype peerState false peerId hpeerFrag peerMax peerLength
  -- the start
  have hstart : (Exchange.start server peer).packet =
      some (emptyPacket type eapRequest serverId flagStart) := by
    have hflags : (0 : U8) ||| flagStart = flagStart := by decide
    subst hserver
    cases type with
    | tnc => exact absurd rfl htype.1
    | ptEap => exact absurd rfl htype.2
    | _ =>
      simp only [Exchange.start, TlsEap.initiate, TlsEap.create, EapTlsType.supportedVersion,
        hflags, if_true]
      rfl
  have hpayload : packetPayload (emptyPacket type eapRequest serverId flagStart) = [] :=
    emptyPacket_payload _ _ _ (by decide)
  have hcarried : (Exchange.start server peer).Carried := by
    refine ⟨?_, ?_⟩
    · rw [Exchange.payload, hstart, Option.map_some, Option.getD_some, hpayload, hserver, hpeer]
      rfl
    · rw [hserver, hpeer]
      rfl
  have hopen : ∀ packet, (Exchange.start server peer).packet = some packet →
      (Exchange.start server peer).Open type packet := by
    intro packet hpacket
    rw [hstart] at hpacket
    obtain rfl := Option.some.inj hpacket
    refine ⟨hpeerWf, hserverWf, ⟨hpeer ▸ rfl, hserver ▸ rfl⟩,
      Or.inl ⟨_, _, _, _, rfl, Or.inr rfl⟩, ?_⟩
    have hlength : (emptyPacket type eapRequest serverId flagStart).length = eapTlsHeaderLen :=
      length_eapTlsHeader _ _ _ _ _
    have hmin : 11 ≤ (Exchange.start server peer).sender.fragSize := hserverWf.fragSize.1
    rw [hlength]
    exact le_trans (by decide) hmin
  obtain ⟨hcarriedn, hopenn⟩ := Exchange.run_spec uninit hstack hcarried hopen n hlimit
  have hsent : ∀ m packet, n = m + 1 →
      ((Exchange.start server peer).run stack uninit n).packet = some packet →
      Exchange.Sent type ((Exchange.start server peer).run stack uninit m)
        ((Exchange.start server peer).run stack uninit n) packet := by
    rintro m packet rfl hpacket
    obtain ⟨hcarriedm, hopenm⟩ := Exchange.run_spec uninit hstack hcarried hopen m
      fun k hk => hlimit k (Nat.lt_succ_of_lt hk)
    obtain ⟨-, hstep⟩ := Exchange.step_spec uninit hstack hcarriedm hopenm
      (hlimit m (Nat.lt_succ_self m))
    exact (hstep packet hpacket).2
  refine ⟨hcarriedn, fun packet hpacket => ?_, fun m packet hm hpacket hnil hne => ?_⟩
  · have hopenp := hopenn packet hpacket
    refine ⟨hopenp.length, hopenp.sound.length.2, fun hempty => ?_⟩
    cases n with
    | zero =>
      rw [Exchange.run, hstart] at hpacket
      exact ⟨_, _, _, (Option.some.inj hpacket).symm, Or.inr ⟨rfl, rfl⟩⟩
    | succ m =>
      obtain ⟨code, identifier, heq⟩ := (hsent m packet rfl hpacket).empty hempty
      exact ⟨code, identifier, 0, heq, Or.inl rfl⟩
  · exact (hsent m packet hm hpacket).first hnil hne

/-- A stack with a flight of one record, if there is a status to end it with -/
def flightStack (data : Chunk) (status : Status) : TlsStack (Option Bool) where
  version := 0x0301
  process state _ := (.needMore, state)
  build
    | none => ([], .invalidState, none)
    | some lawful => ([(22, data)], if lawful then .invalidState else status, none)
  isComplete _ := false

theorem flightStack_lawful {data : Chunk} (hlength : data.length + 5 ≤ maxMessageLen) :
    (flightStack data .invalidState).Lawful where
  status state := by
    have hstatus : ((flightStack data .invalidState).build state).2.1 = .invalidState := by
      rcases state with _ | _ | _ <;> rfl
    rw [hstatus]
    exact ⟨by decide, by decide⟩
  records state := by rcases state with _ | _ | _ <;> exact fun _ => rfl
  length state := by
    cases state with
    | none => exact Nat.zero_le _
    | some lawful =>
      simp only [flightStack, flight, tlsRecord, List.map_cons, List.map_nil, List.flatten_cons,
        List.flatten_nil, List.append_nil, List.length_append, List.length_singleton,
        length_htoun16]
      omega

/-- An exchange with a flight in each direction -/
def flights (data : Chunk) (status : Status) (fragSize : ℕ) (peer : Bool) (n : ℕ) :
    Exchange (Option Bool) :=
  (Exchange.start (TlsEap.create .tls (some true) true 1 fragSize 0 true)
    (TlsEap.create .tls (some peer) false 0 fragSize 0 false)).run (flightStack data status)
    (fun _ => 0xAA) n

/-- Fragments of two flights -/
theorem transports_four :
    (flights [1, 2, 3, 4] .invalidState 12 true 4).Carried ∧
      (flights [1, 2, 3, 4] .invalidState 12 true 4).receiver.tls.built =
        [22, 3, 1, 0, 4, 1, 2, 3] := by
  have hmax : ∀ k < 4,
      (flights [1, 2, 3, 4] .invalidState 12 true k).receiver.maxMsgCount = 0 := by decide
  obtain ⟨hcarried, -⟩ := transports (flightStack_lawful (by decide)) (fun _ => 0xAA)
    (by decide) (by decide) (by decide) rfl rfl 4 fun k hk _ => Or.inl (hmax k hk)
  exact ⟨hcarried, by decide⟩

/-- A flight that is longer than a message may be is not processed. -/
theorem flights_long (data : Chunk) (hlong : maxMessageLen < data.length + 5)
    (hlength : data.length + 5 < 2 ^ 32) :
    (flights data .invalidState 32 true 2).receiver.tls.built ≠
      (flights data .invalidState 32 true 2).sender.tls.processed := by
  set bytes := flight 0x0301 [(22, data)] with hbytes
  have hbytesLength : bytes.length = data.length + 5 := by
    simp only [hbytes, flight, tlsRecord, List.map_cons, List.map_nil, List.flatten_cons,
      List.flatten_nil, List.append_nil, List.length_append, List.length_singleton, length_htoun16]
    omega
  have hmax : maxMessageLen = 73728 := rfl
  have htake : (bytes.take 22).length = 22 := by
    rw [List.length_take]
    omega
  have hbuild : TlsOutput.build (flightStack data .invalidState) { state := some true } 22 =
      (.needMore, { state := none, output := bytes, outpos := 22, built := bytes.take 22 },
        bytes.take 22, bytes.length) := by
    have hmin : min 22 (bytes.length - 0) = 22 := by omega
    have hempty : ¬bytes.length = 0 := by omega
    have hend : ¬22 = bytes.length := by omega
    simp only [TlsOutput.build, flightStack, List.length_nil, if_true, ← hbytes, hempty, if_false,
      TlsOutput.write, hmin, List.drop_zero, Nat.zero_add, hend, List.nil_append]
  -- the first fragment of the peer
  set peer : TlsEap (Option Bool) := TlsEap.create .tls (some true) false 0 32 0 false with hpeer
  set sent : TlsEap (Option Bool) :=
    { peer with
      identifier := 1
      tls := { state := none, output := bytes, outpos := 22, built := bytes.take 22 }
      firstFragment := false } with hsent
  set packet := eapTlsHeader eapResponse 1 ((bytes.take 22).length + 10) EapTlsType.tls.number
    (fragmentFlags true true) ++ (htoun32 (BitVec.ofNat 32 bytes.length) ++ bytes.take 22)
    with hpacket
  have hpkt : TlsEap.buildPkt (flightStack data .invalidState) (fun _ => 0xAA)
      { peer with identifier := 1 } = (.needMore, sent, some packet) := by
    have hbuf : ((List.range (32 - eapTlsHeaderLen)).map fun _ => (0xAA : U8)).length - 4 = 22 := by
      rw [List.length_map, List.length_range]
      rfl
    have hbuf4 : 4 ≤ ((List.range (32 - eapTlsHeaderLen)).map fun _ => (0xAA : U8)).length := by
      decide
    have hlayout := layout_eq hbuf4 (bytes.take 22) (show bytes.length ≠ 0 by omega) true true
    have hadvance : TlsEap.advance { peer with identifier := 1 } = { peer with identifier := 1 } :=
      rfl
    have hfirst : peer.firstFragment = true := rfl
    have hfrag : peer.fragSize = 32 := rfl
    have htls : peer.tls = { state := some true } := rfl
    have hflags : peer.supportedVersion ||| flagMoreFrags ||| flagLength =
        fragmentFlags true true := by
      change (0 : U8) ||| flagMoreFrags ||| flagLength = _
      decide
    have hfield : (lengthField (some bytes.length)).length = 4 := length_htoun32 _
    unfold TlsEap.buildPkt
    simp only [hadvance]
    simp only [hfirst, if_true, hfrag, htls, hbuf, hbuild, TlsEap.buildFlags, hflags,
      hlayout, hfield]
    rfl
  have hstart : (flights data .invalidState 32 true 1) =
      { receiver := TlsEap.create .tls (some true) true 1 32 0 true, sender := sent,
        packet := some packet } := by
    have hprocess : peer.process (flightStack data .invalidState) (fun _ => 0xAA)
        (emptyPacket .tls eapRequest 1 flagStart) = (.needMore, sent, some packet) := by
      have hrespond : peer.process (flightStack data .invalidState) (fun _ => 0xAA)
          (emptyPacket .tls eapRequest 1 flagStart) =
            TlsEap.respond (flightStack data .invalidState) (fun _ => 0xAA)
              { peer with identifier := 1 } :=
        process_start rfl rfl (fun _ => 0xAA) .tls eapRequest 1
      rw [hrespond, TlsEap.respond, hpkt]
    have hpacket' : (Exchange.start (TlsEap.create .tls (some true) true 1 32 0 true) peer).packet =
        some (emptyPacket .tls eapRequest 1 flagStart) := rfl
    rw [flights, Exchange.run, Exchange.run, Exchange.step, hpacket']
    dsimp only
    rw [show (Exchange.start (TlsEap.create .tls (some true) true 1 32 0 true) peer).receiver = peer
      from rfl, hprocess]
    rfl
  -- the server refuses it
  have hne : bytes.take 22 ≠ [] := by
    rw [← List.length_pos_iff]
    omega
  have htype : EapTlsType.tls ≠ .tnc ∧ EapTlsType.tls ≠ .ptEap := by decide
  have hserver : TlsEap.process (flightStack data .invalidState) (fun _ => 0xAA)
      (TlsEap.create .tls (some true) true 1 32 0 true) packet =
        (.failed, TlsEap.create .tls (some true) true 1 32 0 true, none) :=
    process_long (wf_create htype (some true) true 1 (by decide) 0 true) rfl rfl (fun _ => 0xAA) hne
      (by omega) (by omega) (by omega) eapResponse 1 .tls true
  have hend : flights data .invalidState 32 true 2 =
      Exchange.step (flightStack data .invalidState) (fun _ => 0xAA)
        (flights data .invalidState 32 true 1) := rfl
  rw [hend, hstart, Exchange.step]
  dsimp only
  rw [hserver]
  exact hne
/-- **A flight that fails** after its first record is sent later, with four bytes of the buffer before it
and without its last four. And a flight may be too long. -/
theorem not_transports :
    (flights [1] .failed 32 false 4).receiver.tls.built ≠
        (flights [1] .failed 32 false 4).sender.tls.processed ∧
      (flights (List.replicate 73724 0) .invalidState 32 true 2).receiver.tls.built ≠
        (flights (List.replicate 73724 0) .invalidState 32 true 2).sender.tls.processed := by
  have hfails : (flights [1] .failed 32 false 4).receiver.tls.built ≠
      (flights [1] .failed 32 false 4).sender.tls.processed := by decide
  have hlength : (List.replicate 73724 (0 : U8)).length + 5 = 73729 := by
    rw [List.length_replicate]
  have hlong := flights_long (List.replicate 73724 0) (hlength ▸ by decide) (hlength ▸ by decide)
  exact ⟨hfails, hlong⟩

end Tls

end StrongSwan
