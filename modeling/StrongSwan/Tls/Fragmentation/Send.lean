import StrongSwan.Lib.Pieces
import StrongSwan.Tls.Fragmentation.Receive

/-!
# Sending flights

* `Event`, `Flight`: what a handshake layer builds until it has to wait.
* `fragments`: the pieces of the output buffer.
* `records`: what `build` returns until the layer has to wait.
* **`records_eq`**: the records of a flight.
-/

namespace StrongSwan

namespace Tls

/-- What a handshake layer does to its peer. -/
inductive Event
  | message (m : Message)
  | changeCipherSpec

/-- The layer builds one event after the other, until it waits for its peer. -/
inductive Flight {σ : Type} (handshake : TlsHandshake σ) : σ → List Event → Prop
  | wait {s type body} : handshake.cipherspecChanged s false = false →
    handshake.build s = (.invalidState, type, body, [], s) → Flight handshake s []
  | message {s s' m evs} : handshake.cipherspecChanged s false = false → handshake.finished s = false →
    handshake.build s = (.needMore, m.type, m.body, [], s') → Flight handshake s' evs →
    Flight handshake s (.message m :: evs)
  | changeCipherSpec {s evs} : handshake.cipherspecChanged s false = true →
    Flight handshake (handshake.changeCipherspec s false) evs →
    Flight handshake s (.changeCipherSpec :: evs)

/-- The pieces of the output buffer. -/
def fragments (output : Chunk) : List Chunk :=
  Pieces.cut maxFragmentLen ((output.length + (maxFragmentLen - 1)) / maxFragmentLen) output

theorem fragments_nil : fragments [] = [] := rfl

theorem fragments_of_ne_nil {output : Chunk} (h : output ≠ []) :
    fragments output =
      output.take maxFragmentLen :: fragments (output.drop maxFragmentLen) := by
  have hpos : 0 < output.length := List.length_pos_iff.mpr h
  have hcount : (output.length + (maxFragmentLen - 1)) / maxFragmentLen =
      ((output.drop maxFragmentLen).length + (maxFragmentLen - 1)) / maxFragmentLen + 1 := by
    rw [List.length_drop]
    simp only [maxFragmentLen]
    omega
  rw [fragments, hcount, Pieces.cut, fragments]

/-- A record of the handshake protocol. -/
def handshakeRecord (data : Chunk) : ContentType × Chunk := (.handshake, data)

/-- The records of a flight, of which some messages were built already. -/
def recordsOf : List Message → List Event → List (ContentType × Chunk)
  | ms, [] => (fragments (ms.flatMap Message.encode)).map handshakeRecord
  | ms, .message m :: evs => recordsOf (ms ++ [m]) evs
  | ms, .changeCipherSpec :: evs =>
    (fragments (ms.flatMap Message.encode)).map handshakeRecord ++
      (.changeCipherSpec, [1]) :: recordsOf [] evs

/-- The most records that there can be. -/
def recordsBound : List Event → ℕ
  | [] => 0
  | .message m :: evs => m.encode.length + recordsBound evs
  | .changeCipherSpec :: evs => 1 + recordsBound evs

section Sending

variable {σ α : Type} {handshake : TlsHandshake σ} {application : TlsApplication α}

/-- The output buffer is empty, and the handshake layer waits for its peer. -/
def waits (handshake : TlsHandshake σ) (this : TlsFragmentation σ α) : Bool :=
  this.output = [] && !handshake.cipherspecChanged this.handshake false &&
    (handshake.build this.handshake).1 ≠ .needMore

/-- The records that `build` returns until the layer waits; nothing if it returns anything else. -/
def records (handshake : TlsHandshake σ) (application : TlsApplication α) (fuel : ℕ) :
    ℕ → TlsFragmentation σ α → Option (List (ContentType × Chunk))
  | 0, _ => none
  | n + 1, this =>
    if waits handshake this then some []
    else
      match this.build handshake application fuel with
      | some (.needMore, some record, this) =>
        (records handshake application fuel n this).map (record :: ·)
      | _ => none

/-- No alert is to be sent. -/
structure Quiet (alert : TlsAlert) : Prop where
  fatal : alert.fatal = false
  warnings : alert.warnings = []

theorem Quiet.get {alert : TlsAlert} (h : Quiet alert) : alert.get = (none, alert) := by
  rw [TlsAlert.get, h.fatal, h.warnings]
  rfl

variable {this : TlsFragmentation σ α}

theorem Quiet.checkAlerts (h : Quiet this.alert) :
    this.checkAlerts = (none, this) := by
  rw [TlsFragmentation.checkAlerts, h.get]

/-- The messages built before the next change of the cipher, and what comes then. -/
def leading : List Event → List Message × List Event
  | .message m :: evs => (m :: (leading evs).1, (leading evs).2)
  | evs => ([], evs)

theorem recordsOf_leading (ms : List Message) (evs : List Event) : recordsOf ms evs =
    (fragments ((ms ++ (leading evs).1).flatMap Message.encode)).map handshakeRecord ++
      recordsOf [] (leading evs).2 := by
  induction evs generalizing ms with
  | nil => simp [recordsOf, leading, fragments_nil]
  | cons ev evs ih =>
    cases ev with
    | message m =>
      rw [recordsOf, ih, leading, List.append_assoc]
      rfl
    | changeCipherSpec =>
      rw [recordsOf, leading, List.append_nil]
      · rw [recordsOf]
        rfl
      · nofun

/-- The layer with messages in its output buffer. -/
def written (this : TlsFragmentation σ α) (s : σ) (msg : Chunk) : TlsFragmentation σ α :=
  { this with handshake := s, outputType := .handshake, output := msg }

/-- **One run of `build_handshake`** writes the messages up to the next change of the cipher. -/
theorem buildHandshake_eq {evs : List Event} {fuel : ℕ}
    (hflight : Flight handshake this.handshake evs) (hquiet : Quiet this.alert)
    (hsize : ∀ m, .message m ∈ evs → m.body.length ≤ maxHandshakeLen) (hfuel : evs.length < fuel)
    (msg : Chunk)
    (hstart : handshake.cipherspecChanged this.handshake false = false) :
    ∃ status s, TlsFragmentation.buildHandshake handshake fuel this msg =
        some (status, written this s (msg ++ (leading evs).1.flatMap Message.encode)) ∧
      Flight handshake s (leading evs).2 := by
  induction evs generalizing this fuel msg with
  | nil =>
    obtain ⟨fuel, rfl⟩ := Nat.exists_eq_succ_of_ne_zero (Nat.ne_of_gt hfuel)
    cases hflight with
    | wait hchanged hbuild =>
      refine ⟨.invalidState, this.handshake, ?_, .wait hchanged hbuild⟩
      rw [TlsFragmentation.buildHandshake, hbuild]
      simp [TlsAlert.addAll, leading, written]
  | cons ev evs ih =>
    obtain ⟨fuel, rfl⟩ := Nat.exists_eq_succ_of_ne_zero (Nat.ne_of_gt (Nat.zero_lt_of_lt hfuel))
    cases hflight with
    | changeCipherSpec hchanged hflight =>
      rw [hstart] at hchanged
      cases hchanged
    | @message _ s' m _ hchanged hfinished hbuild hflight =>
      have hlen : m.body.length ≤ 65536 := hsize m List.mem_cons_self
      have hwrite : BioWriter.writeData24 (BioWriter.writeUint8 msg m.type) m.body =
          msg ++ m.encode := by
        have htoNat : (BitVec.ofNat 32 m.body.length).toNat = m.body.length := by
          rw [BitVec.toNat_ofNat]
          omega
        simp [BioWriter.writeData24, BioWriter.writeData, BioWriter.writeUint24,
          BioWriter.writeUint8, Message.encode, htoNat]
      have hfatal : ¬this.alert.fatal = true := by
        rw [hquiet.fatal]
        exact Bool.false_ne_true
      rw [TlsFragmentation.buildHandshake, hbuild, leading, List.flatMap_cons, ← List.append_assoc,
        ← hwrite]
      dsimp only
      split_ifs with hraised hnext
      · exact absurd hraised hfatal
      · exact @ih { this with handshake := s' } fuel hflight hquiet
          (fun m hm => hsize m (List.mem_cons_of_mem _ hm)) (Nat.lt_of_succ_lt_succ hfuel) _
          (by simpa using hnext)
      · have hnext : handshake.cipherspecChanged s' false = true := by simpa using hnext
        have hleading : leading evs = ([], evs) := by
          cases hflight with
          | wait hchanged' => cases hnext.symm.trans hchanged'
          | message hchanged' => cases hnext.symm.trans hchanged'
          | changeCipherSpec => rfl
        rw [hleading, List.flatMap_nil, List.append_nil]
        exact ⟨.needMore, s', rfl, hflight⟩

theorem takeOutput_eq (h : this.output ≠ []) (status : Status) :
    this.takeOutput status = (.needMore, some (this.outputType, this.output.take maxFragmentLen),
      { this with output := this.output.drop maxFragmentLen }) := by
  rw [TlsFragmentation.takeOutput, if_pos h]
  split_ifs with hlen
  · rw [List.take_of_length_le hlen, List.drop_of_length_le hlen]
  · rfl

theorem leading_leading (evs : List Event) : (leading (leading evs).2).1 = [] := by
  induction evs with
  | nil => rfl
  | cons ev evs ih =>
    cases ev with
    | message m => exact ih
    | changeCipherSpec => rfl

theorem eq_leading (evs : List Event) : evs = (leading evs).1.map .message ++ (leading evs).2 := by
  induction evs with
  | nil => rfl
  | cons ev evs ih =>
    cases ev with
    | message m => exact congrArg _ ih
    | changeCipherSpec => rfl

theorem recordsBound_leading (evs : List Event) : recordsBound evs =
    ((leading evs).1.flatMap Message.encode).length + recordsBound (leading evs).2 := by
  induction evs with
  | nil => rfl
  | cons ev evs ih =>
    cases ev with
    | message m =>
      rw [recordsBound, ih, leading, List.flatMap_cons, List.length_append, Nat.add_assoc]
    | changeCipherSpec => exact (Nat.zero_add _).symm

/-- **The records of a flight** are the pieces of the output buffer, and what is built then. -/
theorem records_eq {evs : List Event} {fuel n : ℕ}
    (hstate : this.state = .none) (hquiet : Quiet this.alert)
    (houtput : this.output ≠ [] → this.outputType = .handshake ∧ (leading evs).1 = [])
    (hflight : Flight handshake this.handshake evs)
    (hsize : ∀ m, .message m ∈ evs → m.body.length ≤ maxHandshakeLen) (hfuel : evs.length < fuel)
    (hn : this.output.length + recordsBound evs < n) :
    records handshake application fuel n this =
      some ((fragments this.output).map handshakeRecord ++ recordsOf [] evs) := by
  induction n generalizing this evs with
  | zero => cases hn
  | succ n ih =>
    rw [records]
    by_cases hempty : this.output = []
    · cases hflight with
      | wait hchanged hbuild =>
        have hwaits : waits handshake this = true := by simp [waits, hempty, hchanged, hbuild]
        rw [if_pos hwaits, hempty, recordsOf, List.flatMap_nil, fragments_nil]
        rfl
      | @changeCipherSpec _ evs hchanged hflight =>
        have hwaits : waits handshake this = false := by simp [waits, hchanged]
        rw [if_neg (by rw [hwaits]; exact Bool.false_ne_true)]
        have hbuild : this.build handshake application fuel =
            some (.needMore, some (.changeCipherSpec, [1]), { this with
              handshake := handshake.changeCipherspec this.handshake false }) := by
          rw [TlsFragmentation.build, hstate]
          dsimp only
          rw [hquiet.checkAlerts]
          dsimp only
          rw [if_neg (not_not.mpr hempty), if_pos hchanged, hstate]
        have ih := @ih { this with handshake := handshake.changeCipherspec this.handshake false } evs
          hstate hquiet (fun h => absurd hempty h) hflight
          (fun m hm => hsize m (List.mem_cons_of_mem _ hm)) (Nat.lt_of_succ_lt hfuel)
          (by rw [recordsBound] at hn; dsimp only; omega)
        rw [hbuild]
        dsimp only
        rw [ih, hempty, recordsOf, List.flatMap_nil, fragments_nil]
        rfl
      | @message _ s' m evs hchanged hfinished hbuild hflight' =>
        have hflight : Flight handshake this.handshake (.message m :: evs) :=
          .message hchanged hfinished hbuild hflight'
        have hwaits : waits handshake this = false := by simp [waits, hbuild]
        rw [if_neg (by rw [hwaits]; exact Bool.false_ne_true)]
        obtain ⟨status, s, hrun, hrest⟩ := buildHandshake_eq hflight hquiet hsize hfuel [] hchanged
        generalize hout : (leading (.message m :: evs)).1.flatMap Message.encode = out at hrun
        have hne : out ≠ [] := by
          rw [← hout, leading, List.flatMap_cons, Message.encode]
          exact List.cons_ne_nil _ _
        have hbuilt : this.build handshake application fuel =
            some (.needMore, some (.handshake, out.take maxFragmentLen),
              written this s (out.drop maxFragmentLen)) := by
          have hcheck : (written this s out).checkAlerts = (none, written this s out) :=
            Quiet.checkAlerts hquiet
          rw [TlsFragmentation.build, hstate]
          dsimp only
          rw [hquiet.checkAlerts]
          dsimp only
          rw [if_neg (not_not.mpr hempty), hchanged, if_neg Bool.false_ne_true, hfinished, hrun,
            Bool.not_false, if_pos rfl, List.nil_append]
          dsimp only
          rw [hcheck]
          exact congrArg some (takeOutput_eq hne status)
        have hlength : (leading (.message m :: evs)).2.length ≤ (Event.message m :: evs).length := by
          conv_rhs => rw [eq_leading (.message m :: evs)]
          rw [List.length_append]
          exact Nat.le_add_left _ _
        have hbound := recordsBound_leading (.message m :: evs)
        have hpos : 0 < out.length := List.length_pos_iff.mpr hne
        rw [hout] at hbound
        have ih := @ih (written this s (out.drop maxFragmentLen)) _ hstate hquiet
          (fun _ => ⟨rfl, leading_leading _⟩) hrest
          (fun m' hm' => hsize m' (by
            rw [eq_leading (.message m :: evs)]
            exact List.mem_append_right _ hm'))
          (hlength.trans_lt hfuel)
          (by
            rw [written, List.length_drop]
            simp only [maxFragmentLen]
            omega)
        rw [hbuilt]
        dsimp only
        rw [ih, hempty, recordsOf_leading [] (.message m :: evs), List.nil_append, hout,
          fragments_of_ne_nil hne, fragments_nil, List.map_nil, List.nil_append, List.map_cons,
          Option.map_some, List.cons_append]
        rfl
    · obtain ⟨htype, hleading⟩ := houtput hempty
      have hwaits : waits handshake this = false := by simp [waits, hempty]
      rw [if_neg (by rw [hwaits]; exact Bool.false_ne_true)]
      have hbuild : this.build handshake application fuel = some (this.takeOutput .invalidState) := by
        rw [TlsFragmentation.build, hstate]
        dsimp only
        rw [hquiet.checkAlerts]
        dsimp only
        rw [if_pos hempty]
      have hpos : 0 < this.output.length := List.length_pos_iff.mpr hempty
      have ih := @ih { this with output := this.output.drop maxFragmentLen } evs hstate hquiet
        (fun _ => ⟨htype, hleading⟩) hflight hsize hfuel (by
          rw [List.length_drop]
          simp only [maxFragmentLen]
          omega)
      rw [hbuild, takeOutput_eq hempty]
      dsimp only
      rw [ih, htype, fragments_of_ne_nil hempty, List.map_cons, Option.map_some, List.cons_append]
      rfl

end Sending

end Tls

end StrongSwan
