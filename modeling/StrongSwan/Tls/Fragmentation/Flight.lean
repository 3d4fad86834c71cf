import StrongSwan.Tls.Fragmentation.Send

/-!
# Flights of handshake messages

* `feed`: a peer receives records, one after the other.
* `HeadersWhole`: no header is cut.
* `feed_fragments`, `feed_recordsOf`: what a peer makes of the records of a flight.
* **`flight_exact`**: which flights get to the peer.
-/

namespace StrongSwan

namespace Tls

section Alerts

variable {σ α : Type} {handshake : TlsHandshake σ} {this : TlsFragmentation σ α}

theorem TlsAlert.fatal_add {alert : TlsAlert} (h : alert.fatal = true) (level desc : U8) :
    (alert.add level desc).fatal = true := by
  unfold TlsAlert.add
  split_ifs
  · rfl
  · exact h
  · exact h

theorem TlsAlert.fatal_addAll {alert : TlsAlert} (h : alert.fatal = true) (alerts : List (U8 × U8)) :
    (alert.addAll alerts).fatal = true := by
  induction alerts generalizing alert with
  | nil => exact h
  | cons a alerts ih => exact ih (TlsAlert.fatal_add h a.1 a.2)

/-- The state of a layer where a loop goes on or ends. -/
def TlsFragmentation.Loop.layer : TlsFragmentation.Loop σ α → TlsFragmentation σ α
  | .next this _ => this
  | .done _ this => this

theorem fatal_readHeader (h : this.alert.fatal = true) (reader : Chunk) :
    (this.readHeader reader).layer.alert.fatal = true := by
  unfold TlsFragmentation.readHeader
  cases BioReader.readUint8 reader with
  | none => exact TlsAlert.fatal_add h _ _
  | some r =>
    dsimp only
    cases BioReader.readUint24 r.2 with
    | none => exact TlsAlert.fatal_add h _ _
    | some r =>
      dsimp only
      split_ifs
      · exact TlsAlert.fatal_add h _ _
      · exact h

theorem fatal_processMessage (h : this.alert.fatal = true) (reader : Chunk) :
    (this.processMessage handshake reader).layer.alert.fatal = true := by
  unfold TlsFragmentation.processMessage
  dsimp only
  split_ifs
  · exact TlsAlert.fatal_addAll h _
  · exact TlsAlert.fatal_addAll h _
  · exact TlsAlert.fatal_addAll h _

theorem fatal_readBody (h : this.alert.fatal = true) (reader : Chunk) :
    (this.readBody handshake reader).layer.alert.fatal = true := by
  unfold TlsFragmentation.readBody
  dsimp only
  cases BioReader.readData reader (min (this.inputLen - this.input.length) reader.length) with
  | none => exact TlsAlert.fatal_add h _ _
  | some r =>
    dsimp only
    split_ifs
    · exact @fatal_processMessage _ _ _ { this with input := this.input ++ r.1 } h r.2
    · exact h

theorem fatal_processHandshake (h : this.alert.fatal = true) (fuel : ℕ) (reader : Chunk) :
    (TlsFragmentation.processHandshake handshake fuel this reader).2.alert.fatal = true := by
  induction fuel generalizing this reader with
  | zero => exact h
  | succ fuel ih =>
    rw [TlsFragmentation.processHandshake]
    by_cases hne : reader = []
    · rw [if_pos hne]
      exact h
    · by_cases hlen : reader.length > maxFragmentLen
      · rw [if_neg hne, if_pos hlen]
        exact TlsAlert.fatal_add h _ _
      · rw [if_neg hne, if_neg hlen]
        have hheader : (if this.inputLen = 0 then this.readHeader reader
            else .next this reader).layer.alert.fatal = true := by
          split_ifs
          · exact fatal_readHeader h reader
          · exact h
        cases hread : if this.inputLen = 0 then this.readHeader reader else .next this reader with
        | done status this' =>
          rw [hread] at hheader
          exact hheader
        | next this' reader' =>
          rw [hread] at hheader
          have hbody : (this'.readBody handshake reader').layer.alert.fatal = true :=
            fatal_readBody hheader reader'
          dsimp only
          cases hread' : this'.readBody handshake reader' with
          | done status this'' =>
            rw [hread'] at hbody
            exact hbody
          | next this'' reader'' =>
            rw [hread'] at hbody
            exact ih hbody reader''

/-- A peer receives records. -/
def feed (handshake : TlsHandshake σ) (application : TlsApplication α) (fuel : ℕ) :
    TlsFragmentation σ α → List (ContentType × Chunk) → Option (TlsFragmentation σ α)
  | this, [] => some this
  | this, (type, data) :: rs =>
    match this.process handshake application fuel type data with
    | some (_, this) => feed handshake application fuel this rs
    | none => none

theorem feed_fatal {application : TlsApplication α} {fuel : ℕ} {rs : List (ContentType × Chunk)}
    (h : this.alert.fatal = true)
    (hrs : ∀ r ∈ rs, r.1 = .handshake ∨ r.1 = .changeCipherSpec) :
    ∃ this', feed handshake application fuel this rs = some this' ∧ this'.alert.fatal = true := by
  induction rs generalizing this with
  | nil => exact ⟨this, rfl, h⟩
  | cons r rs ih =>
    obtain ⟨type, data⟩ := r
    have hprocess : ∃ status this', this.process handshake application fuel type data =
        some (status, this') ∧ this'.alert.fatal = true := by
      unfold TlsFragmentation.process
      by_cases hstate : this.state ≠ .none
      · rw [if_pos hstate]
        exact ⟨_, _, rfl, h⟩
      · rw [if_neg hstate]
        rcases hrs _ List.mem_cons_self with rfl | rfl
        · exact ⟨_, _, rfl, fatal_processHandshake h _ _⟩
        · dsimp only
          split_ifs
          · exact ⟨_, _, rfl, h⟩
          · exact ⟨_, _, rfl, h⟩
    obtain ⟨status, this', hprocess, hfatal⟩ := hprocess
    rw [feed, hprocess]
    exact ih hfatal fun r hr => hrs r (List.mem_cons_of_mem _ hr)

end Alerts

/-! ## Flights -/

/-- A header at an offset of the output buffer is within one piece. -/
def HeaderWhole (offset : ℕ) : Prop := offset / maxFragmentLen = (offset + 3) / maxFragmentLen

/-- All headers are, from an offset on. A change of the cipher begins with an empty buffer. -/
def HeadersWhole : ℕ → List Event → Prop
  | _, [] => True
  | offset, .message m :: evs =>
    HeaderWhole offset ∧ HeadersWhole (offset + (4 + m.body.length)) evs
  | _, .changeCipherSpec :: evs => HeadersWhole 0 evs

theorem headersWhole_append {p : ℕ} {ms : List Message} {evs : List Event} :
    HeadersWhole p (ms.map .message ++ evs) ↔ (∀ q ∈ offsets p ms, HeaderWhole q) ∧
      HeadersWhole (p + (ms.flatMap Message.encode).length) evs := by
  induction ms generalizing p with
  | nil => simp [offsets]
  | cons m ms ih =>
    rw [List.map_cons, List.cons_append, HeadersWhole, ih, offsets, List.forall_mem_cons, and_assoc,
      List.flatMap_cons, List.length_append, Message.length_encode, Nat.add_comm 4, Nat.add_assoc]

theorem headerWhole_add {q : ℕ} : HeaderWhole (q + maxFragmentLen) ↔ HeaderWhole q := by
  simp only [HeaderWhole, maxFragmentLen]
  omega

theorem headerWhole_of_le {q : ℕ} (h : q + 4 ≤ maxFragmentLen) : HeaderWhole q := by
  simp only [HeaderWhole, maxFragmentLen] at *
  omega

theorem not_headerWhole {q : ℕ} (h : q < maxFragmentLen) (hcut : maxFragmentLen < q + 4) :
    ¬HeaderWhole q := by
  simp only [HeaderWhole, maxFragmentLen] at *
  omega

def messages : List Event → List Message
  | [] => []
  | .message m :: evs => m :: messages evs
  | .changeCipherSpec :: evs => messages evs

/-- The handshake layer of the peer goes on with each message, raises no alert, and expects each change
of the cipher. -/
def Accepts {σ : Type} (handshake : TlsHandshake σ) : σ → List Event → Prop
  | _, [] => True
  | s, .message m :: evs => ∃ next, handshake.process s m.type m.body = (.needMore, [], next) ∧
      Accepts handshake next evs
  | s, .changeCipherSpec :: evs => handshake.cipherspecChanged s true = true ∧
      Accepts handshake (handshake.changeCipherspec s true) evs

section Flights

variable {σ α : Type} {handshake : TlsHandshake σ} (application : TlsApplication α)
  {this : TlsFragmentation (σ × List Message) α} (fuel : ℕ)

variable {ms : List Message}

theorem le_of_await {stream : Chunk} {offs : List ℕ} {q : ℕ}
    (h : Await this ms stream offs) (hq : q ∈ offs) : q + 4 ≤ stream.length := by
  have hoffsets : ∀ {p q : ℕ} {ms : List Message}, q ∈ offsets p ms →
      q + 4 ≤ p + (ms.flatMap Message.encode).length := by
    intro p q ms hq
    induction ms generalizing p with
    | nil => cases hq
    | cons m ms ih =>
      rw [List.flatMap_cons, List.length_append]
      rcases List.mem_cons.mp hq with rfl | hq
      · have hlen := Message.length_encode m
        omega
      · have hle := ih hq
        omega
  cases h with
  | header _ _ =>
    have hle := hoffsets hq
    omega
  | body m ms tail =>
    rw [List.length_append]
    exact hoffsets hq

theorem await_nil {offs : List ℕ} (h : Await this ms [] offs) :
    ms = [] ∧ this.inputLen = 0 := by
  generalize hstream : ([] : Chunk) = stream at h
  cases h with
  | header _ hlen =>
    cases ms with
    | nil => exact ⟨rfl, hlen⟩
    | cons m ms => cases hstream
  | body m ms tail _ _ _ htail =>
    exact absurd (List.append_eq_nil_iff.mp hstream.symm).1 htail

/-- **The pieces of a buffer** get the peer over all messages if no header is cut; else there is an
alert. -/
theorem feed_fragments {out : Chunk} {offs : List ℕ} {final : σ}
    (hstate : this.state = .none) (hfatal : this.alert.fatal = false)
    (hawait : Await this ms out offs) (hgoes : Goes handshake this.handshake.1 ms final)
    (hsize : ∀ m ∈ ms, m.body.length ≤ maxHandshakeLen) (rs : List (ContentType × Chunk))
    (hrs : ∀ r ∈ rs, r.1 = .handshake ∨ r.1 = .changeCipherSpec) :
    ((∀ q ∈ offs, HeaderWhole q) ∧ ∃ this',
      feed handshake.logged application fuel this ((fragments out).map handshakeRecord ++ rs) =
        feed handshake.logged application fuel this' rs ∧
      Reaches handshake this this' ms [] out.length offs []) ∨
    (¬∀ q ∈ offs, HeaderWhole q) ∧ ∃ this',
      feed handshake.logged application fuel this ((fragments out).map handshakeRecord ++ rs) =
        some this' ∧ this'.alert.fatal = true := by
  induction hlength : out.length using Nat.strong_induction_on generalizing this ms out offs with
  | _ n ih =>
    subst hlength
    by_cases hempty : out = []
    · subst hempty
      have hms := (await_nil hawait).1
      subst hms
      refine .inl ⟨fun q hq => ?_, this, rfl, .refl hawait⟩
      have hle := le_of_await hawait hq
      rw [List.length_nil] at hle
      omega
    · have hpos : 0 < out.length := List.length_pos_iff.mpr hempty
      have htake : (out.take maxFragmentLen).length = min maxFragmentLen out.length :=
        List.length_take
      have hdrop : (out.drop maxFragmentLen).length = out.length - maxFragmentLen :=
        List.length_drop
      have hmax : 0 < maxFragmentLen := by simp [maxFragmentLen]
      have hprocess : this.process handshake.logged application fuel .handshake
          (out.take maxFragmentLen) =
          some (TlsFragmentation.processHandshake handshake.logged (out.take maxFragmentLen).length
            this (out.take maxFragmentLen)) := by
        unfold TlsFragmentation.process
        rw [if_neg (not_not.mpr hstate)]
      rw [fragments_of_ne_nil hempty, List.map_cons, List.cons_append, handshakeRecord, feed, hprocess]
      dsimp only
      have hsplit := hawait
      rw [← List.take_append_drop maxFragmentLen out] at hsplit
      rcases processHandshake_spec hsplit hfatal hgoes hsize (by omega) le_rfl with
        ⟨ms', hreaches⟩ | ⟨⟨q, hq, hlt, hcut⟩, hresult⟩
      · obtain ⟨offs', hawait', hoffs⟩ := hreaches.await
        obtain ⟨done, hms, -, hdone⟩ := hreaches.processed
        subst hms
        have hwhole : (∀ q ∈ offs', HeaderWhole q) ↔ ∀ q ∈ offs, HeaderWhole q := by
          constructor
          · intro h q hq
            by_cases hlt : q < (out.take maxFragmentLen).length
            · have hle := hreaches.whole q hq hlt
              exact headerWhole_of_le (by omega)
            · have hle := le_of_await hawait hq
              have hfull : (out.take maxFragmentLen).length = maxFragmentLen := by omega
              have hmem := (hoffs (q - maxFragmentLen)).mpr (by
                rw [hfull, Nat.sub_add_cancel (by omega)]
                exact hq)
              have hadd := headerWhole_add.mpr (h _ hmem)
              rwa [Nat.sub_add_cancel (by omega)] at hadd
          · intro h q hq
            have hmem := h _ ((hoffs q).mp hq)
            have hle := le_of_await hawait ((hoffs q).mp hq)
            have hfull : (out.take maxFragmentLen).length = maxFragmentLen := by omega
            rw [hfull] at hmem
            exact headerWhole_add.mp hmem
        rcases ih _ (by omega) (hreaches.state.trans hstate) (by rw [hreaches.alert, hfatal]) hawait'
          (hdone.of_append hgoes) (fun m hm => hsize m (List.mem_append_right _ hm)) rfl with
          ⟨hall, this', hfeed, hreaches'⟩ | ⟨hnot, this', hfeed, hfatal'⟩
        · refine .inl ⟨hwhole.mp hall, this', hfeed, ?_⟩
          have htrans := hreaches.trans hoffs hreaches'
          have hsum : (out.take maxFragmentLen).length + (out.drop maxFragmentLen).length =
              out.length := by omega
          rw [hsum] at htrans
          exact htrans
        · exact .inr ⟨fun h => hnot (hwhole.mpr h), this', hfeed, hfatal'⟩
      · refine .inr ⟨fun h => ?_, feed_fatal hresult ?_⟩
        · have hle := le_of_await hawait hq
          exact not_headerWhole (by omega) (by omega) (h q hq)
        · intro r hr
          rcases List.mem_append.mp hr with hr | hr
          · obtain ⟨data, -, rfl⟩ := List.mem_map.mp hr
            exact .inl rfl
          · exact hrs r hr

theorem types_recordsOf {evs : List Event} :
    ∀ r ∈ recordsOf ms evs, r.1 = .handshake ∨ r.1 = .changeCipherSpec := by
  induction evs generalizing ms with
  | nil =>
    intro r hr
    obtain ⟨data, -, rfl⟩ := List.mem_map.mp hr
    exact .inl rfl
  | cons ev evs ih =>
    cases ev with
    | message m => exact ih
    | changeCipherSpec =>
      intro r hr
      rcases List.mem_append.mp hr with hr | hr
      · obtain ⟨data, -, rfl⟩ := List.mem_map.mp hr
        exact .inl rfl
      · rcases List.mem_cons.mp hr with rfl | hr
        · exact .inr rfl
        · exact ih r hr

theorem feed_recordsOf {evs : List Event} {s : σ} (hstate : this.state = .none)
    (hfatal : this.alert.fatal = false) (hlen : this.inputLen = 0)
    (hgoes : Goes handshake this.handshake.1 ms s) (haccepts : Accepts handshake s evs)
    (hsize : ∀ m ∈ ms ++ messages evs, m.body.length ≤ maxHandshakeLen) :
    (HeadersWhole 0 (ms.map .message ++ evs) ∧ ∃ this',
      feed handshake.logged application fuel this (recordsOf ms evs) = some this' ∧
      this'.handshake.2 = this.handshake.2 ++ (ms ++ messages evs) ∧ this'.alert = this.alert) ∨
    (¬HeadersWhole 0 (ms.map .message ++ evs) ∧ ∃ this',
      feed handshake.logged application fuel this (recordsOf ms evs) = some this' ∧
      this'.alert.fatal = true) := by
  induction evs generalizing this ms s with
  | nil =>
    rw [headersWhole_append, recordsOf]
    have hfeed := feed_fragments application fuel hstate hfatal
      (.header ms hlen) hgoes (fun m hm => hsize m (List.mem_append_left _ hm)) [] (by simp)
    rw [List.append_nil] at hfeed
    rcases hfeed with ⟨hwhole, this', hfeed, hreaches⟩ | ⟨hnot, hfeed⟩
    · obtain ⟨done, hms, hlog, -⟩ := hreaches.processed
      refine .inl ⟨⟨hwhole, trivial⟩, this', hfeed, ?_, hreaches.alert⟩
      rw [hlog, hms, messages, List.append_nil, List.append_nil]
    · exact .inr ⟨fun h => hnot h.1, hfeed⟩
  | cons ev evs ih =>
    cases ev with
    | message m =>
      obtain ⟨next, hprocess, haccepts⟩ := haccepts
      have hgoes' : Goes handshake this.handshake.1 (ms ++ [m]) next :=
        hgoes.append ⟨next, hprocess, rfl⟩
      have ih := ih hstate hfatal hlen hgoes' haccepts (by simpa [messages] using hsize)
      rw [List.map_append, List.append_assoc, List.append_assoc] at ih
      exact ih
    | changeCipherSpec =>
      obtain ⟨hchanged, haccepts⟩ := haccepts
      rw [headersWhole_append, recordsOf, HeadersWhole]
      rcases feed_fragments application fuel hstate hfatal
        (.header ms hlen) hgoes (fun m hm => hsize m (List.mem_append_left _ hm))
        ((.changeCipherSpec, [1]) :: recordsOf [] evs) (by
          intro r hr
          rcases List.mem_cons.mp hr with rfl | hr
          · exact .inr rfl
          · exact types_recordsOf r hr) with
        ⟨hwhole, this', hfeed, hreaches⟩ | ⟨hnot, hfeed⟩
      · obtain ⟨offs', hawait, -⟩ := hreaches.await
        obtain ⟨done, hms, hlog, hdone⟩ := hreaches.processed
        rw [List.append_nil] at hms
        subst hms
        have hstate' : this'.state = .none := hreaches.state.trans hstate
        have hrest : Goes handshake this'.handshake.1 [] s :=
          hdone.of_append (by rwa [List.append_nil])
        have hs : this'.handshake.1 = s := hrest
        have hprocess : this'.process handshake.logged application fuel .changeCipherSpec [1] =
            some (.needMore, { this' with
              handshake := handshake.logged.changeCipherspec this'.handshake true }) := by
          have hlogged : handshake.logged.cipherspecChanged this'.handshake true = true := by
            rw [← hs] at hchanged
            exact hchanged
          unfold TlsFragmentation.process
          rw [if_neg (not_not.mpr hstate')]
          dsimp only
          rw [if_pos hlogged, hstate']
        have hnext := @ih { this' with
            handshake := handshake.logged.changeCipherspec this'.handshake true } []
          (handshake.changeCipherspec s true) hstate' (by rw [hreaches.alert, hfatal])
          (await_nil hawait).2 (by rw [← hs]; rfl) haccepts
          (fun m hm => hsize m (List.mem_append_right _ hm))
        rw [hfeed, feed, hprocess]
        rcases hnext with ⟨hall, peer, hfeed', hlog', halert⟩ | ⟨hnot, hfeed'⟩
        · refine .inl ⟨⟨hwhole, hall⟩, peer, hfeed', ?_, halert.trans hreaches.alert⟩
          rw [hlog', messages, List.nil_append, ← List.append_assoc, ← hlog]
          rfl
        · exact .inr ⟨fun h => hnot h.2, hfeed'⟩
      · exact .inr ⟨fun h => hnot h.1, hfeed⟩

/-- From the records the peer processes exactly the messages, and there is no alert. -/
def Delivered (handshake : TlsHandshake σ) (application : TlsApplication α) (fuel : ℕ)
    (peer : TlsFragmentation (σ × List Message) α) (rs : List (ContentType × Chunk))
    (ms : List Message) : Prop :=
  ∃ peer', feed handshake.logged application fuel peer rs = some peer' ∧
    peer'.handshake.2 = peer.handshake.2 ++ ms ∧ peer'.alert = peer.alert

end Flights

/-- The layer is between two flights. -/
structure Ready {σ α : Type} (this : TlsFragmentation σ α) : Prop where
  state : this.state = .none
  alert : Quiet this.alert
  input : this.inputLen = 0
  output : this.output = []

theorem mem_messages {evs : List Event} {m : Message} (h : .message m ∈ evs) : m ∈ messages evs := by
  induction evs with
  | nil => cases h
  | cons ev evs ih =>
    cases ev with
    | message m' =>
      rcases List.mem_cons.mp h with heq | h
      · cases heq
        exact List.mem_cons_self
      · exact List.mem_cons_of_mem _ (ih h)
    | changeCipherSpec =>
      rcases List.mem_cons.mp h with heq | h
      · cases heq
      · exact ih h

section Exactness

variable {σ α : Type} {handshake : TlsHandshake σ} {application : TlsApplication α} {evs : List Event}
  {fuel : ℕ}

theorem records_flight {this : TlsFragmentation σ α} {n : ℕ} (hready : Ready this)
    (hflight : Flight handshake this.handshake evs)
    (hsize : ∀ m ∈ messages evs, m.body.length ≤ maxHandshakeLen) (hfuel : evs.length < fuel)
    (hn : recordsBound evs < n) :
    records handshake application fuel n this = some (recordsOf [] evs) := by
  have hbound : this.output.length + recordsBound evs < n := by
    rwa [hready.output, List.length_nil, Nat.zero_add]
  have hrecords : records handshake application fuel n this = _ :=
    records_eq hready.state hready.alert (fun h => absurd hready.output h) hflight
      (fun m hm => hsize m (mem_messages hm)) hfuel hbound
  rwa [hready.output] at hrecords

theorem delivered_recordsOf {peer : TlsFragmentation (σ × List Message) α} (hready : Ready peer)
    (haccepts : Accepts handshake peer.handshake.1 evs)
    (hsize : ∀ m ∈ messages evs, m.body.length ≤ maxHandshakeLen) :
    Delivered handshake application fuel peer (recordsOf [] evs) (messages evs) ↔
      HeadersWhole 0 evs := by
  have hnone : Goes handshake peer.handshake.1 [] peer.handshake.1 := rfl
  rcases feed_recordsOf application fuel hready.state hready.alert.fatal hready.input hnone haccepts
    hsize with ⟨hwhole, peer', hfeed, hlog, halert⟩ | ⟨hnot, peer', hfeed, hfatal⟩
  · exact iff_of_true ⟨peer', hfeed, hlog, halert⟩ hwhole
  · refine iff_of_false (fun ⟨peer'', hfeed', _, halert⟩ => ?_) hnot
    cases hfeed.symm.trans hfeed'
    rw [halert, hready.alert.fatal] at hfatal
    cases hfatal

end Exactness

/-- **Flights get to the peer if no header is cut.** A message header across the end of a record raises
an alert. -/
theorem flight_exact {σ α σ' α' : Type} {handshake : TlsHandshake σ} {application : TlsApplication α}
    {handshake' : TlsHandshake σ'} {application' : TlsApplication α'} {this : TlsFragmentation σ α}
    {peer : TlsFragmentation (σ' × List Message) α'} {evs : List Event} {fuel fuel' n : ℕ}
    (hready : Ready this) (hready' : Ready peer) (hflight : Flight handshake this.handshake evs)
    (hsize : ∀ m ∈ messages evs, m.body.length ≤ maxHandshakeLen)
    (haccepts : Accepts handshake' peer.handshake.1 evs) (hfuel : evs.length < fuel)
    (hn : recordsBound evs < n) :
    ∃ rs, records handshake application fuel n this = some rs ∧
      (Delivered handshake' application' fuel' peer rs (messages evs) ↔ HeadersWhole 0 evs) :=
  ⟨_, records_flight hready hflight hsize hfuel hn, delivered_recordsOf hready' haccepts hsize⟩

/-! A layer that follows a script, on both sides. -/

/-- The layer sends the events of its state, and expects them from its peer. -/
def script : TlsHandshake (List Event) where
  process s _ _ :=
    match s with
    | .message _ :: s => (.needMore, [], s)
    | s => (.failed, [(tlsFatal, 10)], s)
  build s :=
    match s with
    | .message m :: s => (.needMore, m.type, m.body, [], s)
    | s => (.invalidState, 0, [], [], s)
  cipherspecChanged s _ :=
    match s with
    | .changeCipherSpec :: _ => true
    | _ => false
  changeCipherspec s _ := s.tail
  finished _ := false

def noApplication : TlsApplication Unit where
  process s reader := (.failed, reader, s)
  build s msg := (.invalidState, msg, s)

theorem flight_script (evs : List Event) : Flight script evs evs := by
  induction evs with
  | nil => exact .wait rfl rfl
  | cons ev evs ih =>
    cases ev with
    | message m => exact .message rfl rfl rfl ih
    | changeCipherSpec => exact .changeCipherSpec rfl ih

theorem accepts_script (evs : List Event) : Accepts script evs evs := by
  induction evs with
  | nil => trivial
  | cons ev evs ih =>
    cases ev with
    | message m => exact ⟨evs, rfl, ih⟩
    | changeCipherSpec => exact ⟨rfl, ih⟩

theorem ready_create {σ α : Type} (handshake : σ) (application : Option α) (purpose : Purpose) :
    Ready (TlsFragmentation.create handshake TlsAlert.create application purpose) :=
  ⟨rfl, ⟨rfl, rfl⟩, rfl, rfl⟩

/-- A layer that is to follow a script. -/
def start {σ : Type} (handshake : σ) : TlsFragmentation σ Unit :=
  TlsFragmentation.create handshake TlsAlert.create none .generic

def changedFlight : List Event :=
  [.message ⟨16, [1, 2]⟩, .changeCipherSpec, .message ⟨20, []⟩]

theorem flight_exact_changed : ∃ rs,
    records script noApplication 4 12 (start changedFlight) = some rs ∧
      (Delivered script noApplication 0 (start (changedFlight, [])) rs (messages changedFlight) ↔
        HeadersWhole 0 changedFlight) :=
  flight_exact (ready_create _ _ _) (ready_create _ _ _) (flight_script _) (by decide)
    (accepts_script _) (by decide) (by decide)

/-- A message of two bytes less than a record. -/
def longMessage : Message := ⟨11, List.replicate 16378 0⟩

theorem length_longMessage : longMessage.body.length = 16378 := List.length_replicate

/-- The header of the second message begins two bytes before the first record ends. -/
def cutFlight : List Event := [.message longMessage, .message ⟨14, []⟩]

theorem not_flight_delivered : ∃ rs,
    records script noApplication 3 20000 (start cutFlight) = some rs ∧
      ¬Delivered script noApplication 0 (start (cutFlight, [])) rs (messages cutFlight) := by
  have hsize : ∀ m ∈ messages cutFlight, m.body.length ≤ maxHandshakeLen := by
    intro m hm
    rcases List.mem_cons.mp hm with rfl | hm
    · rw [length_longMessage]
      decide
    · rw [List.mem_singleton.mp hm]
      exact Nat.zero_le _
  have hbound : recordsBound cutFlight < 20000 := by
    simp [recordsBound, cutFlight, Message.length_encode, length_longMessage]
  refine ⟨_, records_flight (ready_create _ _ _) (flight_script _) hsize (by decide) hbound,
    fun h => ?_⟩
  have hready : Ready (start (cutFlight, ([] : List Message))) := ready_create _ _ _
  have hwhole := (delivered_recordsOf hready (accepts_script cutFlight) hsize).mp h
  rw [cutFlight, HeadersWhole, HeadersWhole, length_longMessage] at hwhole
  exact absurd hwhole.2.1 (not_headerWhole (by decide) (by decide))

end Tls

end StrongSwan
