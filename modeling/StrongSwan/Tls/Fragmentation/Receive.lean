import StrongSwan.Tls.Fragmentation

/-!
# Receiving fragments

* `Message.encode`, `offsets`: messages as bytes, and where their headers are.
* `TlsHandshake.logged`: a handshake layer that keeps the messages it is given.
* `Await`: which messages the fragmentation layer waits for.
* `processHandshake_spec`: a record gets it to the messages behind it, unless it ends in a header.
-/

namespace StrongSwan

namespace Tls

/-- A handshake message. -/
structure Message where
  type : U8
  body : Chunk
  deriving DecidableEq

/-- The bytes of a message, with a header of four bytes. -/
def Message.encode (m : Message) : Chunk := m.type :: (Bytes.ofNat 3 m.body.length ++ m.body)

theorem Message.length_encode (m : Message) : m.encode.length = m.body.length + 4 := by
  rw [encode, List.length_cons, List.length_append, Bytes.length_ofNat]
  omega

/-- Where the headers of messages are, from an offset on. -/
def offsets : ℕ → List Message → List ℕ
  | _, [] => []
  | p, m :: ms => p :: offsets (p + m.encode.length) ms

theorem mem_offsets_add {p q n : ℕ} {ms : List Message} :
    q + n ∈ offsets (p + n) ms ↔ q ∈ offsets p ms := by
  induction ms generalizing p with
  | nil => exact iff_of_false List.not_mem_nil List.not_mem_nil
  | cons m ms ih =>
    rw [offsets, offsets, List.mem_cons, List.mem_cons, Nat.add_right_cancel_iff,
      Nat.add_right_comm, ih]

theorem le_of_mem_offsets {p q : ℕ} {ms : List Message} (h : q ∈ offsets p ms) : p ≤ q := by
  induction ms generalizing p with
  | nil => cases h
  | cons m ms ih =>
    rcases List.mem_cons.mp h with rfl | h
    · exact le_rfl
    · exact (Nat.le_add_right _ _).trans (ih h)

/-- A handshake layer that keeps the messages it was given. -/
def TlsHandshake.logged {σ : Type} (handshake : TlsHandshake σ) : TlsHandshake (σ × List Message) where
  process s type body :=
    let (status, alerts, state) := handshake.process s.1 type body
    (status, alerts, (state, s.2 ++ [⟨type, body⟩]))
  build s :=
    let (status, type, body, alerts, state) := handshake.build s.1
    (status, type, body, alerts, (state, s.2))
  cipherspecChanged s inbound := handshake.cipherspecChanged s.1 inbound
  changeCipherspec s inbound := (handshake.changeCipherspec s.1 inbound, s.2)
  finished s := handshake.finished s.1

/-- The layer goes on with each of the messages, and raises no alert. -/
def Goes {σ : Type} (handshake : TlsHandshake σ) : σ → List Message → σ → Prop
  | s, [], s' => s = s'
  | s, m :: ms, s' => ∃ next, handshake.process s m.type m.body = (.needMore, [], next) ∧
      Goes handshake next ms s'

section Receiving

variable {σ α : Type} {handshake : TlsHandshake σ}
  {this : TlsFragmentation (σ × List Message) α}

/-- The messages the layer waits for, their bytes, and where their headers are in these. -/
inductive Await (this : TlsFragmentation (σ × List Message) α) :
    List Message → Chunk → List ℕ → Prop
  | header (ms : List Message) :
    this.inputLen = 0 → Await this ms (ms.flatMap Message.encode) (offsets 0 ms)
  | body (m : Message) (ms : List Message) (tail : Chunk) :
    this.inputLen = m.body.length → this.type = m.type → m.body = this.input ++ tail → tail ≠ [] →
    Await this (m :: ms) (tail ++ ms.flatMap Message.encode) (offsets tail.length ms)

def behindHeader (this : TlsFragmentation (σ × List Message) α) (m : Message) :
    TlsFragmentation (σ × List Message) α :=
  { this with type := m.type, inputLen := m.body.length, input := [] }

def behind (this : TlsFragmentation (σ × List Message) α) (m : Message) (state : σ) :
    TlsFragmentation (σ × List Message) α :=
  { this with handshake := (state, this.handshake.2 ++ [m]), inputLen := 0, input := m.body }

variable {m : Message}

theorem readBody_complete {tail rest : Chunk} {state : σ}
    (hlen : this.inputLen = m.body.length) (htype : this.type = m.type)
    (hbody : m.body = this.input ++ tail) (hfatal : this.alert.fatal = false)
    (hprocess : handshake.process this.handshake.1 m.type m.body = (.needMore, [], state)) :
    this.readBody handshake.logged (tail ++ rest) = .next (behind this m state) rest := by
  have hmin : min (this.inputLen - this.input.length) (tail ++ rest).length = tail.length := by
    rw [hlen, hbody, List.length_append, List.length_append]
    omega
  have hcall : handshake.logged.process this.handshake m.type m.body =
      (.needMore, [], (state, this.handshake.2 ++ [m])) := by
    simp [TlsHandshake.logged, hprocess]
  have hnext : ({ this with input := m.body } : TlsFragmentation _ α).processMessage handshake.logged
      rest = .next (behind this m state) rest := by
    rw [TlsFragmentation.processMessage, htype, hcall]
    dsimp only
    rw [if_neg (not_not.mpr rfl), TlsAlert.addAll, List.foldl_nil, hfatal, if_neg Bool.false_ne_true,
      behind, htype]
  unfold TlsFragmentation.readBody
  dsimp only
  rw [hmin, BioReader.readData_append rest rfl]
  dsimp only
  rw [← hbody, if_pos hlen, hnext]

theorem readBody_partial {data tail : Chunk} (hlen : this.inputLen = m.body.length)
    (hbody : m.body = this.input ++ (data ++ tail)) (htail : tail ≠ [])
    (hfatal : this.alert.fatal = false) :
    this.readBody handshake.logged data = .next { this with input := this.input ++ data } [] := by
  have hpos : 0 < tail.length := List.length_pos_iff.mpr htail
  have hlength : this.inputLen = this.input.length + (data.length + tail.length) := by
    rw [hlen, hbody, List.length_append, List.length_append]
  have hmin : min (this.inputLen - this.input.length) data.length = data.length := by omega
  have hread := BioReader.readData_append [] (rfl : data.length = data.length)
  rw [List.append_nil] at hread
  unfold TlsFragmentation.readBody
  dsimp only
  rw [hmin, hread]
  dsimp only
  rw [if_neg (by rw [List.length_append]; omega), hfatal, if_neg Bool.false_ne_true]

theorem readHeader_encode (hsize : m.body.length ≤ maxHandshakeLen) (rest : Chunk) :
    this.readHeader (m.type :: (Bytes.ofNat 3 m.body.length ++ rest)) =
      .next (behindHeader this m) rest := by
  have hle : m.body.length ≤ 65536 := hsize
  have htype : BioReader.readUint8 (m.type :: (Bytes.ofNat 3 m.body.length ++ rest)) =
      some (m.type, Bytes.ofNat 3 m.body.length ++ rest) := by
    simp [BioReader.readUint8]
  have htoNat : (BitVec.ofNat 32 m.body.length).toNat = m.body.length := by
    rw [BitVec.toNat_ofNat]
    omega
  unfold TlsFragmentation.readHeader
  rw [htype]
  dsimp only
  rw [BioWriter.readUint24_append (by omega)]
  dsimp only
  rw [htoNat, if_neg (Nat.not_lt.mpr hsize), behindHeader]

theorem readHeader_short {data : Chunk} (hlen : data.length < 4) :
    this.readHeader data = .done .needMore (this.addAlert tlsDecodeError) := by
  unfold TlsFragmentation.readHeader
  cases data with
  | nil => rfl
  | cons b data =>
    have htype : BioReader.readUint8 (b :: data) = some (b, data) := by simp [BioReader.readUint8]
    rw [List.length_cons] at hlen
    rw [htype]
    dsimp only
    rw [BioReader.readUint24, if_pos (by omega)]

/-- The layer got over `n` bytes with no header across their end: it processed the messages that were
complete, and waits for the others. -/
structure Reaches (handshake : TlsHandshake σ) (this this' : TlsFragmentation (σ × List Message) α)
    (ms ms' : List Message) (n : ℕ) (offs : List ℕ) (stream : Chunk) : Prop where
  whole : ∀ q ∈ offs, q < n → q + 4 ≤ n
  await : ∃ offs', Await this' ms' stream offs' ∧ ∀ q, q ∈ offs' ↔ q + n ∈ offs
  processed : ∃ done, ms = done ++ ms' ∧ this'.handshake.2 = this.handshake.2 ++ done ∧
    Goes handshake this.handshake.1 done this'.handshake.1
  alert : this'.alert = this.alert
  state : this'.state = this.state

theorem Goes.append {s s' s'' : σ} {ms ms' : List Message} (h : Goes handshake s ms s')
    (h' : Goes handshake s' ms' s'') : Goes handshake s (ms ++ ms') s'' := by
  induction ms generalizing s with
  | nil =>
    cases h
    exact h'
  | cons m ms ih =>
    obtain ⟨next, hprocess, h⟩ := h
    exact ⟨next, hprocess, ih h⟩

theorem Goes.of_append {s s' s'' : σ} {ms ms' : List Message} (h : Goes handshake s ms s')
    (h' : Goes handshake s (ms ++ ms') s'') : Goes handshake s' ms' s'' := by
  induction ms generalizing s with
  | nil =>
    cases h
    exact h'
  | cons m ms ih =>
    obtain ⟨next, hprocess, h⟩ := h
    obtain ⟨next', hprocess', h'⟩ := h'
    cases hprocess.symm.trans hprocess'
    exact ih h h'

theorem Reaches.trans {this₁ this₂ : TlsFragmentation (σ × List Message) α}
    {ms ms₁ ms₂ : List Message} {n n' : ℕ} {offs offs₁ : List ℕ} {stream stream' : Chunk}
    (h : Reaches handshake this this₁ ms ms₁ n offs stream)
    (hoffs : ∀ q, q ∈ offs₁ ↔ q + n ∈ offs)
    (h' : Reaches handshake this₁ this₂ ms₁ ms₂ n' offs₁ stream') :
    Reaches handshake this this₂ ms ms₂ (n + n') offs stream' := by
  obtain ⟨done, rfl, hlog, hgoes⟩ := h.processed
  obtain ⟨done', rfl, hlog', hgoes'⟩ := h'.processed
  obtain ⟨offs₂, hawait, hoffs'⟩ := h'.await
  constructor
  case whole =>
    intro q hq hlt
    by_cases hn : q < n
    · have hle := h.whole q hq hn
      omega
    · have hmem := (hoffs (q - n)).mpr (by rwa [Nat.sub_add_cancel (Nat.not_lt.mp hn)])
      have hle := h'.whole _ hmem (by omega)
      omega
  case await =>
    refine ⟨offs₂, hawait, fun q => ?_⟩
    rw [hoffs', hoffs, Nat.add_assoc, Nat.add_comm n']
  case processed =>
    refine ⟨done ++ done', (List.append_assoc _ _ _).symm, ?_, hgoes.append hgoes'⟩
    rw [hlog', hlog, List.append_assoc]
  case alert => exact h'.alert.trans h.alert
  case state => exact h'.state.trans h.state

variable {ms : List Message}

theorem readBody_spec {tail data stream : Chunk} {final : σ}
    (hlen : this.inputLen = m.body.length) (htype : this.type = m.type)
    (hbody : m.body = this.input ++ tail) (hfatal : this.alert.fatal = false)
    (hstream : tail ++ ms.flatMap Message.encode = data ++ stream)
    (hgoes : Goes handshake this.handshake.1 (m :: ms) final) :
    ∃ this' ms' n rest, this.readBody handshake.logged data = .next this' rest ∧
      n = min tail.length data.length ∧ data.length = n + rest.length ∧
      Reaches handshake this this' (m :: ms) ms' n (offsets tail.length ms) (rest ++ stream) := by
  obtain ⟨state, hprocess, -⟩ := hgoes
  have hcomplete : ∀ rest, data = tail ++ rest → ms.flatMap Message.encode = rest ++ stream →
      ∃ this' ms' n rest, this.readBody handshake.logged data = .next this' rest ∧
        n = min tail.length data.length ∧ data.length = n + rest.length ∧
        Reaches handshake this this' (m :: ms) ms' n (offsets tail.length ms) (rest ++ stream) := by
    rintro rest rfl hrest
    have hlength : (tail ++ rest).length = tail.length + rest.length := List.length_append
    refine ⟨behind this m state, ms, tail.length, rest,
      readBody_complete hlen htype hbody hfatal hprocess, by omega, hlength, ?_⟩
    constructor
    case whole =>
      intro q hq hlt
      exact absurd (le_of_mem_offsets hq) (Nat.not_le.mpr hlt)
    case await =>
      rw [← hrest]
      refine ⟨_, .header ms rfl, fun q => ?_⟩
      have hadd : q + tail.length ∈ offsets (0 + tail.length) ms ↔ q ∈ offsets 0 ms := mem_offsets_add
      rw [Nat.zero_add] at hadd
      exact hadd.symm
    case processed => exact ⟨[m], rfl, rfl, state, hprocess, rfl⟩
    case alert => rfl
    case state => rfl
  rcases List.append_eq_append_iff.mp hstream with ⟨rest, hdata, hrest⟩ | ⟨tail', htail, hrest⟩
  · exact hcomplete rest hdata hrest
  · by_cases hempty : tail' = []
    · subst hempty
      rw [List.append_nil] at htail
      exact hcomplete [] (by rw [List.append_nil, htail]) hrest.symm
    · subst htail
      have hlength : (data ++ tail').length = data.length + tail'.length := List.length_append
      refine ⟨_, m :: ms, data.length, [], readBody_partial hlen hbody hempty hfatal, by omega, rfl,
        ?_⟩
      constructor
      case whole =>
        intro q hq hlt
        have hle := le_of_mem_offsets hq
        rw [List.length_append] at hle
        omega
      case await =>
        rw [List.nil_append, hrest]
        refine ⟨_, .body m ms tail' hlen htype (by rw [hbody, List.append_assoc]) hempty, fun q => ?_⟩
        rw [List.length_append, Nat.add_comm data.length]
        exact mem_offsets_add.symm
      case processed => exact ⟨[], rfl, (List.append_nil _).symm, rfl⟩
      case alert => rfl
      case state => rfl

theorem Reaches.refl {stream : Chunk} {offs : List ℕ}
    (h : Await this ms stream offs) : Reaches handshake this this ms ms 0 offs stream where
  whole := fun _ _ hlt => absurd hlt (Nat.not_lt_zero _)
  await := ⟨offs, h, fun _ => Iff.rfl⟩
  processed := ⟨[], rfl, (List.append_nil _).symm, rfl⟩
  alert := rfl
  state := rfl

theorem Reaches.header {this' : TlsFragmentation (σ × List Message) α}
    {ms ms' : List Message} {n : ℕ} {stream : Chunk}
    (h : Reaches handshake (behindHeader this m) this' (m :: ms) ms' n (offsets m.body.length ms)
      stream) : Reaches handshake this this' (m :: ms) ms' (n + 4) (offsets 0 (m :: ms)) stream := by
  have hoffs : ∀ q, q + 4 ∈ offsets 0 (m :: ms) ↔ q ∈ offsets m.body.length ms := fun q => by
    rw [offsets, List.mem_cons, Nat.zero_add, Message.length_encode, mem_offsets_add]
    exact or_iff_right (Nat.succ_ne_zero _)
  obtain ⟨offs', hawait, hmem⟩ := h.await
  constructor
  case whole =>
    intro q hq hlt
    rcases List.mem_cons.mp hq with rfl | htail
    · omega
    · have hle := le_of_mem_offsets htail
      rw [Nat.zero_add, Message.length_encode] at hle
      obtain ⟨q, rfl⟩ : ∃ q', q = q' + 4 := ⟨q - 4, by omega⟩
      have hwhole := h.whole q ((hoffs q).mp hq) (by omega)
      omega
  case await =>
    refine ⟨offs', hawait, fun q => ?_⟩
    rw [hmem, ← Nat.add_assoc, hoffs]
  case processed => exact h.processed
  case alert => exact h.alert
  case state => exact h.state

/-- One turn of the loop takes some bytes, unless it finds a header that is cut off. -/
theorem processHandshake_step {data stream : Chunk} {offs : List ℕ} {final : σ}
    (hawait : Await this ms (data ++ stream) offs) (hfatal : this.alert.fatal = false)
    (hgoes : Goes handshake this.handshake.1 ms final)
    (hsize : ∀ m ∈ ms, m.body.length ≤ maxHandshakeLen) (hlen : data.length ≤ maxFragmentLen)
    (hne : data ≠ []) :
    (∃ this' ms' n rest, 0 < n ∧ data.length = n + rest.length ∧
      Reaches handshake this this' ms ms' n offs (rest ++ stream) ∧
      ∀ fuel, TlsFragmentation.processHandshake handshake.logged (fuel + 1) this data =
        TlsFragmentation.processHandshake handshake.logged fuel this' rest) ∨
      (∃ q ∈ offs, q < data.length ∧ data.length < q + 4) ∧ ∀ fuel,
        (TlsFragmentation.processHandshake handshake.logged (fuel + 1) this data).2.alert.fatal =
          true := by
  have hpos : 0 < data.length := List.length_pos_iff.mpr hne
  generalize hstream : data ++ stream = s at hawait
  cases hawait with
  | header _ hzero =>
    cases ms with
    | nil => exact absurd (List.append_eq_nil_iff.mp hstream).1 hne
    | cons m ms =>
      by_cases hshort : data.length < 4
      · refine .inr ⟨⟨0, List.mem_cons_self, hpos, hshort⟩, fun fuel => ?_⟩
        rw [TlsFragmentation.processHandshake, if_neg hne, if_neg (Nat.not_lt.mpr hlen), if_pos hzero,
          readHeader_short hshort]
        simp [TlsFragmentation.addAlert, TlsAlert.add, hfatal]
      · have hsplit : (m.type :: Bytes.ofNat 3 m.body.length) ++
            (m.body ++ ms.flatMap Message.encode) = data ++ stream := by
          rw [hstream, List.flatMap_cons, Message.encode]
          simp
        have hheader : (m.type :: Bytes.ofNat 3 m.body.length).length = 4 := by simp
        obtain ⟨rest, rfl, hrest⟩ : ∃ rest, data = (m.type :: Bytes.ofNat 3 m.body.length) ++ rest ∧
            m.body ++ ms.flatMap Message.encode = rest ++ stream := by
          rcases List.append_eq_append_iff.mp hsplit with h | ⟨cut, hcut, hcut'⟩
          · exact h
          · have hlength := congrArg List.length hcut
            rw [hheader, List.length_append] at hlength
            obtain rfl := List.length_eq_zero_iff.mp (show cut.length = 0 by omega)
            rw [List.append_nil] at hcut
            exact ⟨[], by rw [hcut, List.append_nil], hcut'.symm⟩
        obtain ⟨this', ms', n, rest', hread, -, hlength, hreaches⟩ := readBody_spec
          (rfl : (behindHeader this m).inputLen = m.body.length) rfl rfl hfatal hrest hgoes
        refine .inl ⟨this', ms', n + 4, rest', by omega, ?_, hreaches.header, fun fuel => ?_⟩
        · rw [List.length_append, hheader, hlength]
          omega
        · rw [TlsFragmentation.processHandshake, if_neg hne, if_neg (Nat.not_lt.mpr hlen), if_pos hzero,
            List.cons_append, readHeader_encode (hsize m List.mem_cons_self)]
          dsimp only
          rw [hread]
  | body m ms tail hinput htype hbody htail =>
    obtain ⟨this', ms', n, rest, hread, hn, hlength, hreaches⟩ :=
      readBody_spec hinput htype hbody hfatal hstream.symm hgoes
    have htailpos : 0 < tail.length := List.length_pos_iff.mpr htail
    have hinputLen : this.inputLen ≠ 0 := by
      rw [hinput, hbody, List.length_append]
      omega
    refine .inl ⟨this', ms', n, rest, by omega, hlength, hreaches, fun fuel => ?_⟩
    rw [TlsFragmentation.processHandshake, if_neg hne, if_neg (Nat.not_lt.mpr hlen),
      if_neg hinputLen]
    dsimp only
    rw [hread]

theorem processHandshake_spec {data stream : Chunk} {offs : List ℕ} {final : σ}
    {fuel : ℕ} (hawait : Await this ms (data ++ stream) offs) (hfatal : this.alert.fatal = false)
    (hgoes : Goes handshake this.handshake.1 ms final)
    (hsize : ∀ m ∈ ms, m.body.length ≤ maxHandshakeLen) (hlen : data.length ≤ maxFragmentLen)
    (hfuel : data.length ≤ fuel) :
    (∃ ms', Reaches handshake this
        (TlsFragmentation.processHandshake handshake.logged fuel this data).2 ms ms' data.length offs
        stream) ∨
      (∃ q ∈ offs, q < data.length ∧ data.length < q + 4) ∧
        (TlsFragmentation.processHandshake handshake.logged fuel this data).2.alert.fatal = true := by
  induction fuel generalizing this ms data offs with
  | zero =>
    obtain rfl := List.length_eq_zero_iff.mp (Nat.le_zero.mp hfuel)
    exact .inl ⟨ms, .refl hawait⟩
  | succ fuel ih =>
    by_cases hne : data = []
    · subst hne
      exact .inl ⟨ms, .refl hawait⟩
    · rcases processHandshake_step hawait hfatal hgoes hsize hlen hne with
        ⟨this', ms', n, rest, hpos, hsplit, hreaches, hstep⟩ | ⟨hcut, hstep⟩
      · rw [hstep]
        obtain ⟨offs', hawait', hoffs⟩ := hreaches.await
        obtain ⟨done, rfl, -, hdone⟩ := hreaches.processed
        rcases ih hawait' (by rw [hreaches.alert, hfatal]) (hdone.of_append hgoes)
          (fun m hm => hsize m (List.mem_append_right _ hm)) (by omega) (by omega) with
          ⟨ms'', hreaches'⟩ | ⟨⟨q, hq, hlt, hcut⟩, hresult⟩
        · rw [hsplit]
          exact .inl ⟨ms'', hreaches.trans hoffs hreaches'⟩
        · exact .inr ⟨⟨q + n, (hoffs q).mp hq, by omega, by omega⟩, hresult⟩
      · exact .inr ⟨hcut, hstep fuel⟩

end Receiving

end Tls

end StrongSwan
