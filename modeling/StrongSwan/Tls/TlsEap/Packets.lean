import StrongSwan.Tls.TlsEap

/-!
# Packets of TLS over EAP

What one side makes of a packet: the TLS stack gets its payload, and the next bytes of a flight are sent.

* `TlsStack.Lawful`: what the record layer promises; `build_spec`: the bytes of a flight.
* `IsFragment`, `emptyPacket`: packets with and without payload.
* `buildPkt_spec`, **`respond_spec`**: what a side sends; **`process_spec`**: what it gets.
-/

namespace StrongSwan

namespace Tls

variable {σ : Type} {stack : TlsStack σ}

/-- What the record layer promises: it builds records until there are none any more, or fails before it has
built one, and a flight is not longer than a message may be. -/
structure TlsStack.Lawful (stack : TlsStack σ) : Prop where
  status : ∀ state, (stack.build state).2.1 ≠ .needMore ∧ (stack.build state).2.1 ≠ .alreadyDone
  records : ∀ state, (stack.build state).1 ≠ [] → (stack.build state).2.1 = .invalidState
  length : ∀ state, (flight stack.version (stack.build state).1).length ≤ maxMessageLen

/-! ## The bytes of a flight -/

/-- There is a flight of which bytes are left, or none. -/
def TlsOutput.Ready (this : TlsOutput σ) : Prop :=
  this.outpos < this.output.length ∨ this.output = [] ∧ this.outpos = 0

/-- What is written of a flight, with its length if it is the start -/
structure TlsOutput.Writes (this this' : TlsOutput σ) (status : Status) (data : Chunk)
    (reclen buflen : ℕ) : Prop where
  ne_nil : data ≠ []
  length : data.length ≤ buflen
  built : this'.built = this.built ++ data
  processed : this'.processed = this.processed
  ready : this'.Ready
  status : status = .needMore ∧ this'.output ≠ [] ∨ status = .alreadyDone ∧ this'.output = []
  rest : this.output ≠ [] → reclen = 0
  first : this.output = [] → data.length ≤ reclen ∧ reclen ≤ maxMessageLen ∧
    (this'.output ≠ [] → reclen = this'.output.length)

theorem write_spec {this : TlsOutput σ} (hpos : this.outpos < this.output.length) {buflen : ℕ}
    (hbuflen : 1 ≤ buflen) :
    ∃ this' status data, this.write buflen = (status, this', data) ∧ data ≠ [] ∧
      data.length ≤ buflen ∧ data.length ≤ this.output.length ∧
      this'.built = this.built ++ data ∧ this'.processed = this.processed ∧ this'.Ready ∧
      (status = .needMore ∧ this'.output = this.output ∨
        status = .alreadyDone ∧ this'.output = []) := by
  set data := (this.output.drop this.outpos).take
    (min buflen (this.output.length - this.outpos)) with hdata
  have hlength : data.length = min buflen (this.output.length - this.outpos) := by
    rw [hdata, List.length_take, List.length_drop]
    omega
  have hne : data ≠ [] := by
    rw [← List.length_pos_iff]
    omega
  unfold TlsOutput.write
  dsimp only
  rw [← hdata]
  split_ifs with hend
  · exact ⟨_, _, data, rfl, hne, by omega, by omega, rfl, rfl, Or.inr ⟨rfl, rfl⟩,
      Or.inr ⟨rfl, rfl⟩⟩
  · refine ⟨_, _, data, rfl, hne, by omega, by omega, rfl, rfl, Or.inl ?_, Or.inl ⟨rfl, rfl⟩⟩
    change this.outpos + _ < this.output.length
    omega

/-- **The next bytes of a flight**, or none -/
theorem build_spec (hstack : stack.Lawful) {this : TlsOutput σ} (hready : this.Ready) {buflen : ℕ}
    (hbuflen : 1 ≤ buflen) :
    (∃ status this', this.build stack buflen = (status, this', [], 0) ∧ status ≠ .needMore ∧
      status ≠ .alreadyDone ∧ this'.built = this.built ∧ this'.processed = this.processed ∧
      this.output = [] ∧ this'.output = [] ∧ this'.outpos = 0) ∨
    ∃ status this' data reclen, this.build stack buflen = (status, this', data, reclen) ∧
      this.Writes this' status data reclen buflen := by
  rcases hready with hpos | ⟨houtput, houtpos⟩
  · right
    obtain ⟨this', status, data, hwrite, hne, hle, -, hbuilt, hprocessed, hready, hstatus⟩ :=
      write_spec hpos hbuflen
    have hoe : this.output ≠ [] := by
      rintro hnil
      rw [hnil] at hpos
      exact absurd hpos (Nat.not_lt_zero _)
    refine ⟨status, this', data, 0, ?_, hne, hle, hbuilt, hprocessed, hready, ?_, fun _ => rfl,
      fun hnil => absurd hnil hoe⟩
    · unfold TlsOutput.build
      rw [if_neg (by omega), hwrite]
    · rcases hstatus with ⟨hmore, heq⟩ | hdone
      · exact Or.inl ⟨hmore, heq ▸ hoe⟩
      · exact Or.inr hdone
  · have hlaw := hstack.status this.state
    have hrecords := hstack.records this.state
    have hlength := hstack.length this.state
    unfold TlsOutput.build
    rw [if_pos (by rw [houtput]; rfl)]
    rcases hbuild : stack.build this.state with ⟨records, status, state⟩
    rw [hbuild] at hlaw hrecords hlength
    dsimp only at hlaw hrecords hlength ⊢
    by_cases hinvalid : status = .invalidState
    · rw [if_pos hinvalid]
      split_ifs with hempty
      · left
        exact ⟨_, _, rfl, by decide, by decide, rfl, rfl, houtput,
          List.length_eq_zero_iff.1 hempty, houtpos⟩
      · right
        have hpos : 0 < (flight stack.version records).length := Nat.pos_of_ne_zero hempty
        have hfirst : { this with state := state, output := flight stack.version records }.outpos <
            { this with state := state, output := flight stack.version records }.output.length :=
          houtpos ▸ hpos
        obtain ⟨this', status', data, hwrite, hne, hle, hall, hbuilt, hprocessed, hready, hstatus⟩ :=
          write_spec hfirst hbuflen
        refine ⟨status', this', data, (flight stack.version records).length, ?_, hne, hle, hbuilt,
          hprocessed, hready, ?_, fun hoe => absurd houtput hoe, fun _ => ⟨hall, hlength, ?_⟩⟩
        · rw [hwrite]
        · rcases hstatus with ⟨hmore, heq⟩ | hdone
          · refine Or.inl ⟨hmore, ?_⟩
            rw [heq]
            exact List.length_pos_iff.1 hpos
          · exact Or.inr hdone
        · intro hoe
          rcases hstatus with ⟨-, heq⟩ | ⟨-, hnil⟩
          · rw [heq]
          · exact absurd hnil hoe
    · left
      rw [if_neg hinvalid]
      have hnil : records = [] := by
        by_contra hne
        exact hinvalid (hrecords hne)
      refine ⟨status, _, rfl, hlaw.1, hlaw.2, rfl, rfl, houtput, ?_, houtpos⟩
      rw [hnil]
      rfl

/-! ## Packets -/

@[simp] theorem length_eapTlsHeader (code identifier : U8) (length : ℕ) (type flags : U8) :
    (eapTlsHeader code identifier length type flags).length = eapTlsHeaderLen := by
  simp [eapTlsHeader, eapTlsHeaderLen]

theorem packetFlags_header (code identifier : U8) (length : ℕ) (type flags : U8) (rest : Chunk) :
    packetFlags (eapTlsHeader code identifier length type flags ++ rest) = flags := rfl

theorem untoh16_header {length : ℕ} (hlength : length < 2 ^ 16) (code identifier type flags : U8)
    (rest : Chunk) :
    (untoh16 ((eapTlsHeader code identifier length type flags ++ rest).drop 2)).toNat = length := by
  have hdrop : (eapTlsHeader code identifier length type flags ++ rest).drop 2 =
      htoun16 (BitVec.ofNat 16 length) ++ ([type, flags] ++ rest) := rfl
  rw [hdrop, untoh16_htoun16_append, BitVec.toNat_ofNat, Nat.mod_eq_of_lt hlength]

theorem drop_header (code identifier : U8) (length : ℕ) (type flags : U8) (rest : Chunk) :
    (eapTlsHeader code identifier length type flags ++ rest).drop eapTlsHeaderLen = rest :=
  List.drop_left' (length_eapTlsHeader _ _ _ _ _)

theorem untoh32_htoun32_append (n : U32) (rest : Chunk) : untoh32 (htoun32 n ++ rest) = n := by
  have htake : (htoun32 n ++ rest).take 4 = htoun32 n := List.take_left' (length_htoun32 n)
  have hsame : untoh32 (htoun32 n) = untoh32 (htoun32 n ++ rest) := by
    rw [untoh32, untoh32, htake, List.take_of_length_le (length_htoun32 n).le]
  rw [← hsame, untoh32_htoun32]

def packetPayload (packet : Chunk) : Chunk :=
  packet.drop (eapTlsHeaderLen + if packetFlags packet &&& flagLength ≠ 0 then 4 else 0)

/-- A packet without payload -/
def emptyPacket (type : EapTlsType) (code identifier flags : U8) : Chunk :=
  eapTlsHeader code identifier eapTlsHeaderLen type.number flags

def lengthField : Option ℕ → Chunk
  | none => []
  | some total => htoun32 (BitVec.ofNat 32 total)

def fragmentFlags (more hasLength : Bool) : U8 :=
  (if more then flagMoreFrags else 0) ||| if hasLength then flagLength else 0

/-- A fragment of a flight, with the length of the flight if that is sent with it -/
structure IsFragment (type : EapTlsType) (packet payload : Chunk) (more : Bool) (total : Option ℕ) :
    Prop where
  eq : ∃ code identifier, packet =
    eapTlsHeader code identifier packet.length type.number (fragmentFlags more total.isSome) ++
      (lengthField total ++ payload)
  ne_nil : payload ≠ []
  length : packet.length < 2 ^ 16
  total : ∀ n, total = some n → payload.length ≤ n ∧ n ≤ maxMessageLen

theorem fragmentFlags_length (more hasLength : Bool) :
    fragmentFlags more hasLength &&& flagLength ≠ 0 ↔ hasLength = true := by
  cases more <;> cases hasLength <;> decide

theorem fragmentFlags_start (more hasLength : Bool) :
    fragmentFlags more hasLength &&& flagStart = 0 ∧
      fragmentFlags more hasLength &&& flagVersion = 0 := by
  cases more <;> cases hasLength <;> decide

theorem length_lengthField (total : Option ℕ) :
    (lengthField total).length = if total.isSome = true then 4 else 0 := by
  cases total <;> simp [lengthField]

section

variable {type : EapTlsType} {packet payload : Chunk} {more : Bool} {total : Option ℕ}

theorem IsFragment.flags (h : IsFragment type packet payload more total) :
    packetFlags packet = fragmentFlags more total.isSome := by
  obtain ⟨code, identifier, heq⟩ := h.eq
  rw [heq, packetFlags_header]

theorem IsFragment.lengthField_eq (h : IsFragment type packet payload more total) :
    (untoh16 (packet.drop 2)).toNat = packet.length := by
  obtain ⟨code, identifier, heq⟩ := h.eq
  have hfield := untoh16_header h.length code identifier type.number
    (fragmentFlags more total.isSome) (lengthField total ++ payload)
  rwa [← heq] at hfield

theorem IsFragment.body (h : IsFragment type packet payload more total) :
    packet.drop eapTlsHeaderLen = lengthField total ++ payload := by
  obtain ⟨code, identifier, heq⟩ := h.eq
  rw [heq, drop_header]

theorem IsFragment.length_eq (h : IsFragment type packet payload more total) :
    packet.length = eapTlsHeaderLen + (lengthField total).length + payload.length := by
  obtain ⟨code, identifier, heq⟩ := h.eq
  have hlength := congrArg List.length heq
  rw [List.length_append, List.length_append, length_eapTlsHeader] at hlength
  omega

theorem IsFragment.payload_eq (h : IsFragment type packet payload more total) :
    packetPayload packet = payload := by
  unfold packetPayload
  rw [h.flags, ← List.drop_drop, h.body]
  simp only [fragmentFlags_length]
  rw [← length_lengthField total, List.drop_left]

end

theorem emptyPacket_payload (type : EapTlsType) (code identifier : U8) {flags : U8}
    (hflags : flags &&& flagLength = 0) :
    packetPayload (emptyPacket type code identifier flags) = [] := by
  have hpacket : packetFlags (emptyPacket type code identifier flags) = flags := rfl
  unfold packetPayload
  rw [hpacket, if_neg (not_not.2 hflags)]
  rfl

/-! ## What a side sends -/

/-- What holds of a side between packets -/
structure TlsEap.Wf (this : TlsEap σ) : Prop where
  type : this.type ≠ .tnc ∧ this.type ≠ .ptEap
  version : this.supportedVersion = 0
  fragSize : 11 ≤ this.fragSize ∧ this.fragSize < 2 ^ 16
  first : this.firstFragment = true ↔ this.tls.output = []
  ready : this.tls.Ready

/-- What packets do not change -/
structure TlsEap.Same (this this' : TlsEap σ) : Prop where
  type : this'.type = this.type
  fragSize : this'.fragSize = this.fragSize
  maxMsgCount : this'.maxMsgCount = this.maxMsgCount
  processed : this'.processed = this.processed

/-- **What is sent**: a fragment of what is built, or a packet without payload -/
structure TlsEap.Sends (this this' : TlsEap σ) (packet : Chunk) : Prop where
  wf : this'.Wf
  same : this.Same this'
  built : this'.tls.built = this.tls.built ++ packetPayload packet
  processed : this'.tls.processed = this.tls.processed
  length : packet.length ≤ this.fragSize
  packet : (∃ code identifier, packet = emptyPacket this.type code identifier 0 ∧
      this'.tls.output = []) ∨
    ∃ payload more total, IsFragment this.type packet payload more total ∧
      (this.tls.output = [] → this'.tls.output ≠ [] →
        more = true ∧ total = some this'.tls.output.length)

/-- Nothing is sent. -/
structure TlsEap.Ends (this this' : TlsEap σ) : Prop where
  built : this'.tls.built = this.tls.built
  processed : this'.tls.processed = this.tls.processed

theorem advance_eq (this : TlsEap σ) :
    ∃ identifier, this.advance = { this with identifier := identifier } := by
  unfold TlsEap.advance
  split_ifs
  · exact ⟨_, rfl⟩
  · exact ⟨this.identifier, rfl⟩

/-- **What is sent behind the header** is the length field, if there is one, and the data. -/
theorem layout_eq {buf : Chunk} (hbuf : 4 ≤ buf.length) (data : Chunk) {reclen : ℕ}
    (hreclen : reclen ≠ 0) (more hasLength : Bool) :
    TlsEap.layout buf 4 data reclen (fragmentFlags more hasLength) =
      (data.length + (lengthField (if hasLength then some reclen else none)).length,
        lengthField (if hasLength then some reclen else none) ++ data) := by
  have hdrop : (TlsEap.writeAt buf 4 data).drop 4 = data ++ buf.drop (4 + data.length) := by
    unfold TlsEap.writeAt
    rw [List.append_assoc, List.drop_left' (by simpa using hbuf)]
  have hflags := fragmentFlags_length more hasLength
  unfold TlsEap.layout
  dsimp only
  rw [if_pos hreclen]
  cases hasLength with
  | true =>
    rw [if_pos (hflags.2 rfl)]
    simp only [if_true, lengthField, length_htoun32]
    rw [TlsEap.writeAt, Nat.zero_add, length_htoun32, hdrop, List.take_zero, List.nil_append,
      ← List.append_assoc, List.take_left' (by simp [Nat.add_comm])]
  | false =>
    rw [if_neg (fun hne => Bool.false_ne_true (hflags.1 hne)), hdrop, List.take_left]
    simp [lengthField, TlsEap.writeAt]

theorem layout_rest (buf data : Chunk) (flags : U8) :
    TlsEap.layout buf 0 data 0 flags = (data.length, data) := by
  simp [TlsEap.layout, TlsEap.writeAt]

section

variable {this this' : TlsEap σ}

theorem sends_fragment (h : this.Wf) (this' : TlsEap σ) {status : Status} {data : Chunk} {reclen buflen : ℕ}
    (hwrites : this.tls.Writes this'.tls status data reclen buflen) (hsame : this.Same this')
    (hversion : this'.supportedVersion = 0)
    (hfirst : this'.firstFragment = true ↔ this'.tls.output = []) (more : Bool) (total : Option ℕ)
    (htotal : ∀ n, total = some n → n = reclen ∧ this.tls.output = [])
    (hmore : this.tls.output = [] → this'.tls.output ≠ [] → more = true ∧ total = some reclen)
    (hbuflen : buflen + (lengthField total).length + eapTlsHeaderLen ≤ this.fragSize)
    (code identifier : U8) :
    this.Sends this' (eapTlsHeader code identifier
      (data.length + (lengthField total).length + eapTlsHeaderLen) this.type.number
      (fragmentFlags more total.isSome) ++ (lengthField total ++ data)) := by
  set packet := eapTlsHeader code identifier
    (data.length + (lengthField total).length + eapTlsHeaderLen) this.type.number
    (fragmentFlags more total.isSome) ++ (lengthField total ++ data) with hpacket
  have hdata := hwrites.length
  have hfrag := h.fragSize
  have hlength : packet.length = data.length + (lengthField total).length + eapTlsHeaderLen := by
    rw [hpacket, List.length_append, List.length_append, length_eapTlsHeader]
    omega
  have hfragment : IsFragment this.type packet data more total := by
    refine ⟨⟨code, identifier, ?_⟩, hwrites.ne_nil, by omega, fun n hn => ?_⟩
    · rw [hlength, hpacket]
    · obtain ⟨rfl, hnil⟩ := htotal n hn
      obtain ⟨hle, hmax, -⟩ := hwrites.first hnil
      exact ⟨hle, hmax⟩
  refine ⟨⟨?_, hversion, ?_, hfirst, hwrites.ready⟩, hsame, ?_, hwrites.processed, by omega,
    Or.inr ⟨data, more, total, hfragment, fun hnil hne => ?_⟩⟩
  · rw [hsame.type]
    exact h.type
  · rw [hsame.fragSize]
    exact hfrag
  · rw [hfragment.payload_eq]
    exact hwrites.built
  · obtain ⟨hmore, htotal⟩ := hmore hnil hne
    obtain ⟨-, -, heq⟩ := hwrites.first hnil
    exact ⟨hmore, htotal.trans (congrArg some (heq hne))⟩

theorem buildFlags_eq_none {status : Status} (hneed : status ≠ .needMore)
    (hdone : status ≠ .alreadyDone) (this : TlsEap σ) : this.buildFlags status = none := by
  cases status with
  | needMore => exact absurd rfl hneed
  | alreadyDone => exact absurd rfl hdone
  | _ => rfl

/-- **`build_pkt`** sends a fragment, or nothing. -/
theorem buildPkt_spec (uninit : ℕ → U8) (hstack : stack.Lawful) (h : this.Wf) :
    (∃ status this', this.buildPkt stack uninit = (status, this', none) ∧ status ≠ .needMore ∧
      this.Ends this' ∧ this'.Wf ∧ this.Same this' ∧ this'.tls.output = []) ∨
    ∃ this' packet, this.buildPkt stack uninit = (.needMore, this', some packet) ∧
      this.Sends this' packet := by
  obtain ⟨identifier, hadvance⟩ := advance_eq this
  obtain ⟨hmin, hmax⟩ := h.fragSize
  set buf := (List.range (this.fragSize - eapTlsHeaderLen)).map uninit with hbuf
  have hbuflen : buf.length = this.fragSize - eapTlsHeaderLen := by
    rw [hbuf, List.length_map, List.length_range]
  have hheader : eapTlsHeaderLen = 6 := rfl
  have hbuf4 : 4 ≤ buf.length := by omega
  have hoffset : 1 ≤ buf.length - if this.firstFragment = true then 4 else 0 := by
    split_ifs <;> omega
  unfold TlsEap.buildPkt
  simp only [hadvance, ← hbuf]
  obtain ⟨status, tls, hbuild, hneed, hdone, hbuilt, hprocessed, houtput, hempty, hzero⟩ |
      ⟨status, tls, data, reclen, hbuild, hwrites⟩ := build_spec hstack h.ready hoffset
  · left
    refine ⟨status, { this with identifier := identifier, tls := tls }, ?_, hneed,
      ⟨hbuilt, hprocessed⟩, ⟨h.type, h.version, h.fragSize, ?_, Or.inr ⟨hempty, hzero⟩⟩,
      ⟨rfl, rfl, rfl, rfl⟩, hempty⟩
    · rw [hbuild]
      simp only [buildFlags_eq_none hneed hdone]
    · exact iff_of_true (h.first.2 houtput) hempty
  · right
    have hpos : data.length ≠ 0 := fun hnil => hwrites.ne_nil (List.length_eq_zero_iff.1 hnil)
    rw [hbuild]
    by_cases hfirst : this.firstFragment = true
    · -- space for the length field is reserved
      have houtput : this.tls.output = [] := h.first.1 hfirst
      obtain ⟨hle, -, -⟩ := hwrites.first houtput
      have hreclen : reclen ≠ 0 := by omega
      simp only [hfirst, if_true] at hwrites ⊢
      rcases hwrites.status with ⟨rfl, hne⟩ | ⟨rfl, hnil⟩
      · -- the first fragment of many
        have hlayout := layout_eq hbuf4 data hreclen true true
        refine ⟨{ this with identifier := identifier, tls := tls, firstFragment := false }, _, ?_,
          sends_fragment h
            { this with identifier := identifier, tls := tls, firstFragment := false } hwrites
            ⟨rfl, rfl, rfl, rfl⟩ h.version (iff_of_false (by simp) hne) true (some reclen) ?_
            (fun _ _ => ⟨rfl, rfl⟩) ?_ this.code identifier⟩
        · have hflags : this.supportedVersion ||| flagMoreFrags ||| flagLength =
              fragmentFlags true true := by
            rw [h.version]
            rfl
          simp only [TlsEap.buildFlags, if_true, hflags, hlayout]
          rfl
        · rintro n hn
          exact ⟨(Option.some.inj hn).symm, houtput⟩
        · rw [length_lengthField]
          simp only [Option.isSome_some, if_true]
          omega
      · -- all of the flight
        have hlayout := layout_eq hbuf4 data hreclen false this.includeLength
        refine ⟨{ this with identifier := identifier, tls := tls, firstFragment := true }, _, ?_,
          sends_fragment h
            { this with identifier := identifier, tls := tls, firstFragment := true } hwrites
            ⟨rfl, rfl, rfl, rfl⟩ h.version (iff_of_true rfl hnil) false
            (if this.includeLength then some reclen else none) ?_ (fun _ hne => absurd hnil hne) ?_
            this.code identifier⟩
        · have hflags : (this.supportedVersion ||| if this.includeLength = true then flagLength
              else 0) = fragmentFlags false this.includeLength := by
            rw [h.version]
            cases this.includeLength <;> rfl
          have hsome : (if this.includeLength then some reclen else none).isSome =
              this.includeLength := by
            cases this.includeLength <;> rfl
          simp only [TlsEap.buildFlags, if_true, hflags, hlayout, hsome]
          rfl
        · rintro n hn
          cases hinclude : this.includeLength with
          | true =>
            rw [hinclude] at hn
            exact ⟨(Option.some.inj hn).symm, houtput⟩
          | false =>
            rw [hinclude] at hn
            cases hn
        · rw [length_lengthField]
          split_ifs <;> omega
    · have houtput : this.tls.output ≠ [] := fun hnil => hfirst (h.first.2 hnil)
      have hreclen : reclen = 0 := hwrites.rest houtput
      subst hreclen
      have hfalse : this.firstFragment = false := by simpa using hfirst
      simp only [hfalse, Bool.false_eq_true, if_false, Nat.sub_zero] at hwrites ⊢
      rcases hwrites.status with ⟨rfl, hne⟩ | ⟨rfl, hnil⟩
      · -- a further fragment
        refine ⟨{ this with identifier := identifier, tls := tls, firstFragment := false }, _, ?_,
          sends_fragment h
            { this with identifier := identifier, tls := tls, firstFragment := false } hwrites
            ⟨rfl, rfl, rfl, rfl⟩ h.version (iff_of_false (by simp) hne) true none (by simp)
            (fun hnil => absurd hnil houtput) ?_ this.code identifier⟩
        · have hflags : this.supportedVersion ||| flagMoreFrags = fragmentFlags true false := by
            rw [h.version]
            rfl
          simp only [TlsEap.buildFlags, Bool.false_eq_true, if_false, hflags, layout_rest]
          rfl
        · simp only [lengthField, List.length_nil]
          omega
      · -- the final fragment
        refine ⟨{ this with identifier := identifier, tls := tls, firstFragment := true }, _, ?_,
          sends_fragment h
            { this with identifier := identifier, tls := tls, firstFragment := true } hwrites
            ⟨rfl, rfl, rfl, rfl⟩ h.version (iff_of_true rfl hnil) false none (by simp)
            (fun hnil => absurd hnil houtput) ?_ this.code identifier⟩
        · have hflags : this.supportedVersion = fragmentFlags false false := h.version
          simp only [TlsEap.buildFlags, Bool.false_eq_true, if_false, ne_eq, h.type.1, h.type.2,
            not_false_eq_true, and_self, if_true, hflags, layout_rest]
          rfl
        · simp only [lengthField, List.length_nil]
          omega

end

/-! ## What a side gets -/

section

variable {this this' : TlsEap σ} {packet payload : Chunk} {more : Bool} {total : Option ℕ}

/-- **The end of `process`**: something is sent, or the exchange ends. -/
theorem respond_spec (uninit : ℕ → U8) (hstack : stack.Lawful) (h : this.Wf) :
    (∃ status this' out, this.respond stack uninit = (status, this', out) ∧ status ≠ .needMore ∧
      this.Ends this') ∨
    ∃ this' packet, this.respond stack uninit = (.needMore, this', some packet) ∧
      this.Sends this' packet := by
  have hack : ∀ this' : TlsEap σ, this.Ends this' → this'.Wf → this.Same this' →
      this'.tls.output = [] → this.Sends this'.createAck.1 this'.createAck.2 := by
    intro this' hends hwf hsame hempty
    obtain ⟨identifier, hadvance⟩ := advance_eq this'
    have hnoflags : (if this'.type = .tnc then 1 else 0 : U8) = 0 := if_neg hwf.type.1
    unfold TlsEap.createAck
    simp only [hadvance, hnoflags]
    have hpacket : packetPayload (emptyPacket this'.type this'.code identifier 0) = [] :=
      emptyPacket_payload _ _ _ (by decide)
    refine ⟨⟨hwf.type, hwf.version, hwf.fragSize, hwf.first, hwf.ready⟩, ⟨hsame.type,
      hsame.fragSize, hsame.maxMsgCount, hsame.processed⟩, ?_, hends.processed, ?_,
      Or.inl ⟨this'.code, identifier, ?_, hempty⟩⟩
    · refine hends.built.trans ?_
      change this.tls.built = this.tls.built ++
        packetPayload (emptyPacket this'.type this'.code identifier 0)
      rw [hpacket, List.append_nil]
    · have hmin := h.fragSize.1
      rw [length_eapTlsHeader]
      exact le_trans (by decide) hmin
    · rw [hsame.type]
      rfl
  unfold TlsEap.respond
  obtain ⟨status, this', hbuild, hneed, hends, hwf, hsame, hempty⟩ | ⟨this', packet, hbuild, hsends⟩ :=
    buildPkt_spec uninit hstack h
  · rw [hbuild]
    have hsent := hack this' hends hwf hsame hempty
    cases status with
    | needMore => exact absurd rfl hneed
    | invalidState => exact Or.inr ⟨_, _, rfl, hsent⟩
    | failed =>
      by_cases hserver : this'.isServer = true
      · simp only [hserver, Bool.not_true, Bool.false_eq_true, if_false]
        exact Or.inl ⟨_, _, _, rfl, hneed, hends⟩
      · have hpeer : this'.isServer = false := by simpa using hserver
        simp only [hpeer, Bool.not_false, if_true]
        exact Or.inr ⟨_, _, rfl, hsent⟩
    | _ => exact Or.inl ⟨_, _, _, rfl, hneed, hends⟩
  · rw [hbuild]
    exact Or.inr ⟨_, _, rfl, hsends⟩

/-- What arrives in an exchange: a packet without payload, or a fragment -/
def Sound (packet : Chunk) : Prop :=
  (∃ type code identifier flags, packet = emptyPacket type code identifier flags ∧
    (flags = 0 ∨ flags = flagStart)) ∨
  ∃ type payload more total, IsFragment type packet payload more total

theorem Sound.length (h : Sound packet) :
    eapTlsHeaderLen ≤ packet.length ∧ (untoh16 (packet.drop 2)).toNat = packet.length := by
  rcases h with ⟨type, code, identifier, flags, rfl, -⟩ | ⟨type, payload, more, total, hfragment⟩
  · have hlength : (emptyPacket type code identifier flags).length = eapTlsHeaderLen :=
      length_eapTlsHeader _ _ _ _ _
    have hlt : eapTlsHeaderLen < 2 ^ 16 := by decide
    have hfield := untoh16_header hlt code identifier type.number flags []
    rw [List.append_nil] at hfield
    exact ⟨hlength.ge, hlength.symm ▸ hfield⟩
  · refine ⟨?_, hfragment.lengthField_eq⟩
    rw [hfragment.length_eq, Nat.add_assoc]
    exact Nat.le_add_right _ _

/-- **`process_pkt`** passes the payload of a fragment to the TLS stack. -/
theorem processPkt_eq {type : EapTlsType} (h : this.Wf)
    (hfragment : IsFragment type packet payload more total) :
    this.processPkt stack packet =
      ((this.tls.process stack payload).1,
        { this with tls := (this.tls.process stack payload).2 }) := by
  have hflags := hfragment.flags
  have hversion := (fragmentFlags_start more total.isSome).2
  have hlengthFlag := fragmentFlags_length more total.isSome
  have hlength := hfragment.length_eq
  unfold TlsEap.processPkt
  simp only [hflags, hversion, h.version, hfragment.lengthField_eq, hfragment.body]
  rw [if_neg (fun hne => hne.2 rfl)]
  cases total with
  | none =>
    rw [if_neg (fun hne => Bool.false_ne_true (hlengthFlag.1 hne.2))]
    have hpayload : (lengthField none ++ payload).take (packet.length - eapTlsHeaderLen) =
        payload := by
      rw [lengthField, List.nil_append, hlength]
      exact List.take_of_length_le (by simp [lengthField])
    rw [hpayload]
  | some n =>
    obtain ⟨hle, hmax⟩ := hfragment.total n rfl
    have hfield : (lengthField (some n)).length = 4 := length_htoun32 _
    rw [hfield] at hlength
    have hn : (untoh32 (lengthField (some n) ++ payload)).toNat = n := by
      have hlt : n < 2 ^ 32 := lt_of_le_of_lt hmax (by decide)
      rw [lengthField, untoh32_htoun32_append, BitVec.toNat_ofNat, Nat.mod_eq_of_lt hlt]
    rw [if_pos ⟨h.type.2, hlengthFlag.2 rfl⟩, if_neg (by omega), hn, if_neg (by omega),
      List.drop_left' hfield]
    have hpayload : payload.take (packet.length - eapTlsHeaderLen - 4) = payload :=
      List.take_of_length_le (by omega)
    rw [hpayload]

theorem process_start (hmax : this.maxMsgCount = 0) (hpeer : this.isServer = false)
    (uninit : ℕ → U8) (type : EapTlsType) (code identifier : U8) :
    this.process stack uninit (emptyPacket type code identifier flagStart) =
      TlsEap.respond stack uninit { this with identifier := identifier } := by
  have hsound : Sound (emptyPacket type code identifier flagStart) :=
    Or.inl ⟨_, _, _, _, rfl, Or.inr rfl⟩
  obtain ⟨hle, hfield⟩ := hsound.length
  have hflags : packetFlags (emptyPacket type code identifier flagStart) = flagStart := rfl
  have hstart : flagStart &&& flagStart ≠ 0 := by decide
  have hidentifier : (emptyPacket type code identifier flagStart).getD 1 0 = identifier := rfl
  unfold TlsEap.process
  simp only [if_neg (not_not.2 hmax), hpeer, Bool.not_false, if_true, hflags, hidentifier]
  rw [if_neg (fun hne => hne.1 hmax), if_neg (by omega), if_pos (Or.inr hstart)]

theorem processPkt_long {this : TlsEap σ} (h : this.Wf) {payload : Chunk} {n : ℕ}
    (hlong : maxMessageLen < n) (hn : n < 2 ^ 32) (hlength : payload.length + 10 < 2 ^ 16)
    (code identifier : U8) (type : EapTlsType) (more : Bool) :
    this.processPkt stack (eapTlsHeader code identifier (payload.length + 10) type.number
      (fragmentFlags more true) ++ (htoun32 (BitVec.ofNat 32 n) ++ payload)) = (.failed, this) := by
  have hversion := (fragmentFlags_start more true).2
  unfold TlsEap.processPkt
  simp only [packetFlags_header, hversion, h.version, drop_header, untoh32_htoun32_append,
    BitVec.toNat_ofNat, Nat.mod_eq_of_lt hn]
  rw [if_neg (fun hne => hne.2 rfl), untoh16_header hlength,
    if_pos ⟨h.type.2, (fragmentFlags_length more true).2 rfl⟩]
  have hheader : eapTlsHeaderLen = 6 := rfl
  rw [if_neg (by omega), if_pos (Or.inr hlong)]

theorem process_long {this : TlsEap σ} (h : this.Wf) (hmax : this.maxMsgCount = 0)
    (hserver : this.isServer = true) (uninit : ℕ → U8) {payload : Chunk} {n : ℕ}
    (hne : payload ≠ []) (hlong : maxMessageLen < n) (hn : n < 2 ^ 32)
    (hlength : payload.length + 10 < 2 ^ 16) (code identifier : U8) (type : EapTlsType) (more : Bool) :
    this.process stack uninit (eapTlsHeader code identifier (payload.length + 10) type.number
      (fragmentFlags more true) ++ (htoun32 (BitVec.ofNat 32 n) ++ payload)) =
        (.failed, this, none) := by
  have hstart := (fragmentFlags_start more true).1
  have hpos := List.length_pos_iff.2 hne
  have hheader : eapTlsHeaderLen = 6 := rfl
  have hpacket : (eapTlsHeader code identifier (payload.length + 10) type.number
      (fragmentFlags more true) ++ (htoun32 (BitVec.ofNat 32 n) ++ payload)).length =
        payload.length + 10 := by
    rw [List.length_append, List.length_append, length_eapTlsHeader, length_htoun32]
    omega
  have hlimit : ¬(this.maxMsgCount ≠ 0 ∧ this.processed > this.maxMsgCount) :=
    fun hne => hne.1 hmax
  have hno : ¬((this.type = .ptEap ∧ fragmentFlags more true &&& flagPtStart ≠ 0) ∨
      fragmentFlags more true &&& flagStart ≠ 0) := by
    rintro (hpt | hne)
    · exact h.type.2 hpt.1
    · exact hne hstart
  unfold TlsEap.process
  simp only [if_neg (not_not.2 hmax), hserver, Bool.not_true, Bool.false_eq_true, if_false,
    packetFlags_header, processPkt_long h hlong hn hlength]
  rw [if_neg hlimit, untoh16_header hlength, hpacket, if_neg (by omega), if_neg hno,
    if_neg (by omega)]

/-- **What is received**: the TLS stack gets the payload. -/
structure TlsEap.Receives (this that : TlsEap σ) (packet : Chunk) : Prop where
  wf : that.Wf
  type : that.type = this.type
  fragSize : that.fragSize = this.fragSize
  maxMsgCount : that.maxMsgCount = this.maxMsgCount
  output : that.tls.output = this.tls.output
  built : that.tls.built = this.tls.built
  processed : that.tls.processed = this.tls.processed ++ packetPayload packet

/-- **`process`** passes on what arrives, and sends something or ends the exchange. -/
theorem process_spec (uninit : ℕ → U8) (hstack : stack.Lawful) (h : this.Wf)
    (hlimit : this.maxMsgCount = 0 ∨ this.processed < this.maxMsgCount) (hsound : Sound packet) :
    ∃ that, this.Receives that packet ∧
      ((∃ status this' out, this.process stack uninit packet = (status, this', out) ∧
        status ≠ .needMore ∧ that.Ends this') ∨
      ∃ this' out, this.process stack uninit packet = (.needMore, this', some out) ∧
        that.Sends this' out) := by
  obtain ⟨hle, hfield⟩ := hsound.length
  unfold TlsEap.process
  obtain ⟨count, hcount, hlimit⟩ : ∃ count,
      (if this.maxMsgCount ≠ 0 then { this with processed := this.processed + 1 } else this) =
        { this with processed := count } ∧
      ¬(this.maxMsgCount ≠ 0 ∧ count > this.maxMsgCount) := by
    by_cases hzero : this.maxMsgCount = 0
    · exact ⟨this.processed, if_neg (not_not.2 hzero), fun hne => hne.1 hzero⟩
    · refine ⟨this.processed + 1, if_pos hzero, ?_⟩
      omega
  simp only [hcount]
  rw [if_neg hlimit, if_neg (by omega)]
  obtain ⟨identifier, hidentifier⟩ : ∃ identifier,
      (if (!this.isServer) = true then
        { this with processed := count, identifier := packet.getD 1 0 }
      else { this with processed := count }) =
        { this with processed := count, identifier := identifier } := by
    split_ifs
    · exact ⟨_, rfl⟩
    · exact ⟨this.identifier, rfl⟩
  simp only [hidentifier]
  set that : TlsEap σ := { this with processed := count, identifier := identifier } with hthat
  have hwf : that.Wf := ⟨h.type, h.version, h.fragSize, h.first, h.ready⟩
  have hempty (hnil : packetPayload packet = []) : this.Receives that packet :=
    ⟨hwf, rfl, rfl, rfl, rfl, rfl, by rw [hnil, List.append_nil]⟩
  have htype : ¬(this.type = .ptEap ∧ packetFlags packet &&& flagPtStart ≠ 0) :=
    fun hpt => h.type.2 hpt.1
  rcases hsound with ⟨type, code, pid, flags, hpacket, hflags⟩ |
      ⟨type, payload, more, total, hfragment⟩
  · have hpflags : packetFlags packet = flags := hpacket ▸ rfl
    rw [hpflags] at htype ⊢
    rcases hflags with rfl | rfl
    · -- an acknowledgement
      have hnil : packetPayload packet = [] := by
        rw [hpacket]
        exact emptyPacket_payload _ _ _ (by decide)
      have hlength : packet.length = eapTlsHeaderLen := by
        rw [hpacket]
        exact length_eapTlsHeader _ _ _ _ _
      rw [if_neg (by simp), if_pos hlength]
      refine ⟨that, hempty hnil, ?_⟩
      obtain ⟨status, this', hbuild, hneed, hends, -⟩ | ⟨this', out, hbuild, hsends⟩ :=
        buildPkt_spec uninit hstack hwf
      · left
        rw [hbuild]
        cases status with
        | needMore => exact absurd rfl hneed
        | invalidState =>
          dsimp only
          split_ifs
          · exact ⟨_, _, _, rfl, by decide, hends⟩
          · exact ⟨_, _, _, rfl, by decide, hends⟩
        | _ => exact ⟨_, _, _, rfl, hneed, hends⟩
      · right
        rw [hbuild]
        exact ⟨this', out, rfl, hsends⟩
    · -- the start
      have hnil : packetPayload packet = [] := by
        rw [hpacket]
        exact emptyPacket_payload _ _ _ (by decide)
      rw [if_pos (Or.inr (by decide))]
      exact ⟨that, hempty hnil, respond_spec uninit hstack hwf⟩
  · -- a fragment
    have hstart := (fragmentFlags_start more total.isSome).1
    have hne : packet.length ≠ eapTlsHeaderLen := by
      rw [hfragment.length_eq]
      have hpos := List.length_pos_iff.2 hfragment.ne_nil
      omega
    rw [hfragment.flags] at htype ⊢
    rw [if_neg (by simp only [hstart, ne_eq, not_true_eq_false, or_false]; exact htype), if_neg hne,
      processPkt_eq hwf hfragment]
    set tls := (that.tls.process stack payload).2 with htls
    have hreceives : this.Receives { that with tls := tls } packet := by
      refine ⟨⟨h.type, h.version, h.fragSize, h.first, h.ready⟩, rfl, rfl, rfl, rfl, rfl, ?_⟩
      rw [hfragment.payload_eq]
      rfl
    refine ⟨{ that with tls := tls }, hreceives, ?_⟩
    cases (that.tls.process stack payload).1 with
    | needMore => exact respond_spec uninit hstack hreceives.wf
    | success =>
      left
      refine ⟨_, _, _, rfl, ?_, ⟨rfl, rfl⟩⟩
      split_ifs <;> decide
    | _ => exact Or.inl ⟨_, _, _, rfl, by decide, ⟨rfl, rfl⟩⟩

end

end Tls

end StrongSwan
