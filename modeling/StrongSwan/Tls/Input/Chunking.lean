import StrongSwan.Tls.Input

/-!
# TLS records in any pieces

* `stateOf`: the state after some bytes of a record that is not full, from these bytes alone.
* `processInline_spec`, `processLoop_idle`, `processLoop_waiting`: what the loops pass on.
* `process_spec`, `processAll_spec`: what calls pass on, and which bytes wait for more.
* **`passes_iff`**: all records are passed on, unless the last one is empty and its header is cut.
-/

namespace StrongSwan

namespace Tls

open TlsRecord

/-! ## Records at the start of some bytes -/

section Bytes

variable (record : TlsRecord) (xs : Chunk)

@[simp] theorem TlsRecord.length_bytes : record.bytes.length = record.data.length + 5 := by
  simp [TlsRecord.bytes]
  omega

theorem stream_cons (records : List TlsRecord) :
    stream (record :: records) = record.bytes ++ stream records := List.flatMap_cons

theorem stream_append (records records' : List TlsRecord) :
    stream (records ++ records') = stream records ++ stream records' := List.flatMap_append

theorem recordLength_append {head : Chunk} (h : 5 ≤ head.length) :
    recordLength (head ++ xs) = recordLength head := by
  rw [recordLength, recordLength, List.drop_append_of_le_length (by omega), untoh16, untoh16,
    List.take_append_of_le_length (by simp; omega)]

theorem recordLength_bytes : recordLength (record.bytes ++ xs) = record.data.length := by
  have hle := record.length_data
  have hdrop : (record.bytes ++ xs).drop 3 =
      htoun16 (BitVec.ofNat 16 record.data.length) ++ (record.data ++ xs) := by
    simp [TlsRecord.bytes, htoun16_eq]
  rw [recordLength, hdrop, untoh16_htoun16_append, BitVec.toNat_ofNat, Nat.mod_eq_of_lt (by omega)]

theorem head_bytes : (record.bytes ++ xs).headD 0 = record.type := rfl

theorem data_bytes : ((record.bytes ++ xs).drop 5).take record.data.length = record.data := by
  have hdrop : (record.bytes ++ xs).drop 5 = record.data ++ xs := by
    simp [TlsRecord.bytes, htoun16_eq]
  rw [hdrop, List.take_left]

theorem drop_bytes : (record.bytes ++ xs).drop (record.data.length + 5) = xs := by
  rw [← record.length_bytes, List.drop_left]

end Bytes

variable {records : List TlsRecord}

theorem recordLength_of_stream {buf rest : Chunk} {record : TlsRecord}
    (h : buf ++ rest = stream (record :: records)) (hle : 5 ≤ buf.length) :
    recordLength buf = record.data.length := by
  rw [← recordLength_append rest hle, h, stream_cons, recordLength_bytes]

theorem eq_append_of_stream {buf rest : Chunk} {record : TlsRecord}
    (h : buf ++ rest = stream (record :: records)) (hle : record.bytes.length ≤ buf.length) :
    ∃ left, buf = record.bytes ++ left ∧ left ++ rest = stream records := by
  rw [stream_cons] at h
  have hstream : record.bytes <+: buf ++ rest := h ▸ List.prefix_append _ _
  obtain ⟨left, rfl⟩ := List.prefix_of_prefix_length_le hstream (List.prefix_append _ _) hle
  refine ⟨left, rfl, ?_⟩
  rw [List.append_assoc] at h
  exact List.append_cancel_left h

theorem exists_cons_of_stream {buf rest : Chunk}
    (h : buf ++ rest = stream records) (hne : buf ≠ []) :
    ∃ record records', records = record :: records' := by
  cases records with
  | nil =>
    have hnil : buf = [] := (List.append_eq_nil_iff.1 h).1
    exact absurd hnil hne
  | cons record records' => exact ⟨record, records', rfl⟩

namespace TlsInput

/-! ## Waiting for more bytes -/

/-- Some bytes of a record that is not full -/
def Proper (p : Chunk) : Prop := p.length < 5 ∨ p.length < recordLength p + 5

/-- The header of an empty record -/
def Full (p : Chunk) : Prop := p.length = 5 ∧ recordLength p = 0

/-- The state after some bytes of a record -/
def stateOf (p : Chunk) : TlsInput :=
  if p.length < 5 then { head := p } else { inputLen := recordLength p + 5, input := p }

variable {σ : Type} (protect : σ → U8 → Chunk → Status × σ)

/-- What some bytes of a stream lead to: a record that gives a result, or bytes that wait for more. -/
inductive Outcome (records : List TlsRecord) (bytes : Chunk) (log : Log σ) (waits : Chunk → Prop) :
    Status × TlsInput × Log σ → Prop
  | result (done left : List TlsRecord) (status : Status) (this : TlsInput) (log' : Log σ)
      (split : records = done ++ left) (enough : stream done <+: bytes)
      (passed : passes protect log done = (status, log')) (more : status ≠ .needMore) :
      Outcome records bytes log waits (status, this, log')
  | more (done left : List TlsRecord) (p : Chunk) (log' : Log σ)
      (split : records = done ++ left) (enough : bytes = stream done ++ p)
      (passed : passes protect log done = (.needMore, log')) (waiting : waits p) :
      Outcome records bytes log waits (.needMore, stateOf p, log')

variable {protect}

section Passing

variable {log : Log σ} {record : TlsRecord} {records : List TlsRecord}

theorem passes_cons_needMore (h : (pass protect log record.type record.data).1 = .needMore) :
    passes protect log (record :: records) =
      passes protect (pass protect log record.type record.data).2 records := by
  rw [passes]
  generalize pass protect log record.type record.data = result at h ⊢
  obtain ⟨status, log'⟩ := result
  cases h
  rfl

theorem passes_cons_result (h : (pass protect log record.type record.data).1 ≠ .needMore) :
    passes protect log (record :: records) = pass protect log record.type record.data := by
  rw [passes]
  generalize pass protect log record.type record.data = result at h ⊢
  obtain ⟨status, log'⟩ := result
  cases status with
  | needMore => exact absurd rfl h
  | _ => rfl

theorem passes_append_needMore {log' : Log σ} {done : List TlsRecord}
    (h : passes protect log done = (.needMore, log')) (left : List TlsRecord) :
    passes protect log (done ++ left) = passes protect log' left := by
  induction done generalizing log with
  | nil =>
    cases h
    rfl
  | cons record done ih =>
    by_cases hmore : (pass protect log record.type record.data).1 = .needMore
    · rw [passes_cons_needMore hmore] at h
      rw [List.cons_append, passes_cons_needMore hmore, ih h]
    · rw [passes_cons_result hmore] at h
      exact absurd (congrArg Prod.fst h) hmore

theorem passes_append_result {log' : Log σ} {status : Status} {done : List TlsRecord}
    (h : passes protect log done = (status, log')) (hstatus : status ≠ .needMore)
    (left : List TlsRecord) : passes protect log (done ++ left) = (status, log') := by
  induction done generalizing log with
  | nil => exact absurd (congrArg Prod.fst h).symm hstatus
  | cons record done ih =>
    by_cases hmore : (pass protect log record.type record.data).1 = .needMore
    · rw [passes_cons_needMore hmore] at h
      rw [List.cons_append, passes_cons_needMore hmore, ih h]
    · rw [passes_cons_result hmore] at h
      rw [List.cons_append, passes_cons_result hmore, h]

variable {bytes : Chunk} {waits : Chunk → Prop} {result : Status × TlsInput × Log σ}

theorem Outcome.cons (hmore : (pass protect log record.type record.data).1 = .needMore)
    (h : Outcome protect records bytes (pass protect log record.type record.data).2 waits result) :
    Outcome protect (record :: records) (record.bytes ++ bytes) log waits result := by
  cases h with
  | result done left status this log' split enough passed more =>
    refine .result (record :: done) left status this log' (by rw [split, List.cons_append]) ?_
      (by rw [passes_cons_needMore hmore, passed]) more
    rw [stream_cons]
    exact (List.prefix_append_right_inj _).2 enough
  | more done left p log' split enough passed waiting =>
    exact .more (record :: done) left p log' (by rw [split, List.cons_append])
      (by rw [stream_cons, enough, List.append_assoc]) (by rw [passes_cons_needMore hmore, passed])
      waiting

theorem Outcome.first (hresult : (pass protect log record.type record.data).1 ≠ .needMore)
    (this : TlsInput) :
    Outcome protect (record :: records) (record.bytes ++ bytes) log waits
      ((pass protect log record.type record.data).1, this,
        (pass protect log record.type record.data).2) := by
  refine .result [record] records _ this _ rfl ?_ (passes_cons_result hresult) hresult
  rw [stream_cons]
  exact (List.prefix_append_right_inj _).2 List.nil_prefix

end Passing

/-! ## The loops -/

section Loops

variable {records : List TlsRecord} {buf rest : Chunk}

/-- What the inline loop leads to: a result, nothing left, or the start of a record. -/
inductive InlineOutcome (protect : σ → U8 → Chunk → Status × σ) (records : List TlsRecord)
    (buf : Chunk) (log : Log σ) : Option Status × ℕ × Log σ × Chunk → Prop
  | result (done left : List TlsRecord) (status : Status) (log' : Log σ)
      (split : records = done ++ left) (enough : stream done <+: buf)
      (passed : passes protect log done = (status, log')) (more : status ≠ .needMore) :
      InlineOutcome protect records buf log (some status, 0, log', [])
  | all (done left : List TlsRecord) (log' : Log σ) (split : records = done ++ left)
      (enough : buf = stream done) (passed : passes protect log done = (.needMore, log')) :
      InlineOutcome protect records buf log (some .needMore, 0, log', [])
  | start (done left : List TlsRecord) (p : Chunk) (inputLen : ℕ) (log' : Log σ)
      (split : records = done ++ left) (enough : buf = stream done ++ p)
      (passed : passes protect log done = (.needMore, log'))
      (short : p.length < 5 ∧ inputLen = 0 ∨
        5 ≤ p.length ∧ inputLen = recordLength p + 5 ∧ p.length < inputLen) :
      InlineOutcome protect records buf log (none, inputLen, log', p)

variable {record : TlsRecord}

theorem InlineOutcome.cons {log : Log σ}
    {result : Option Status × ℕ × Log σ × Chunk}
    (hmore : (pass protect log record.type record.data).1 = .needMore)
    (h : InlineOutcome protect records buf (pass protect log record.type record.data).2 result) :
    InlineOutcome protect (record :: records) (record.bytes ++ buf) log result := by
  cases h with
  | result done left status log' split enough passed more =>
    refine .result (record :: done) left status log' (by rw [split, List.cons_append]) ?_
      (by rw [passes_cons_needMore hmore, passed]) more
    rw [stream_cons]
    exact (List.prefix_append_right_inj _).2 enough
  | all done left log' split enough passed =>
    exact .all (record :: done) left log' (by rw [split, List.cons_append])
      (by rw [stream_cons, enough]) (by rw [passes_cons_needMore hmore, passed])
  | start done left p inputLen log' split enough passed short =>
    exact .start (record :: done) left p inputLen log' (by rw [split, List.cons_append])
      (by rw [stream_cons, enough, List.append_assoc]) (by rw [passes_cons_needMore hmore, passed])
      short

/-- **The inline loop** passes full records. -/
theorem processInline_spec (h : buf ++ rest = stream records) (hne : buf ≠ []) {fuel : ℕ}
    (hfuel : buf.length ≤ fuel) (log : Log σ) :
    InlineOutcome protect records buf log (processInline protect fuel log buf) := by
  induction fuel generalizing buf records log with
  | zero => exact absurd (List.length_eq_zero_iff.1 (Nat.le_zero.1 hfuel)) hne
  | succ fuel ih =>
    unfold processInline
    by_cases hhead : buf.length ≥ recordHeaderLen
    · rw [if_pos hhead]
      obtain ⟨record, records, rfl⟩ := exists_cons_of_stream h hne
      have hlength := recordLength_of_stream h hhead
      dsimp only
      rw [hlength]
      by_cases hshort : record.data.length + recordHeaderLen > buf.length
      · rw [if_pos hshort]
        refine .start [] _ buf _ log rfl rfl rfl (.inr ⟨hhead, ?_, hshort⟩)
        rw [hlength]
        rfl
      · rw [if_neg hshort]
        obtain ⟨left, rfl, hleft⟩ := eq_append_of_stream h
          (by rw [TlsRecord.length_bytes]; exact not_lt.1 hshort)
        rw [head_bytes, show recordHeaderLen = 5 from rfl, data_bytes, drop_bytes]
        by_cases hmore : (pass protect log record.type record.data).1 = .needMore
        · rw [if_neg (not_not.2 hmore)]
          by_cases hnil : left = []
          · rw [if_pos hnil, hnil]
            exact .all [record] records _ rfl (by simp [stream])
              (by rw [passes_cons_needMore hmore]; rfl)
          · rw [if_neg hnil]
            refine .cons hmore (ih hleft hnil ?_ _)
            rw [List.length_append, TlsRecord.length_bytes] at hfuel
            omega
        · rw [if_pos hmore]
          refine .result [record] records _ _ rfl ?_ (passes_cons_result hmore) hmore
          simp [stream]
    · rw [if_neg hhead]
      exact .start [] _ buf 0 log rfl rfl rfl (.inl ⟨not_le.1 hhead, rfl⟩)

variable {next : TlsInput → Log σ → Chunk → Status × TlsInput × Log σ}

theorem processBody_full {input left : Chunk}
    (hbytes : input ++ buf = record.bytes ++ left)
    (hle : input.length ≤ record.bytes.length) (log : Log σ) :
    processBody protect next { inputLen := record.bytes.length, input := input } log buf =
      if (pass protect log record.type record.data).1 ≠ .needMore then
        ((pass protect log record.type record.data).1, {},
          (pass protect log record.type record.data).2)
      else next {} (pass protect log record.type record.data).2 left := by
  have hstart : record.bytes <+: input ++ buf := hbytes ▸ List.prefix_append _ _
  obtain ⟨taken, htaken⟩ : ∃ taken, record.bytes = input ++ taken :=
    (List.prefix_of_prefix_length_le (List.prefix_append _ _) hstart hle).imp fun _ h => h.symm
  have hbuf : buf = taken ++ left := by
    rw [htaken, List.append_assoc] at hbytes
    exact List.append_cancel_left hbytes
  have hlength : record.bytes.length - input.length = taken.length := by
    rw [htaken, List.length_append]
    omega
  have hmin : min buf.length (record.bytes.length - input.length) = taken.length := by
    rw [hlength, hbuf, List.length_append]
    omega
  have htake : input ++ buf.take taken.length = record.bytes := by
    rw [hbuf, List.take_left, htaken]
  have hdrop : buf.drop taken.length = left := by rw [hbuf, List.drop_left]
  have hhead := head_bytes record []
  have hrecord := recordLength_bytes record []
  have hdata := data_bytes record []
  rw [List.append_nil] at hhead hrecord hdata
  unfold processBody
  simp only [hmin, htake, hdrop, if_true, hhead, hrecord, show recordHeaderLen = 5 from rfl, hdata]

theorem processBody_short {input : Chunk}
    (hlt : input.length + buf.length < record.bytes.length) (log : Log σ) :
    processBody protect next { inputLen := record.bytes.length, input := input } log buf =
      next { inputLen := record.bytes.length, input := input ++ buf } log [] := by
  have hmin : min buf.length (record.bytes.length - input.length) = buf.length := by omega
  unfold processBody
  simp only [hmin, List.take_length, List.drop_length, List.length_append]
  rw [if_neg (by omega)]

@[simp] theorem processLoop_nil (fuel : ℕ) (this : TlsInput) (log : Log σ) :
    processLoop protect fuel this log [] = (.needMore, this, log) := by
  cases fuel with
  | zero => rfl
  | succ fuel => rw [processLoop, if_pos rfl]

theorem stateOf_short {p : Chunk} (h : p.length < 5) : stateOf p = { head := p } := if_pos h

theorem stateOf_long {p : Chunk} (h : 5 ≤ p.length) :
    stateOf p = { inputLen := recordLength p + 5, input := p } := if_neg (not_lt.2 h)

/-- **The loop**, if nothing waits -/
theorem processLoop_idle (h : buf ++ rest = stream records) {fuel : ℕ}
    (hfuel : buf.length + 1 ≤ fuel) (log : Log σ) :
    Outcome protect records buf log Proper (processLoop protect fuel {} log buf) := by
  obtain ⟨fuel, rfl⟩ := Nat.exists_eq_add_of_le' (Nat.le_trans (Nat.le_add_left 1 _) hfuel)
  unfold processLoop
  by_cases hne : buf = []
  · subst hne
    rw [if_pos rfl]
    exact .more [] records [] log rfl rfl rfl (.inl (by simp))
  rw [if_neg hne, if_pos rfl]
  have hinline : InlineOutcome protect records buf log _ :=
    processInline_spec h hne (le_refl buf.length) log
  generalize processInline protect buf.length log buf = result at hinline
  cases hinline with
  | result done left status log' split enough passed more =>
    exact .result done left status _ log' split enough passed more
  | all done left log' split enough passed =>
    exact .more done left [] log' split (by rw [enough, List.append_nil]) passed
      (.inl (by simp))
  | start done left p inputLen log' split enough passed short =>
    dsimp only
    rcases short with ⟨hlt, rfl⟩ | ⟨hge, rfl, hlt⟩
    · have hlt' : p.length < recordHeaderLen := hlt
      rw [if_pos hlt', ← stateOf_short hlt]
      exact .more done left p log' split enough passed (.inl hlt)
    · have hge' : ¬p.length < recordHeaderLen := not_lt.2 hge
      have hleft : p ++ rest = stream left := by
        rw [enough, split, stream_append, List.append_assoc] at h
        exact List.append_cancel_left h
      have hp : p ≠ [] := List.ne_nil_of_length_pos (by omega)
      obtain ⟨record, left, rfl⟩ := exists_cons_of_stream hleft hp
      have hlength : recordLength p + 5 = record.bytes.length := by
        rw [recordLength_of_stream hleft hge, TlsRecord.length_bytes]
      have hshort : ([] : Chunk).length + p.length < record.bytes.length := by
        rw [← hlength]
        simpa using hlt
      have hbody : processBody protect (processLoop protect fuel)
          { inputLen := record.bytes.length, input := [] } log' p =
          processLoop protect fuel { inputLen := record.bytes.length, input := [] ++ p } log' [] :=
        processBody_short hshort log'
      rw [if_neg hge', hlength, hbody, processLoop_nil, List.nil_append, ← hlength,
        ← stateOf_long hge]
      exact .more done _ p log' split enough passed (.inr hlt)

/-- **The loop**, if a record waits -/
theorem processLoop_waiting {p : Chunk} (h : p ++ buf ++ rest = stream records) (hp : 5 ≤ p.length)
    (hwaits : Proper p ∨ Full p) (hne : buf ≠ []) {fuel : ℕ} (hfuel : buf.length + 2 ≤ fuel)
    (log : Log σ) :
    Outcome protect records (p ++ buf) log Proper
      (processLoop protect fuel (stateOf p) log buf) := by
  obtain ⟨fuel, rfl⟩ := Nat.exists_eq_add_of_le' (Nat.le_trans (Nat.le_add_left 1 _) hfuel)
  have hpne : p ++ buf ≠ [] := fun hnil => hne (List.append_eq_nil_iff.1 hnil).2
  obtain ⟨record, records, rfl⟩ := exists_cons_of_stream h hpne
  have hlength : recordLength p + 5 = record.bytes.length := by
    rw [List.append_assoc] at h
    rw [recordLength_of_stream h hp, TlsRecord.length_bytes]
  have hle : p.length ≤ record.bytes.length := by
    rw [← hlength]
    rcases hwaits with (hlt | hlt) | ⟨hfive, -⟩ <;> omega
  unfold processLoop
  rw [if_neg hne, stateOf_long hp, if_neg (Nat.succ_ne_zero _), hlength]
  by_cases hfull : record.bytes.length ≤ (p ++ buf).length
  · obtain ⟨left, hbytes, hleft⟩ := eq_append_of_stream h hfull
    rw [processBody_full hbytes hle, hbytes]
    by_cases hmore : (pass protect log record.type record.data).1 = .needMore
    · rw [if_neg (not_not.2 hmore)]
      refine .cons hmore (processLoop_idle hleft ?_ _)
      have hsum := congrArg List.length hbytes
      rw [List.length_append, List.length_append] at hsum
      omega
    · rw [if_pos hmore]
      exact .first hmore {}
  · rw [List.length_append, not_le] at hfull
    have hge : 5 ≤ (p ++ buf).length := by
      rw [List.length_append]
      omega
    have hsame : recordLength (p ++ buf) + 5 = record.bytes.length := by
      rw [recordLength_append buf hp, hlength]
    rw [processBody_short hfull, processLoop_nil, ← hsame, ← stateOf_long hge]
    refine .more [] _ (p ++ buf) log rfl rfl rfl (.inr ?_)
    rw [hsame, List.length_append]
    exact hfull

end Loops

/-! ## Calls -/

section Calls

variable {records : List TlsRecord} {p buf rest : Chunk}

/-- What may wait after a call: the header of an empty record only if it was cut. -/
def Waits (buf p : Chunk) : Prop := Proper p ∨ Full p ∧ buf.length < 5

theorem Outcome.mono {bytes : Chunk} {log : Log σ} {waits waits' : Chunk → Prop}
    {result : Status × TlsInput × Log σ} (h : Outcome protect records bytes log waits result)
    (himp : ∀ p, waits p → waits' p) : Outcome protect records bytes log waits' result := by
  cases h with
  | result done left status this log' split enough passed more =>
    exact .result done left status this log' split enough passed more
  | more done left p log' split enough passed waiting =>
    exact .more done left p log' split enough passed (himp p waiting)

/-- **A call** passes full records. -/
theorem process_spec (h : p ++ buf ++ rest = stream records) (hwaits : Proper p ∨ Full p)
    (hne : buf ≠ []) (log : Log σ) :
    Outcome protect records (p ++ buf) log (Waits buf) (process protect (stateOf p) log buf) := by
  have hpos : 0 < buf.length := List.length_pos_iff.2 hne
  unfold process
  by_cases hlong : 5 ≤ p.length
  · -- a record is in the buffer
    have hcomplete : (stateOf p).completeHeader buf = (stateOf p, buf) := by
      rw [stateOf_long hlong]
      rfl
    rw [hcomplete]
    exact (processLoop_waiting h hlong hwaits hne le_rfl log).mono fun _ => .inl
  rw [not_le] at hlong
  rw [stateOf_short hlong]
  by_cases hnil : p = []
  · -- nothing waits
    subst hnil
    have hcomplete : TlsInput.completeHeader { head := [] } buf = ({}, buf) := rfl
    rw [hcomplete]
    exact (processLoop_idle h (Nat.le_succ _) log).mono fun _ => .inl
  have hp : p.length ≠ 0 := fun hzero => hnil (List.length_eq_zero_iff.1 hzero)
  unfold completeHeader
  rw [if_pos hp]
  by_cases hshort : p.length + buf.length < 5
  · -- the header is not complete
    have hmin : min buf.length (recordHeaderLen - p.length) = buf.length := by
      simp only [recordHeaderLen]
      omega
    have hlength : (p ++ buf).length < 5 := by rwa [List.length_append]
    have hne' : ¬(p ++ buf).length = recordHeaderLen := Nat.ne_of_lt hlength
    simp only [hmin, List.take_length, List.drop_length, if_neg hne', processLoop_nil]
    rw [← stateOf_short hlength]
    exact .more [] records (p ++ buf) log rfl rfl rfl (.inl (.inl hlength))
  · have hmin : min buf.length (recordHeaderLen - p.length) = 5 - p.length := by
      simp only [recordHeaderLen]
      omega
    set taken := buf.take (5 - p.length) with htaken
    have hbuf : buf = taken ++ buf.drop (5 - p.length) := (List.take_append_drop _ _).symm
    have hfive : (p ++ taken).length = 5 := by
      rw [List.length_append, htaken, List.length_take]
      omega
    have hhead : (p ++ taken).length = recordHeaderLen := hfive
    simp only [hmin]
    rw [← htaken, if_pos hhead, show recordHeaderLen = 5 from rfl, ← stateOf_long hfive.ge]
    have hwaits' : Proper (p ++ taken) ∨ Full (p ++ taken) := by
      by_cases hzero : recordLength (p ++ taken) = 0
      · exact .inr ⟨hfive, hzero⟩
      · exact .inl (.inr (by omega))
    have hsplit : p ++ buf = p ++ taken ++ buf.drop (5 - p.length) := by
      rw [List.append_assoc, ← hbuf]
    by_cases hrest : buf.drop (5 - p.length) = []
    · -- the call ends with the header
      rw [hrest, processLoop_nil, hsplit, hrest, List.append_nil]
      have hlt : buf.length < 5 := by
        have hle := List.drop_eq_nil_iff.1 hrest
        omega
      exact .more [] records _ log rfl rfl rfl (hwaits'.imp_right fun hfull => ⟨hfull, hlt⟩)
    · rw [hsplit] at h ⊢
      exact (processLoop_waiting h hfive.ge hwaits' hrest le_rfl log).mono fun _ => .inl

theorem process_nil (p : Chunk) (log : Log σ) :
    process protect (stateOf p) log [] = (.needMore, stateOf p, log) := by
  unfold process completeHeader
  by_cases hlong : 5 ≤ p.length
  · rw [stateOf_long hlong]
    rfl
  · rw [not_le] at hlong
    rw [stateOf_short hlong]
    by_cases hnil : p.length = 0
    · simp [hnil]
    · have hne : ¬p.length = recordHeaderLen := Nat.ne_of_lt hlong
      simp [hnil, hne]

end Calls

/-! ## All calls -/

/-- The length of the last call with some bytes -/
def lastLen (last : ℕ) (bufs : List Chunk) : ℕ :=
  bufs.foldl (fun last buf => if buf = [] then last else buf.length) last

section All

variable {records : List TlsRecord} {p rest : Chunk} {bufs : List Chunk}

theorem Outcome.after {bytes bytes' : Chunk} {log log' : Log σ} {waits : Chunk → Prop}
    {done : List TlsRecord} {result : Status × TlsInput × Log σ}
    (passed : passes protect log done = (.needMore, log')) (hbytes : bytes = stream done ++ bytes')
    (h : Outcome protect records bytes' log' waits result) :
    Outcome protect (done ++ records) bytes log waits result := by
  subst hbytes
  cases h with
  | result done' left status this log' split enough passed' more =>
    refine .result (done ++ done') left status this log' (by rw [split, List.append_assoc]) ?_
      (by rw [passes_append_needMore passed, passed']) more
    rw [stream_append]
    exact (List.prefix_append_right_inj _).2 enough
  | more done' left p log' split enough passed' waiting =>
    exact .more (done ++ done') left p log' (by rw [split, List.append_assoc])
      (by rw [stream_append, enough, List.append_assoc])
      (by rw [passes_append_needMore passed, passed']) waiting

/-- **Calls** pass full records. -/
theorem processAll_spec (h : p ++ bufs.flatten ++ rest = stream records) {last : ℕ}
    (hwaits : Proper p ∨ Full p ∧ last < 5) (log : Log σ) :
    Outcome protect records (p ++ bufs.flatten) log
      (fun p' => Proper p' ∨ Full p' ∧ lastLen last bufs < 5)
      (processAll protect (stateOf p) log bufs) := by
  induction bufs generalizing p records log last with
  | nil => exact .more [] records p log rfl (by simp [stream]) rfl hwaits
  | cons buf bufs ih =>
    rw [List.flatten_cons] at h ⊢
    unfold processAll
    by_cases hnil : buf = []
    · subst hnil
      rw [process_nil]
      exact ih h hwaits log
    have hbytes : p ++ buf ++ (bufs.flatten ++ rest) = stream records := by
      rw [← h]
      simp only [List.append_assoc]
    have hcall : Outcome protect records (p ++ buf) log (Waits buf) _ :=
      process_spec hbytes (hwaits.imp_right And.left) hnil log
    have hlast : lastLen last (buf :: bufs) = lastLen buf.length bufs := by
      rw [lastLen, List.foldl_cons, if_neg hnil]
      rfl
    rw [hlast, ← List.append_assoc]
    generalize process protect (stateOf p) log buf = result at hcall
    cases hcall with
    | result done left status this log' split enough passed more =>
      have hprefix := enough.trans (List.prefix_append _ bufs.flatten)
      cases status with
      | needMore => exact absurd rfl more
      | _ => exact .result done left _ this log' split hprefix passed more
    | more done left p' log' split enough passed waiting =>
      rw [enough, split]
      refine .after passed (List.append_assoc _ _ _) (ih ?_ waiting log')
      rw [← List.append_assoc, enough, split, stream_append] at h
      simp only [List.append_assoc] at h
      rw [List.append_assoc, List.append_cancel_left h]

theorem processAll_start (h : bufs.flatten ++ rest = stream records) (log : Log σ) :
    Outcome protect records bufs.flatten log
      (fun p' => Proper p' ∨ Full p' ∧ lastLen 0 bufs < 5) (processAll protect {} log bufs) := by
  have hwaits : Proper [] ∨ Full [] ∧ 0 < 5 := .inl (.inl (by simp))
  exact processAll_spec (by rwa [List.nil_append]) hwaits log

theorem processAll_append {this this' : TlsInput} {log log' : Log σ} {bufs : List Chunk}
    (h : processAll protect this log bufs = (.needMore, this', log')) (more : List Chunk) :
    processAll protect this log (bufs ++ more) = processAll protect this' log' more := by
  induction bufs generalizing this log with
  | nil =>
    cases h
    rfl
  | cons buf bufs ih =>
    rw [processAll] at h
    rw [List.cons_append, processAll]
    generalize process protect this log buf = result at h ⊢
    obtain ⟨status, this'', log''⟩ := result
    cases status with
    | needMore => exact ih h
    | _ => exact absurd (congrArg Prod.fst h) (by simp)

theorem processAll_empty (h : ∀ buf ∈ bufs, buf = []) (log : Log σ) :
    processAll protect (stateOf p) log bufs = (.needMore, stateOf p, log) := by
  induction bufs with
  | nil => rfl
  | cons buf bufs ih =>
    rw [processAll, h buf List.mem_cons_self, process_nil]
    exact ih fun other hother => h other (List.mem_cons_of_mem _ hother)

theorem lastLen_append (last : ℕ) (bufs : List Chunk) (buf : Chunk) :
    lastLen last (bufs ++ [buf]) = if buf = [] then lastLen last bufs else buf.length := by
  rw [lastLen, List.foldl_append]
  rfl

theorem exists_last (hne : bufs.flatten ≠ []) (last : ℕ) :
    ∃ earlier buf empty, bufs = earlier ++ buf :: empty ∧ buf ≠ [] ∧
      buf.length = lastLen last bufs ∧ ∀ other ∈ empty, other = [] := by
  induction bufs using List.reverseRecOn with
  | nil => exact absurd rfl hne
  | append_singleton bufs buf ih =>
    rw [lastLen_append]
    by_cases hnil : buf = []
    · subst hnil
      rw [if_pos rfl]
      obtain ⟨earlier, buf, empty, rfl, hbuf, hlen, hempty⟩ := ih (by simpa using hne)
      refine ⟨earlier, buf, empty ++ [[]], by simp, hbuf, hlen, fun other hother => ?_⟩
      rcases List.mem_append.1 hother with hother | hother
      · exact hempty other hother
      · exact List.mem_singleton.1 hother
    · rw [if_neg hnil]
      exact ⟨bufs, buf, [], rfl, hnil, rfl, by simp⟩

theorem process_header {buf : Chunk} (hp : p ≠ []) (hbuf : buf ≠ [])
    (hfive : (p ++ buf).length = 5) (log : Log σ) :
    process protect (stateOf p) log buf = (.needMore, stateOf (p ++ buf), log) := by
  have hpos : 0 < buf.length := List.length_pos_iff.2 hbuf
  have hp' : p.length ≠ 0 := fun hzero => hp (List.length_eq_zero_iff.1 hzero)
  have hhead : (p ++ buf).length = recordHeaderLen := hfive
  rw [List.length_append] at hfive
  have hmin : min buf.length (recordHeaderLen - p.length) = buf.length := by
    simp only [recordHeaderLen]
    omega
  unfold process completeHeader
  rw [stateOf_short (by omega), if_pos hp']
  simp only [hmin, List.take_length, List.drop_length, if_pos hhead, processLoop_nil]
  rw [show recordHeaderLen = 5 from rfl, ← stateOf_long (by rw [List.length_append]; omega)]

end All

/-! ## The end of a stream -/

section End

variable {records : List TlsRecord}

theorem length_stream_cons (record : TlsRecord) (records : List TlsRecord) :
    (stream (record :: records)).length = record.data.length + 5 + (stream records).length := by
  rw [stream_cons, List.length_append, TlsRecord.length_bytes]

theorem recordLength_stream_cons (record : TlsRecord) (records : List TlsRecord) :
    recordLength (stream (record :: records)) = record.data.length := by
  rw [stream_cons, recordLength_bytes]

theorem not_proper_cons (record : TlsRecord) (records : List TlsRecord) (xs : Chunk) :
    ¬Proper (stream (record :: records) ++ xs) := by
  have hlength := length_stream_cons record records
  have hrecord : recordLength (stream (record :: records) ++ xs) = record.data.length := by
    rw [recordLength_append xs (by omega), recordLength_stream_cons]
  unfold Proper
  rw [hrecord, List.length_append]
  omega

/-- The header of an empty record may wait, but nothing behind it. -/
theorem full_cons {record : TlsRecord} {xs : Chunk}
    (h : Full (stream (record :: records) ++ xs)) : record.data = [] ∧ records = [] ∧ xs = [] := by
  have hlength := length_stream_cons record records
  have hfive := h.1
  rw [List.length_append] at hfive
  refine ⟨List.length_eq_zero_iff.1 (by omega), ?_, List.length_eq_zero_iff.1 (by omega)⟩
  cases records with
  | nil => rfl
  | cons record' records =>
    have hmore := length_stream_cons record' records
    omega

end End

end TlsInput

/-! ## All records -/

namespace TlsRecord

variable {σ : Type} (protect : σ → U8 → Chunk → Status × σ)

/-- The last record is empty, is reached, and the last call with some bytes has not its whole
header. -/
def Stuck (s : σ) (records : List TlsRecord) (bufs : List Chunk) : Prop :=
  ∃ earlier last, records = earlier ++ [last] ∧ last.data = [] ∧
    (passes protect (s, []) earlier).1 = .needMore ∧ TlsInput.lastLen 0 bufs < recordHeaderLen

variable {protect} {s : σ} {records : List TlsRecord} {bufs : List Chunk}

theorem processAll_header {last : TlsRecord} {head buf : Chunk} (hdata : last.data = [])
    (hbytes : bufs.flatten = stream records ++ head) (hhead : last.bytes = head ++ buf)
    (hbuf : buf ≠ []) (hne : head ≠ [])
    (hmore : (passes protect (s, []) records).1 = .needMore) :
    TlsInput.processAll protect {} (s, []) bufs =
      (.needMore, TlsInput.stateOf head, (passes protect (s, []) records).2) := by
  have hstream : stream (records ++ [last]) = stream records ++ (head ++ buf) := by
    rw [stream_append, ← hhead]
    simp [stream]
  have hpos : 0 < buf.length := List.length_pos_iff.2 hbuf
  have hstart : bufs.flatten ++ buf = stream (records ++ [last]) := by
    rw [hstream, hbytes, List.append_assoc]
  have hcalls : TlsInput.Outcome protect _ _ (s, []) _ _ := TlsInput.processAll_start hstart (s, [])
  rw [hbytes] at hcalls
  generalize TlsInput.processAll protect {} (s, []) bufs = result at hcalls
  -- the last record has not been passed, as bytes of it are missing
  have hsplit : ∀ done left, records ++ [last] = done ++ left →
      stream done <+: stream records ++ head → ∃ between, records = done ++ between := by
    intro done left split enough
    rcases List.append_eq_append_iff.1 split with ⟨between, rfl, hleft⟩ | ⟨between, hbetween, -⟩
    · cases between with
      | nil => exact ⟨[], by simp⟩
      | cons record between =>
        have hle := enough.length_le
        rw [stream_append, List.length_append, List.length_append] at hle
        have hcons := TlsInput.length_stream_cons record between
        have hlast : last.bytes.length = 5 := by
          rw [TlsRecord.length_bytes, hdata, List.length_nil]
        rw [hhead, List.length_append] at hlast
        omega
    · exact ⟨between, hbetween⟩
  cases hcalls with
  | result done left status this log' split enough passed more =>
    obtain ⟨between, rfl⟩ := hsplit done left split enough
    rw [TlsInput.passes_append_result passed more] at hmore
    exact absurd hmore more
  | more done left p log' split enough passed waiting =>
    obtain ⟨between, rfl⟩ := hsplit done left split (enough ▸ List.prefix_append _ _)
    rw [stream_append, List.append_assoc] at enough
    have hp := List.append_cancel_left enough
    cases between with
    | nil =>
      rw [← hp, List.append_nil, passed]
      rfl
    | cons record between =>
      rw [← hp] at waiting
      rcases waiting with hproper | ⟨hfull, -⟩
      · exact absurd hproper (TlsInput.not_proper_cons record between head)
      · exact absurd (TlsInput.full_cons hfull).2.2 hne

theorem Stuck.process_ne (hbytes : bufs.flatten = stream records)
    (h : Stuck protect s records bufs) :
    (TlsInput.processAll protect {} (s, []) bufs).2.2 ≠ (passes protect (s, []) records).2 := by
  obtain ⟨init, last, rfl, hdata, hinit, hlast⟩ := h
  have hfive : last.bytes.length = 5 := by rw [TlsRecord.length_bytes, hdata, List.length_nil]
  have hstream : stream (init ++ [last]) = stream init ++ last.bytes := by
    rw [stream_append]
    simp [stream]
  have hne : bufs.flatten ≠ [] := by
    rw [hbytes, hstream]
    exact List.append_ne_nil_of_right_ne_nil _ (List.ne_nil_of_length_pos (by omega))
  obtain ⟨earlier, buf, empty, rfl, hbuf, hlen, hempty⟩ := TlsInput.exists_last hne 0
  have hlt : buf.length < 5 := by
    rw [hlen]
    exact hlast
  have hflat : earlier.flatten ++ buf = stream init ++ last.bytes := by
    have hnil : empty.flatten = [] := List.flatten_eq_nil_iff.2 hempty
    rw [← hstream, ← hbytes, List.flatten_append, List.flatten_cons, hnil, List.append_nil]
  -- the last call has the end of the header of the last record
  rcases List.append_eq_append_iff.1 hflat with ⟨more, -, hmore⟩ | ⟨head, hearlier, hhead⟩
  · have hlength := congrArg List.length hmore
    rw [List.length_append] at hlength
    omega
  have hheadne : head ≠ [] := by
    rintro rfl
    rw [hhead, List.nil_append] at hfive
    omega
  rw [TlsInput.processAll_append (processAll_header hdata hearlier hhead hbuf hheadne hinit),
    TlsInput.processAll, TlsInput.process_header hheadne hbuf (hhead ▸ hfive)]
  dsimp only
  rw [TlsInput.processAll_empty hempty]
  -- the specification passes one more
  obtain ⟨log', hlog⟩ : ∃ log', passes protect (s, []) init = (.needMore, log') :=
    ⟨_, Prod.ext hinit rfl⟩
  rw [TlsInput.passes_append_needMore hlog, hlog]
  intro heq
  have hcount := congrArg (fun log : Log σ => log.2.length) heq
  by_cases hone : (TlsInput.pass protect log' last.type last.data).1 = .needMore
  · rw [TlsInput.passes_cons_needMore hone] at hcount
    simp [passes, TlsInput.pass] at hcount
  · rw [TlsInput.passes_cons_result hone] at hcount
    simp [TlsInput.pass] at hcount

/-- **Records in any pieces.** What is passed to the protection layer are the records of the
stream, unless the last one is empty and is cut in its header. -/
theorem passes_iff (s : σ) (records : List TlsRecord) (bufs : List Chunk)
    (hbytes : bufs.flatten = stream records) :
    (TlsInput.processAll protect {} (s, []) bufs).2.2 = (passes protect (s, []) records).2 ↔
      ¬Stuck protect s records bufs := by
  refine ⟨fun heq hstuck => hstuck.process_ne hbytes heq, fun hstuck => ?_⟩
  have hstart : bufs.flatten ++ [] = stream records := by rw [List.append_nil, hbytes]
  have hcalls : TlsInput.Outcome protect _ _ (s, []) _ _ := TlsInput.processAll_start hstart (s, [])
  rw [hbytes] at hcalls
  generalize TlsInput.processAll protect {} (s, []) bufs = result at hcalls
  cases hcalls with
  | result done left status this log' split enough passed more =>
    rw [split, TlsInput.passes_append_result passed more]
  | more done left p log' split enough passed waiting =>
    subst split
    rw [stream_append] at enough
    rw [TlsInput.passes_append_needMore passed]
    cases left with
    | nil => rfl
    | cons record left =>
      have hp : p = stream (record :: left) ++ [] := by
        rw [List.append_nil]
        exact (List.append_cancel_left enough).symm
      rw [hp] at waiting
      rcases waiting with hproper | ⟨hfull, hlast⟩
      · exact absurd hproper (TlsInput.not_proper_cons record left [])
      · obtain ⟨hdata, rfl, -⟩ := TlsInput.full_cons hfull
        exact absurd ⟨done, record, rfl, hdata, by rw [passed], hlast⟩ hstuck

def empty : TlsRecord := ⟨22, 0x0303, [], by simp⟩

/-- An empty record after one with two bytes, in two calls -/
theorem passes_iff_two :
    (TlsInput.processAll (fun _ _ _ => (.needMore, ())) {} ((), [])
        [[23, 3, 3, 0, 2, 7], [7, 22, 3, 3, 0, 0]]).2.2 =
      (passes (fun _ _ _ => (.needMore, ())) ((), []) [⟨23, 0x0303, [7, 7], by simp⟩, empty]).2 ↔
    ¬Stuck (fun _ _ _ => (.needMore, ())) () [⟨23, 0x0303, [7, 7], by simp⟩, empty]
      [[23, 3, 3, 0, 2, 7], [7, 22, 3, 3, 0, 0]] :=
  passes_iff () _ _ (by decide)

/-- An empty record with its header cut is not passed. -/
theorem not_passes_cut :
    ([[22, 3, 3, 0], [0]] : List Chunk).flatten = stream [empty] ∧
      (TlsInput.processAll (fun _ _ _ => (.needMore, ())) {} ((), [])
        [[22, 3, 3, 0], [0]]).2.2.2 = [] ∧
      (passes (fun _ _ _ => (.needMore, ())) ((), []) [empty]).2.2 = [(22, [])] := by
  decide

end TlsRecord

end Tls

end StrongSwan
