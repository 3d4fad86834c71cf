import StrongSwan.Encoding.EncryptedPayload
import StrongSwan.Encoding.Message.Fragment

/-!
# The length of fragments

* `datagramLength`: a packet with the headers and the marker it is sent with.
* `clearLength`: how long payloads in clear are; **`length_generate_fragment`**.
* `NeverClamps`; **`length_le_of_contentLength`**: what the length of the contents leaves room for.
* `FragmentsFit`; **`fragments_exact`**: when all datagrams fit and have exact lengths and numbers.
-/

namespace StrongSwan

/-! ## Datagrams -/

/-- The length of an IP header without options or extension headers. -/
def ipHeaderLength (source : Host) : ℕ := if source.family = .inet then 20 else 40

/-- `send`: if neither source nor destination port is 500 a Non-ESP marker is added. -/
def sendData (source destination : Host) (data : Chunk) : Chunk :=
  if destination.port ≠ Message.ikev2UdpPort ∧ source.port ≠ Message.ikev2UdpPort then
    [0, 0, 0, 0] ++ data
  else data

def Packet.datagramLength (this : Packet) : ℕ :=
  match this.source, this.destination with
  | some source, some destination =>
    ipHeaderLength source + 8 + (sendData source destination this.data).length
  | _, _ => 0

namespace Message

/-- The length of the headers in front of a message. -/
def headersLength (source destination : Host) : ℕ :=
  ipHeaderLength source + 8 + (sendData source destination []).length

theorem datagramLength_eq {packet : Packet} {source destination : Host}
    (hsource : packet.source = some source) (hdestination : packet.destination = some destination) :
    packet.datagramLength = headersLength source destination + packet.data.length := by
  rw [Packet.datagramLength, hsource, hdestination]
  dsimp only
  rw [headersLength, sendData, sendData]
  split_ifs
  · rw [List.length_append, List.append_nil]
    exact (Nat.add_assoc ..).symm
  · rw [List.length_nil, Nat.add_zero]

/-- The length of datagrams that is configured, or the default. -/
def configuredLength (source : Host) (fragLen : ℕ) : ℕ :=
  if fragLen = 0 then if source.family = .inet then 576 else 1280 else fragLen

/-- What is left for IV, contents, padding and ICV of a fragment. -/
def contentRoom (source destination : Host) (fragLen ivIcv : ℕ) : ℕ :=
  configuredLength source fragLen - (headersLength source destination + (28 + (8 + ivIcv)))

/-- The length of the contents is reduced without a limit, and something is left of it. -/
def NeverClamps (source destination : Host) (aead : Aead) (fragLen : ℕ) : Prop :=
  2 ≤ contentRoom source destination fragLen (aead.ivSize + aead.icvSize) -
    contentRoom source destination fragLen (aead.ivSize + aead.icvSize) % aead.blockSize

theorem reduceFragLen_eq {fragLen amount : ℕ} (h : amount < fragLen) :
    reduceFragLen fragLen amount = fragLen - amount := by
  rw [reduceFragLen, Nat.max_eq_right (by omega)]

section lengths

variable {source destination : Host} {aead : Aead} {fragLen : ℕ}

theorem NeverClamps.lt_configured (h : NeverClamps source destination aead fragLen) :
    headersLength source destination + (28 + (8 + (aead.ivSize + aead.icvSize))) <
      configuredLength source fragLen := by
  rw [NeverClamps, contentRoom] at h
  omega

theorem NeverClamps.messageLength_eq (h : NeverClamps source destination aead fragLen) :
    messageLength source destination fragLen =
      configuredLength source fragLen - headersLength source destination := by
  have hlt := h.lt_configured
  have hip : (if source.family = .inet then 20 else 40 : ℕ) = ipHeaderLength source := rfl
  have hconfigured : (if fragLen = 0 then if source.family = .inet then 576 else 1280
      else fragLen) = configuredLength source fragLen := rfl
  have hfirst := @reduceFragLen_eq (configuredLength source fragLen) (ipHeaderLength source) (by
    rw [headersLength] at hlt
    omega)
  have hsecond := @reduceFragLen_eq (configuredLength source fragLen - ipHeaderLength source) 8 (by
    rw [headersLength] at hlt
    omega)
  unfold messageLength
  dsimp only
  rw [hip, hconfigured]
  rw [headersLength, sendData] at hlt ⊢
  split_ifs at hlt ⊢ with hports
  · rw [List.length_append, List.length_nil] at hlt ⊢
    have hfour : ([0, 0, 0, 0] : Chunk).length = 4 := rfl
    rw [hfour] at hlt ⊢
    rw [hfirst, hsecond, @reduceFragLen_eq _ 4 (by omega)]
    omega
  · rw [List.length_nil] at hlt ⊢
    rw [hfirst, hsecond]
    omega

theorem NeverClamps.fragmentLength_eq (h : NeverClamps source destination aead fragLen) :
    fragmentLength aead (messageLength source destination fragLen) + 1 =
      contentRoom source destination fragLen (aead.ivSize + aead.icvSize) -
        contentRoom source destination fragLen (aead.ivSize + aead.icvSize) % aead.blockSize := by
  have hlt := h.lt_configured
  rw [h.messageLength_eq]
  rw [NeverClamps] at h
  have hroom : configuredLength source fragLen - headersLength source destination - 28 -
      aead.ivSize - aead.icvSize - 8 =
        contentRoom source destination fragLen (aead.ivSize + aead.icvSize) := by
    rw [contentRoom]
    omega
  unfold fragmentLength
  dsimp only
  rw [@reduceFragLen_eq _ 28 (by omega), @reduceFragLen_eq _ aead.ivSize (by omega),
    @reduceFragLen_eq _ aead.icvSize (by omega), @reduceFragLen_eq _ 8 (by omega), hroom,
    reduceFragLen_eq (by omega)]
  omega

/-- **What fits in a fragment**, fits in a message. -/
theorem length_le_of_contentLength (haead : aead.Inverts)
    (h : NeverClamps source destination aead fragLen) {len : ℕ}
    (hlen : len ≤ fragmentLength aead (messageLength source destination fragLen)) :
    28 + (8 + (len + computeOverhead aead len)) ≤ messageLength source destination fragLen := by
  have hlt := h.lt_configured
  have hcontent := h.fragmentLength_eq
  have hroom : contentRoom source destination fragLen (aead.ivSize + aead.icvSize) =
      configuredLength source fragLen -
        (headersLength source destination + (28 + (8 + (aead.ivSize + aead.icvSize)))) := rfl
  generalize contentRoom source destination fragLen (aead.ivSize + aead.icvSize) = room at *
  -- the contents and a byte are whole blocks
  have hblocks : room - room % aead.blockSize = aead.blockSize * (room / aead.blockSize) := by
    have hsplit := Nat.div_add_mod room aead.blockSize
    omega
  have hpadded : len + paddingLen aead len ≤ room := by
    have hdiv : len / aead.blockSize < room / aead.blockSize := by
      rw [Nat.div_lt_iff_lt_mul haead.blockSize_pos, Nat.mul_comm]
      omega
    rw [add_paddingLen haead]
    exact (Nat.mul_le_mul_left _ hdiv).trans (Nat.mul_div_le room aead.blockSize)
  rw [h.messageLength_eq]
  rw [paddingLen] at hpadded
  rw [computeOverhead]
  omega

end lengths

/-! ## Payloads in clear -/

def OnlyPayloads (this this' : Message) : Prop :=
  ∃ firstPayload payloads, this' = { this with firstPayload, payloads }

theorem OnlyPayloads.trans {this this' this'' : Message} (h : OnlyPayloads this this')
    (h' : OnlyPayloads this' this'') : OnlyPayloads this this'' := by
  obtain ⟨_, _, rfl⟩ := h
  obtain ⟨firstPayload, payloads, rfl⟩ := h'
  exact ⟨firstPayload, payloads, rfl⟩

theorem OnlyPayloads.packet_eq {this this' : Message} (h : OnlyPayloads this this') :
    this'.packet = this.packet := by
  obtain ⟨_, _, rfl⟩ := h
  rfl

theorem OnlyPayloads.getMessageRule_eq {this this' : Message} (h : OnlyPayloads this this') :
    this'.getMessageRule = this.getMessageRule := by
  obtain ⟨_, _, rfl⟩ := h
  rfl

theorem onlyPayloads_addPayload (this : Message) (payload : Payload) :
    OnlyPayloads this (this.addPayload payload) := by
  unfold addPayload
  split
  · exact ⟨_, _, rfl⟩
  · exact ⟨_, _, rfl⟩

theorem onlyPayloads_foldl_addPayload (payloads : List Payload) : ∀ this : Message,
    OnlyPayloads this (payloads.foldl addPayload this) := by
  induction payloads with
  | nil => exact fun this => ⟨_, _, rfl⟩
  | cons payload payloads ih =>
    exact fun this => (onlyPayloads_addPayload this payload).trans (ih (this.addPayload payload))

/-- The length of a payload, unless it is an Encrypted Fragment payload. -/
def clearWeight (payload : Payload) : ℕ :=
  if payload.getType = .fragment then 0 else payload.generate.length

/-- The length of the payloads that are not encrypted. -/
def clearLength (payloads : List Payload) : ℕ := (payloads.map clearWeight).sum

theorem clearWeight_setNextType (type : PayloadType) (payload : Payload) :
    clearWeight (payload.setNextType type) = clearWeight payload := by
  rw [clearWeight, clearWeight, Payload.getType_setNextType, Payload.length_generate_setNextType]

theorem clearLength_append (payloads payloads' : List Payload) :
    clearLength (payloads ++ payloads') = clearLength payloads + clearLength payloads' := by
  rw [clearLength, List.map_append, List.sum_append]
  rfl

theorem clearLength_perm {payloads payloads' : List Payload} (h : payloads.Perm payloads') :
    clearLength payloads = clearLength payloads' := (h.map clearWeight).sum_eq

theorem clearLength_filter (payloads : List Payload) :
    ((payloads.filter (·.getType ≠ .fragment)).map fun payload => payload.generate.length).sum =
      clearLength payloads := by
  induction payloads with
  | nil => rfl
  | cons payload payloads ih =>
    rw [clearLength, List.map_cons, List.sum_cons, clearWeight]
    by_cases htype : payload.getType = .fragment
    · rw [List.filter_cons_of_neg (by simpa using htype), if_pos htype, Nat.zero_add]
      exact ih
    · rw [List.filter_cons_of_pos (by simpa using htype), if_neg htype, List.map_cons, List.sum_cons]
      exact congrArg (payload.generate.length + ·) ih

theorem clearLength_addPayload (this : Message) (payload : Payload) :
    clearLength (this.addPayload payload).payloads =
      clearLength this.payloads + clearWeight payload := by
  unfold addPayload
  cases hlast : this.payloads.getLast? with
  | none =>
    rw [List.getLast?_eq_none_iff.mp hlast]
    show clearWeight _ + 0 = 0 + clearWeight payload
    rw [clearWeight_setNextType, Nat.add_comm]
  | some previous =>
    obtain ⟨before, heq⟩ := List.getLast?_eq_some_iff.mp hlast
    rw [heq, List.dropLast_concat]
    show clearLength (before ++ _) = _
    rw [clearLength_append, clearLength_append, Nat.add_assoc]
    congr 1
    show clearWeight _ + (clearWeight _ + 0) = clearWeight previous + 0 + clearWeight payload
    rw [clearWeight_setNextType, clearWeight_setNextType]
    rfl

theorem clearLength_foldl_addPayload (payloads : List Payload) : ∀ this : Message,
    clearLength (payloads.foldl addPayload this).payloads =
      clearLength this.payloads + clearLength payloads := by
  induction payloads with
  | nil => exact fun this => rfl
  | cons payload payloads ih =>
    intro this
    rw [List.foldl_cons, ih, clearLength_addPayload, Nat.add_assoc]
    rfl

/-- Ordering keeps everything but the order of payloads. -/
theorem orderPayloads_spec (order : List PayloadOrder) (this : Message) :
    OnlyPayloads this (this.orderPayloads order) ∧
      clearLength (this.orderPayloads order).payloads = clearLength this.payloads := by
  obtain ⟨state, ⟨hrest, hlength⟩, heq⟩ := orderPayloads_induct
    (P := fun state => OnlyPayloads this state.1 ∧
      clearLength state.1.payloads + clearLength state.2 = clearLength this.payloads) order this
    ⟨⟨this.firstPayload, [], rfl⟩, Nat.zero_add _⟩ fun state rule h => by
      refine ⟨h.1.trans (onlyPayloads_foldl_addPayload _ state.1), .trans ?_ h.2⟩
      rw [clearLength_foldl_addPayload, Nat.add_assoc, ← clearLength_append]
      exact congrArg (clearLength state.1.payloads + ·)
        (clearLength_perm (List.filter_append_perm rule.applies state.2))
  rw [heq]
  refine ⟨hrest.trans (onlyPayloads_foldl_addPayload _ _), ?_⟩
  rw [clearLength_foldl_addPayload, clearLength_perm (List.reverse_perm _), hlength]

theorem length_generateHeader (this : Message) (next : PayloadType) (length : U32) :
    (this.generateHeader next length).length = 28 := by
  unfold generateHeader
  dsimp only
  simp only [List.length_append, length_htoun64, length_htoun32, List.length_cons, List.length_nil]

theorem length_generateFront (this : Message) (last : PayloadType) (length : U32) :
    (this.generateFront last length).length =
      28 + (this.payloads.map fun payload => payload.generate.length).sum := by
  rw [generateFront, List.length_append, length_generateHeader, length_flatMap_relinkTo]

section fragments

variable {this : Message} {payload : EncryptedFragmentPayload} {aead : Aead} {draws : Draws}
  {order : List PayloadOrder} {rule : MessageRule}

variable {generated : Message}

/-- **A fragment that is generated** is as long as its parts, and is sent as the message is. -/
theorem length_generate_fragment (h : HasFragment payload this)
    (hrule : this.getMessageRule = some rule) (hencrypted : rule.encrypted = true)
    (hgenerate : this.generate order (some aead) draws = (.success, generated)) :
    ∃ encrypted assoc, encryptContent aead draws payload.plain assoc = some encrypted ∧
      HasFragment { payload with encrypted } generated ∧
      generated.packet.source = this.packet.source ∧
      generated.packet.destination = this.packet.destination ∧
      generated.packet.data.length = 28 + clearLength this.payloads + (8 + encrypted.length) := by
  have hordered := h.orderPayloads order
  obtain ⟨honly, hclear⟩ := orderPayloads_spec order this
  have hsource : (this.orderPayloads order).packet.source = this.packet.source := by
    rw [honly.packet_eq]
  have hdestination : (this.orderPayloads order).packet.destination = this.packet.destination := by
    rw [honly.packet_eq]
  unfold generate generateMessage at hgenerate
  split_ifs at hgenerate
  · cases hgenerate
  · cases hgenerate
  · rw [hrule] at hgenerate
    dsimp only at hgenerate
    rw [if_pos ⟨hencrypted, rfl⟩, hordered.wrapPayloads] at hgenerate
    dsimp only [finalizeMessage] at hgenerate
    split at hgenerate
    · cases hgenerate
    · rename_i sealed hsealed
      obtain ⟨encrypted, hencrypt, rfl⟩ := Wrapped.exists_of_encrypt hsealed
      obtain rfl := (Prod.mk.inj hgenerate).2
      refine ⟨encrypted, _, hencrypt, ⟨?_, h.keepsNext⟩, hsource, hdestination, ?_⟩
      · rw [fragmentPayloads_append, fragmentPayloads_of_ne fun p hp => by
          simpa using (List.mem_filter.mp hp).2]
        rfl
      · show (generateFront _ _ _ ++ _).length = _
        rw [List.length_append, length_generateFront, Wrapped.length_generate_sealed]
        show 28 + ((List.filter _ (this.orderPayloads order).payloads).map _).sum + _ = _
        rw [clearLength_filter, hclear]
        rfl

/-- What is known of a fragment of a message with payloads in clear. -/
structure FragmentOf (this : Message) (aead : Aead) (next : PayloadType) (num count : U16)
    (piece : Chunk) (fragment : Message) : Prop where
  source_eq : fragment.packet.source = this.packet.source
  destination_eq : fragment.packet.destination = this.packet.destination
  payload : ∃ encrypted, fragment.fragmentV2 = some { fragmentOf next num count piece with encrypted } ∧
    encrypted.length = piece.length + computeOverhead aead piece.length ∧
    fragment.packet.data.length =
      28 + (if num = 1 then clearLength (this.payloads.filter (·.getType ≠ .encrypted)) else 0) +
        (8 + encrypted.length)

theorem createFragment_spec (this : Message) (next : PayloadType) (num count : U16) (data : Chunk) :
    OnlyPayloads this.clone (this.createFragment next num count data) ∧
      clearLength (this.createFragment next num count data).payloads =
        if num = 1 then clearLength (this.payloads.filter (·.getType ≠ .encrypted)) else 0 := by
  unfold createFragment
  dsimp only
  split_ifs
  · refine ⟨(onlyPayloads_foldl_addPayload _ _).trans (onlyPayloads_addPayload _ _), ?_⟩
    rw [clearLength_addPayload, clearLength_foldl_addPayload, clearWeight_setNextType]
    exact Nat.zero_add _
  · exact ⟨onlyPayloads_addPayload _ _, clearLength_addPayload _ _⟩

variable {fragLen : ℕ} {next : PayloadType}

theorem generateFragments_fragmentOf (haead : aead.Inverts)
    (hrule : this.getMessageRule = some rule) (hencrypted : rule.encrypted = true)
    (hclear : ∀ p ∈ this.payloads, p.getType ≠ .fragment)
    (hnext : next ≠ .none) {draws : U16 → Draws} {count : U16}
    {nums : List ℕ} {data : Chunk} {fragments : List Message}
    (h : this.generateFragments order aead draws next count fragLen nums data =
      (.success, fragments)) :
    List.Forall₂ (fun piece fragment =>
        FragmentOf this aead next (BitVec.ofNat 16 piece.1) count piece.2 fragment)
      (nums.zip (Pieces.cut fragLen nums.length data)) fragments := by
  induction nums generalizing data fragments with
  | nil =>
    obtain rfl := (Prod.mk.inj h).2
    exact .nil
  | cons num nums ih =>
    unfold generateFragments at h
    dsimp only at h
    rw [Nat.min_comm, ← List.take_eq_take_min, ← List.drop_eq_drop_min] at h
    split at h
    · rename_i fragment hgenerate
      obtain ⟨-, hcreate⟩ := hasFragment_createFragment hclear hnext (BitVec.ofNat 16 num) count
        (data.take fragLen)
      obtain ⟨honly, hlength⟩ := createFragment_spec this next (BitVec.ofNat 16 num) count
        (data.take fragLen)
      have hrule' := honly.getMessageRule_eq.trans hrule
      obtain ⟨encrypted, _, hencrypt, hgenerated, hsource, hdestination, hdata⟩ :=
        length_generate_fragment hcreate hrule' hencrypted hgenerate
      rw [honly.packet_eq] at hsource hdestination
      obtain ⟨hstatus, hfragments⟩ := Prod.mk.inj h
      rw [if_pos hstatus] at hfragments
      subst hfragments
      refine .cons ⟨hsource, hdestination, encrypted, hgenerated.fragmentV2,
        length_encryptContent haead hencrypt, ?_⟩ (ih (Prod.ext hstatus rfl))
      rw [hdata, hlength]
    · cases h

variable {content : List Payload}

/-- **A message that is split** gives the fragments of its contents, one after the other. -/
theorem split_fragmentOf (haead : aead.Inverts)
    (hrule : this.getMessageRule = some rule) (hencrypted : rule.encrypted = true)
    (hclear : ∀ p ∈ this.payloads, p.getType ≠ .fragment) {draws : U16 → Draws}
    {fragments : List Message}
    (h : this.split order aead draws content fragLen = some (.success, fragments)) :
    fragments.length = numFragments (generateContent content) fragLen ∧
      ∀ k fragment, fragments[k]? = some fragment →
        FragmentOf this aead (firstType .none content) (BitVec.ofNat 16 (k + 1))
          (BitVec.ofNat 16 fragments.length)
          (((generateContent content).drop (k * fragLen)).take fragLen) fragment := by
  have hlength := (split_sentAll hclear h).1
  rw [Pieces.length_cut] at hlength
  refine ⟨hlength, fun k fragment hk => ?_⟩
  obtain ⟨hlt, rfl⟩ := List.getElem?_eq_some_iff.mp hk
  by_cases hcontent : content = []
  · subst hcontent
    have hzero : numFragments (generateContent []) fragLen = 0 := by
      rw [numFragments, show generateContent [] = [] from rfl, List.length_nil, countFragments,
        Nat.zero_div, Nat.zero_mod]
      rfl
    omega
  · unfold split at h
    dsimp only at h
    split_ifs at h
    split at h
    · rename_i fragments' hfragments
      cases h
      rw [BitVec.toNat_ofNat] at hfragments
      change this.generateFragments order aead draws _ _ _
        (List.range' 1 (numFragments (generateContent content) fragLen)) _ = _ at hfragments
      have hspec := generateFragments_fragmentOf haead hrule hencrypted hclear
        (firstType_ne_none hcontent) hfragments
      rw [List.length_range'] at hspec
      have hpiece := hspec.get (by simpa [hlength] using hlt) hlt
      have hcount : BitVec.ofNat 16 fragments.length =
          BitVec.ofNat 16 (countFragments (generateContent content).length fragLen) := by
        apply BitVec.eq_of_toNat_eq
        rw [hlength, BitVec.toNat_ofNat, BitVec.toNat_ofNat, numFragments, Nat.mod_mod]
      have hcut := Pieces.getElem?_cut fragLen (numFragments (generateContent content) fragLen)
        (generateContent content) (hlength ▸ hlt)
      obtain ⟨_, hcut⟩ := List.getElem?_eq_some_iff.mp hcut
      rw [hcount]
      simpa [Nat.add_comm 1, hcut] using hpiece
    · cases h

/-! ## Messages in one packet -/

omit draws payload in
theorem wrapPayloads_eq (hrule : rule ∈ messageRules) (hencrypted : rule.encrypted = true)
    (hclear : ∀ p ∈ this.payloads, p.getType ≠ .fragment) :
    this.wrapPayloads rule = ({ this with payloads := [] }, .payloads this.payloads) := by
  have hfragments : this.payloads.filterMap Payload.asFragment = [] := by
    refine List.filterMap_eq_nil_iff.mpr fun p hp => ?_
    cases p with
    | fragment payload => exact absurd rfl (hclear _ hp)
    | _ => rfl
  have hall : ∀ p : Payload, (rule.getPayloadRule p.getType).all PayloadRule.encrypted = true := by
    intro p
    cases hfind : rule.getPayloadRule p.getType with
    | none => rfl
    | some payloadRule =>
      exact encrypted_of_rule rule hrule hencrypted payloadRule (List.mem_of_find?_eq_some hfind)
  unfold wrapPayloads
  rw [hfragments]
  dsimp only [List.getLast?_nil]
  rw [List.filter_eq_nil_iff.mpr fun p _ => by simp [hall p],
    List.filter_eq_self.mpr fun p _ => hall p]
  rfl

omit payload draws in
theorem generateMessage_eq (hrule : this.getMessageRule = some rule)
    (hencrypted : rule.encrypted = true) (hclear : ∀ p ∈ this.payloads, p.getType ≠ .fragment)
    {wrapped : Option Wrapped}
    (h : this.generateMessage order (some aead) = (.success, generated, wrapped)) :
    generated = { this.orderPayloads order with payloads := [] } ∧
      wrapped = some (.payloads (this.orderPayloads order).payloads) ∧
      ∀ p ∈ (this.orderPayloads order).payloads, p.getType ≠ .fragment := by
  have hordered : ∀ p ∈ (this.orderPayloads order).payloads, p.getType ≠ .fragment := by
    have hperm := fragmentPayloads_orderPayloads order fun p hp => keepsNext_of_ne (hclear p hp)
    rw [fragmentPayloads_of_ne hclear] at hperm
    intro p hp htype
    have hmem : p ∈ fragmentPayloads (this.orderPayloads order).payloads :=
      List.mem_filter.mpr ⟨hp, by simpa using htype⟩
    rw [hperm.eq_nil] at hmem
    cases hmem
  unfold generateMessage at h
  split_ifs at h
  · cases h
  · cases h
  · rw [hrule] at h
    dsimp only at h
    rw [if_pos ⟨hencrypted, rfl⟩,
      wrapPayloads_eq (List.mem_of_find?_eq_some hrule) hencrypted hordered] at h
    cases h
    exact ⟨rfl, rfl, hordered⟩

omit payload order rule in
theorem finalizeMessage_spec (hempty : this.payloads = [])
    (h : this.finalizeMessage (some aead) draws (some (.payloads content)) = (.success, generated)) :
    ∃ encrypted assoc, encryptContent aead draws (generateContent content) assoc = some encrypted ∧
      generated.payloads = [(Wrapped.payloads content).sealed encrypted] ∧
      generated.packet.source = this.packet.source ∧
      generated.packet.destination = this.packet.destination ∧
      generated.packet.data.length = 28 + (4 + encrypted.length) := by
  dsimp only [finalizeMessage] at h
  split at h
  · cases h
  · rename_i sealed hsealed
    obtain ⟨encrypted, hencrypt, rfl⟩ := Wrapped.exists_of_encrypt hsealed
    obtain rfl := (Prod.mk.inj h).2
    refine ⟨encrypted, _, hencrypt, ?_, rfl, rfl, ?_⟩
    · rw [hempty]
      rfl
    · show (generateFront _ _ _ ++ _).length = _
      rw [List.length_append, length_generateFront, hempty, Wrapped.length_generate_sealed]
      rfl

/-! ## Fits -/

/-- The length of an Encrypted Fragment payload with some contents. -/
def fragmentPayloadLength (aead : Aead) (len : ℕ) : ℕ := 8 + (len + computeOverhead aead len)

/-- The fragments have all contents, none of them is empty, and their numbers and lengths are exact. -/
def NumberedExactly (plain : ℕ) (packets : List Message) : Prop :=
  (packets.map plainLength).sum = plain ∧
    ∀ k packet, packets[k]? = some packet → ∃ payload, packet.fragmentV2 = some payload ∧
      payload.plain ≠ [] ∧ payload.fragmentNumber.toNat = k + 1 ∧
      payload.totalFragments.toNat = packets.length ∧
      (payload.getLength none).toNat = (Payload.fragment payload).generate.length

/-- When the fragments of some plaintext fit. -/
structure SplitFits (aead : Aead) (headers configured clear plain len : ℕ) : Prop where
  count_lt : countFragments plain len < 65536
  length_lt : plain ≠ 0 → fragmentPayloadLength aead (min plain len) < 65536
  first_le : plain ≠ 0 →
    headers + (28 + clear + fragmentPayloadLength aead (min plain len)) ≤ configured

omit draws payload order rule in
theorem FragmentOf.datagramLength_eq {source destination : Host} {num count : U16}
    {piece : Chunk} {fragment : Message} (h : FragmentOf this aead next num count piece fragment)
    (hsource : this.packet.source = some source)
    (hdestination : this.packet.destination = some destination) :
    fragment.packet.datagramLength = headersLength source destination +
      (28 + (if num = 1 then clearLength (this.payloads.filter (·.getType ≠ .encrypted)) else 0) +
        fragmentPayloadLength aead piece.length) := by
  obtain ⟨encrypted, -, hencrypted, hdata⟩ := h.payload
  rw [Message.datagramLength_eq (h.source_eq.trans hsource) (h.destination_eq.trans hdestination),
    hdata, hencrypted]
  rfl

omit draws payload order rule in
theorem FragmentOf.length_exact_iff (haead : aead.Inverts) {num count : U16}
    {piece : Chunk} {fragment : Message} (h : FragmentOf this aead next num count piece fragment)
    {payload : EncryptedFragmentPayload} (hpayload : fragment.fragmentV2 = some payload) :
    (payload.getLength none).toNat = (Payload.fragment payload).generate.length ↔
      fragmentPayloadLength aead piece.length < 65536 := by
  obtain ⟨encrypted, hfragment, hencrypted, -⟩ := h.payload
  rw [hpayload, Option.some.injEq] at hfragment
  subst hfragment
  have hpos := paddingLen_pos haead piece.length
  have hne : encrypted.length ≠ 0 := by
    rw [hencrypted, computeOverhead]
    rw [paddingLen] at hpos
    omega
  have hlength : fragmentPayloadLength aead piece.length = encrypted.length + 8 := by
    rw [fragmentPayloadLength, hencrypted, Nat.add_comm]
  have hgenerate : (Payload.fragment
      { fragmentOf next num count piece with encrypted }).generate.length = encrypted.length + 8 := by
    simp only [Payload.generate, List.length_append, List.length_cons, List.length_nil,
      length_htoun16]
    omega
  rw [hgenerate, hlength, EncryptedFragmentPayload.getLength, if_pos hne, BitVec.toNat_ofNat]
  constructor
  · intro heq
    have hlt := Nat.mod_lt (encrypted.length + 8) (show 0 < 2 ^ 16 by decide)
    omega
  · exact Nat.mod_eq_of_lt

omit this payload draws order rule in
theorem fragmentPayloadLength_mono (haead : aead.Inverts) {len len' : ℕ} (h : len ≤ len') :
    fragmentPayloadLength aead len ≤ fragmentPayloadLength aead len' := by
  have hmono := add_paddingLen_mono haead h
  rw [fragmentPayloadLength, fragmentPayloadLength, computeOverhead, computeOverhead]
  rw [paddingLen, paddingLen] at hmono
  omega

theorem sum_plainLength_iff (hclear : ∀ p ∈ this.payloads, p.getType ≠ .fragment)
    {draws : U16 → Draws} (hpos : 0 < fragLen)
    {packets : List Message}
    (h : this.split order aead draws content fragLen = some (.success, packets)) :
    (packets.map plainLength).sum = (generateContent content).length ↔
      countFragments (generateContent content).length fragLen < 65536 := by
  have hsum := (split_sentAll hclear h).sum_length
  rw [← List.length_flatten, Pieces.flatten_cut, List.length_take] at hsum
  have hlt := Nat.mod_lt (countFragments (generateContent content).length fragLen)
    (show 0 < 65536 by decide)
  have hcount := @lt_countFragments (generateContent content).length fragLen
    (numFragments (generateContent content) fragLen) hpos
  rw [← hsum]
  rw [numFragments] at hcount ⊢
  constructor
  · intro hmin
    have hnot : ¬countFragments (generateContent content).length fragLen % 65536 <
        countFragments (generateContent content).length fragLen := by
      rw [hcount]
      omega
    omega
  · intro hsmall
    rw [Nat.mod_eq_of_lt hsmall] at hcount ⊢
    have hnot := mt hcount.mpr (Nat.lt_irrefl _)
    omega

/-- **The fragments fit** if their number and lengths fit their fields, and the payloads in clear leave
room in the first one. -/
theorem split_iff (haead : aead.Inverts) (hrule : this.getMessageRule = some rule)
    (hencrypted : rule.encrypted = true) (hclear : ∀ p ∈ this.payloads, p.getType ≠ .fragment)
    {source destination : Host} (hsource : this.packet.source = some source)
    (hdestination : this.packet.destination = some destination)
    (hunclamped : NeverClamps source destination aead fragLen) {draws : U16 → Draws}
    {packets : List Message}
    (h : this.split order aead draws content
      (fragmentLength aead (messageLength source destination fragLen)) = some (.success, packets)) :
    ((∀ packet ∈ packets, packet.packet.datagramLength ≤ configuredLength source fragLen) ∧
        NumberedExactly (generateContent content).length packets) ↔
      SplitFits aead (headersLength source destination) (configuredLength source fragLen)
        (clearLength (this.payloads.filter (·.getType ≠ .encrypted))) (generateContent content).length
        (fragmentLength aead (messageLength source destination fragLen)) := by
  obtain ⟨hlength, hof⟩ := split_fragmentOf haead hrule hencrypted hclear h
  have hroom : ∀ {len : ℕ}, len ≤ fragmentLength aead (messageLength source destination fragLen) →
      headersLength source destination + (28 + 0 + fragmentPayloadLength aead len) ≤
        configuredLength source fragLen := by
    intro len hlen
    have hle := length_le_of_contentLength haead hunclamped hlen
    rw [hunclamped.messageLength_eq] at hle
    have hlt := hunclamped.lt_configured
    rw [fragmentPayloadLength]
    omega
  have hpos : 0 < fragmentLength aead (messageLength source destination fragLen) :=
    reduceFragLen_pos _ _
  generalize fragmentLength aead (messageLength source destination fragLen) = len at *
  have hsum := sum_plainLength_iff hclear hpos h
  generalize generateContent content = data at *
  have hpiece : ∀ k, ((data.drop (k * len)).take len).length = min len (data.length - k * len) := by
    intro k
    rw [List.length_take, List.length_drop]
  constructor
  · rintro ⟨hdatagram, hall, hexact⟩
    have hcount := hsum.mp hall
    have hfirst : data.length ≠ 0 → ∃ fragment, packets[0]? = some fragment := by
      intro hne
      have hzero : 0 < countFragments data.length len :=
        (lt_countFragments hpos).mpr (by omega)
      refine ⟨_, List.getElem?_eq_getElem (show 0 < packets.length from ?_)⟩
      rw [hlength, numFragments, Nat.mod_eq_of_lt hcount]
      exact hzero
    have hmin : ((data.drop (0 * len)).take len).length = min data.length len := by
      rw [hpiece, Nat.zero_mul, Nat.sub_zero, Nat.min_comm]
    refine ⟨hcount, fun hne => ?_, fun hne => ?_⟩
    · obtain ⟨fragment, hfragment⟩ := hfirst hne
      obtain ⟨payload, hpayload, -, -, -, hfield⟩ := hexact 0 fragment hfragment
      rw [← hmin]
      exact ((hof 0 fragment hfragment).length_exact_iff haead hpayload).mp hfield
    · obtain ⟨fragment, hfragment⟩ := hfirst hne
      have hle := hdatagram fragment (List.mem_of_getElem? hfragment)
      rw [(hof 0 fragment hfragment).datagramLength_eq hsource hdestination, hmin] at hle
      exact hle
  · rintro ⟨hcount, hfield, hfirst⟩
    have hn : packets.length = countFragments data.length len := by
      rw [hlength, numFragments, Nat.mod_eq_of_lt hcount]
    -- a fragment has some of the contents, and at most as much as the first one
    have hk : ∀ k fragment, packets[k]? = some fragment → k < packets.length ∧ data.length ≠ 0 ∧
        0 < ((data.drop (k * len)).take len).length ∧
        ((data.drop (k * len)).take len).length ≤ min data.length len := by
      intro k fragment hfragment
      obtain ⟨hlt, -⟩ := List.getElem?_eq_some_iff.mp hfragment
      have hstart := (lt_countFragments hpos).mp (hn ▸ hlt)
      rw [hpiece]
      exact ⟨hlt, by omega, by omega, by omega⟩
    refine ⟨fun fragment hmem => ?_, hsum.mpr hcount, fun k fragment hfragment => ?_⟩
    · obtain ⟨k, hfragment⟩ := List.getElem?_of_mem hmem
      obtain ⟨hlt, hne, -, hle⟩ := hk k fragment hfragment
      rw [(hof k fragment hfragment).datagramLength_eq hsource hdestination]
      split_ifs with hone
      · refine le_trans ?_ (hfirst hne)
        exact Nat.add_le_add_left (Nat.add_le_add_left (fragmentPayloadLength_mono haead hle) _) _
      · exact hroom (hle.trans (Nat.min_le_right _ _))
    · obtain ⟨hlt, hne, hnonempty, hle⟩ := hk k fragment hfragment
      have hfragmentOf := hof k fragment hfragment
      obtain ⟨encrypted, hpayload, -, -⟩ := hfragmentOf.payload
      refine ⟨_, hpayload, List.length_pos_iff.mp hnonempty, ?_, ?_, ?_⟩
      · show (BitVec.ofNat 16 (k + 1)).toNat = k + 1
        rw [BitVec.toNat_ofNat, Nat.mod_eq_of_lt (by omega)]
      · show (BitVec.ofNat 16 packets.length).toNat = packets.length
        rw [BitVec.toNat_ofNat, Nat.mod_eq_of_lt (by omega)]
      · exact (hfragmentOf.length_exact_iff haead hpayload).mpr
          ((fragmentPayloadLength_mono haead hle).trans_lt (hfield hne))

end fragments

section whole

variable (this : Message) (order : List PayloadOrder) (aead : Aead) (encoded : Option (List Payload))
  (source destination : Host) (fragLen : ℕ)

/-- The Encrypted payload of a message. -/
def encryption : Wrapped := .payloads (this.encryptedPayloads order aead encoded)

/-- The length of the message as it is predicted, unless it was encoded before. -/
def announcedLength : ℕ :=
  if this.packet.data ≠ [] then this.packet.data.length
  else 28 + ((this.encryption order aead encoded).getLength aead).toNat

/-- The length of the message in one packet. -/
def wholeLength : ℕ :=
  if this.packet.data ≠ [] then this.packet.data.length
  else 28 + (this.encryption order aead encoded).fullLength aead

/-- The length of the payloads that a message that was encoded before has in clear. -/
def encodedClearLength : ℕ :=
  if this.packet.data ≠ [] then clearLength (this.payloads.filter (·.getType ≠ .encrypted)) else 0

/-- All datagrams fit. The fragments have all contents and exact numbers and lengths, and there are
none if the message fits in one packet, whose length is exact as well. -/
structure FragmentsFit (fragmented : Bool) (packets : List Message) : Prop where
  datagram_le : ∀ packet ∈ packets,
    packet.packet.datagramLength ≤ configuredLength source fragLen
  numbered : fragmented = true →
    NumberedExactly (generateContent (this.encryptedPayloads order aead encoded)).length packets
  whole : fragmented = false → ∃ packet, packets = [packet] ∧ (this.packet.data = [] →
    ∃ payload, packet.payloads = [payload] ∧ payload.getLength.toNat = payload.generate.length)
  fits : headersLength source destination + this.wholeLength order aead encoded ≤
    configuredLength source fragLen → fragmented = false

def FitsWhen : Prop :=
  if headersLength source destination + this.announcedLength order aead encoded ≤
      configuredLength source fragLen then
    this.packet.data = [] → (this.encryption order aead encoded).fullLength aead < 65536
  else SplitFits aead (headersLength source destination) (configuredLength source fragLen)
    this.encodedClearLength (generateContent (this.encryptedPayloads order aead encoded)).length
    (fragmentLength aead (messageLength source destination fragLen))

/-- A message of an exchange that is encrypted, and that is no fragment itself. -/
structure IsEncrypted : Prop where
  rule : ∃ rule, this.getMessageRule = some rule ∧ rule.encrypted = true
  encoded : this.packet.data ≠ [] → encoded ≠ none
  clear : ∀ p ∈ this.payloads, p.getType ≠ .fragment

variable {this order aead encoded source destination fragLen} {draws : U16 → Draws}
  {fragmented : Bool} {packets : List Message}

/-- A message in one packet. -/
structure SentWhole (this : Message) (order : List PayloadOrder) (aead : Aead)
    (encoded : Option (List Payload)) (packet : Message) : Prop where
  source_eq : packet.packet.source = this.packet.source
  destination_eq : packet.packet.destination = this.packet.destination
  length_eq : packet.packet.data.length = this.wholeLength order aead encoded
  exact_iff : this.packet.data = [] → ∃ payload, packet.payloads = [payload] ∧
    (payload.getLength.toNat = payload.generate.length ↔
      (this.encryption order aead encoded).fullLength aead < 65536)

theorem split_of_map_true {split : Option (Status × List Message)}
    (h : split.map (fun (status, fragments) => (status, true, fragments)) =
      some (Status.success, fragmented, packets)) :
    fragmented = true ∧ split = some (.success, packets) := by
  obtain ⟨⟨status, fragments⟩, hsplit, heq⟩ := Option.map_eq_some_iff.mp h
  cases heq
  exact ⟨rfl, hsplit⟩

/-- **How a message is sent**: in one packet or split, by the length that is predicted. -/
theorem fragment_cases (haead : aead.Inverts) (hencrypted : IsEncrypted this encoded)
    (hsource : this.packet.source = some source)
    (hdestination : this.packet.destination = some destination)
    (h : this.fragment order (some aead) draws encoded fragLen =
      some (.success, fragmented, packets)) :
    (this.packet.data = [] → (this.encryption order aead encoded).Fresh) ∧
      ((this.announcedLength order aead encoded ≤ messageLength source destination fragLen ∧
        fragmented = false ∧ ∃ packet, packets = [packet] ∧
          SentWhole this order aead encoded packet) ∨
      (messageLength source destination fragLen < this.announcedLength order aead encoded ∧
        fragmented = true ∧ ∃ generated : Message, OnlyPayloads this generated ∧
          (∀ p ∈ generated.payloads, p.getType ≠ .fragment) ∧
          clearLength (generated.payloads.filter (·.getType ≠ .encrypted)) =
            this.encodedClearLength ∧
          generated.split order aead draws (this.encryptedPayloads order aead encoded)
            (fragmentLength aead (messageLength source destination fragLen)) =
              some (.success, packets))) := by
  obtain ⟨⟨rule, hrule, hruleEncrypted⟩, hencoded, hclear⟩ := hencrypted
  unfold fragment at h
  rw [hsource, hdestination] at h
  dsimp only at h
  by_cases hdata : this.packet.data ≠ []
  · obtain ⟨content, rfl⟩ := Option.ne_none_iff_exists'.mp (hencoded hdata)
    have hannounced : this.announcedLength order aead (some content) = this.packet.data.length :=
      if_pos hdata
    have hcontent : this.encryptedPayloads order aead (some content) = content := if_pos hdata
    simp only [if_pos hdata, Option.map_some] at h
    refine ⟨fun hempty => absurd hempty hdata, ?_⟩
    split_ifs at h with hle
    · cases h
      exact .inl ⟨hannounced.trans_le hle, rfl, this, rfl, rfl, rfl, (if_pos hdata).symm,
        fun hempty => absurd hempty hdata⟩
    · have hsplit := split_of_map_true h
      refine .inr ⟨hannounced ▸ Nat.lt_of_not_le hle, hsplit.1, this, ⟨_, _, rfl⟩, hclear,
        (if_pos hdata).symm, ?_⟩
      rw [hcontent]
      exact hsplit.2
  · simp only [if_neg hdata] at h
    split at h
    · rename_i generated wrapped hgenerated
      obtain ⟨hmessage, rfl, hcontentClear⟩ :=
        generateMessage_eq hrule hruleEncrypted hclear hgenerated
      have hempty : generated.payloads = [] := by rw [hmessage]
      have honly : OnlyPayloads this generated := by
        rw [hmessage]
        exact (orderPayloads_spec order this).1.trans ⟨_, _, rfl⟩
      have hcontent : this.encryptedPayloads order aead encoded =
          (this.orderPayloads order).payloads := by
        rw [encryptedPayloads, if_neg hdata, hgenerated]
        rfl
      have hannounced : this.announcedLength order aead encoded =
          (generated.generateFront .none 0).length +
            ((Wrapped.payloads (this.orderPayloads order).payloads).getLength aead).toNat := by
        rw [announcedLength, if_neg hdata, encryption, hcontent, length_generateFront, hempty]
        rfl
      dsimp only at h
      refine ⟨fun _ => ?_, ?_⟩
      · rw [encryption, hcontent]
        exact hcontentClear
      split_ifs at h with hle
      · rw [Option.some.injEq, Prod.mk.injEq, Prod.mk.injEq] at h
        obtain ⟨hstatus, rfl, rfl⟩ := h
        obtain ⟨encrypted, _, hencrypt, hpayloads, hsource', hdestination', hlength⟩ :=
          finalizeMessage_spec hempty (Prod.ext hstatus rfl)
        have hfull : 4 + encrypted.length =
            (this.encryption order aead encoded).fullLength aead := by
          rw [length_encryptContent haead hencrypt, encryption, hcontent]
          rfl
        refine .inl ⟨hannounced.trans_le hle, rfl, _, rfl, ?_, ?_, ?_, fun _ => ?_⟩
        · rw [hsource', honly.packet_eq]
        · rw [hdestination', honly.packet_eq]
        · rw [hlength, wholeLength, if_neg hdata, hfull]
        · refine ⟨_, hpayloads, ?_⟩
          have hfield := @Payload.getLength_eq
            ((Wrapped.payloads (this.orderPayloads order).payloads).sealed encrypted)
            (show PayloadType.encrypted ≠ .fragment by decide)
          rw [hfield, Wrapped.length_generate_sealed,
            show (Wrapped.payloads (this.orderPayloads order).payloads).headerLength = 4 from rfl,
            hfull, BitVec.toNat_ofNat]
          constructor
          · intro heq
            have hlt := Nat.mod_lt ((this.encryption order aead encoded).fullLength aead)
              (show 0 < 2 ^ 16 by decide)
            omega
          · exact Nat.mod_eq_of_lt
      · have hsplit := split_of_map_true h
        refine .inr ⟨hannounced ▸ Nat.lt_of_not_le hle, hsplit.1, generated, honly, ?_, ?_, ?_⟩
        · rw [hempty]
          exact fun p hp => nomatch hp
        · rw [hempty, encodedClearLength, if_neg hdata]
          rfl
        · rw [hcontent]
          exact hsplit.2
    · rename_i hne _
      rw [Option.some.injEq, Prod.mk.injEq] at h
      exact (hne h.1).elim

theorem announcedLength_le (haead : aead.Inverts)
    (hfresh : this.packet.data = [] → (this.encryption order aead encoded).Fresh) :
    this.announcedLength order aead encoded ≤ this.wholeLength order aead encoded ∧
      ((this.packet.data = [] → (this.encryption order aead encoded).fullLength aead < 65536) →
        this.announcedLength order aead encoded = this.wholeLength order aead encoded) := by
  rw [announcedLength, wholeLength]
  split_ifs with hdata
  · exact ⟨le_rfl, fun _ => rfl⟩
  · have hempty := not_not.mp hdata
    refine ⟨Nat.add_le_add_left (Wrapped.getLength_le haead (hfresh hempty)) 28, fun hfull => ?_⟩
    rw [Wrapped.getLength_eq (hfresh hempty) (hfull hempty), BitVec.toNat_ofNat,
      Nat.mod_eq_of_lt (hfull hempty)]

/-- **All datagrams fit** exactly if the numbers and lengths do not overflow, and payloads in clear leave
room. -/
theorem fragments_exact (haead : aead.Inverts) (hencrypted : IsEncrypted this encoded)
    (hsource : this.packet.source = some source)
    (hdestination : this.packet.destination = some destination)
    (hunclamped : NeverClamps source destination aead fragLen)
    (h : this.fragment order (some aead) draws encoded fragLen =
      some (.success, fragmented, packets)) :
    this.FragmentsFit order aead encoded source destination fragLen fragmented packets ↔
      this.FitsWhen order aead encoded source destination fragLen := by
  have hlimit : ∀ len, headersLength source destination + len ≤ configuredLength source fragLen ↔
      len ≤ messageLength source destination fragLen := by
    intro len
    have hlt := hunclamped.lt_configured
    rw [hunclamped.messageLength_eq]
    omega
  obtain ⟨hfresh, hcases⟩ := fragment_cases haead hencrypted hsource hdestination h
  obtain ⟨hannounced, hexact⟩ := announcedLength_le haead hfresh
  obtain ⟨hle, rfl, packet, rfl, hwhole⟩ | ⟨hlt, rfl, generated, honly, hclear, hlength, hsplit⟩ :=
    hcases
  · rw [FitsWhen, if_pos ((hlimit _).mpr hle)]
    constructor
    · intro hfit hdata
      obtain ⟨packet', hpacket, hpayloads⟩ := hfit.whole rfl
      obtain rfl := List.singleton_inj.mp hpacket
      obtain ⟨payload, hpayload, hfield⟩ := hpayloads hdata
      obtain ⟨payload', hpayload', hiff⟩ := hwhole.exact_iff hdata
      obtain rfl := List.singleton_inj.mp (hpayload.symm.trans hpayload')
      exact hiff.mp hfield
    · intro hfull
      refine ⟨fun packet' hpacket => ?_, fun hfalse => (Bool.false_ne_true hfalse).elim,
        fun _ => ⟨packet, rfl, fun hdata => ?_⟩, fun _ => rfl⟩
      · obtain rfl := List.mem_singleton.mp hpacket
        rw [datagramLength_eq (hwhole.source_eq.trans hsource)
          (hwhole.destination_eq.trans hdestination), hlimit, hwhole.length_eq,
          ← hexact hfull]
        exact hle
      · obtain ⟨payload, hpayload, hiff⟩ := hwhole.exact_iff hdata
        exact ⟨payload, hpayload, hiff.mpr (hfull hdata)⟩
  · rw [FitsWhen, if_neg (mt (hlimit _).mp (Nat.not_le.mpr hlt)), ← hlength]
    obtain ⟨rule, hrule, hruleEncrypted⟩ := hencrypted.rule
    have hsplit := split_iff haead (honly.getMessageRule_eq.trans hrule) hruleEncrypted hclear
      ((congrArg Packet.source honly.packet_eq).trans hsource)
      ((congrArg Packet.destination honly.packet_eq).trans hdestination) hunclamped hsplit
    rw [← hsplit]
    constructor
    · exact fun hfit => ⟨hfit.datagram_le, hfit.numbered rfl⟩
    · rintro ⟨hdatagram, hnumbered⟩
      refine ⟨hdatagram, fun _ => hnumbered, fun hfalse => (Bool.noConfusion hfalse), fun hfits => ?_⟩
      rw [hlimit] at hfits
      omega

end whole

/-- The addresses of the example. -/
def exampleHost (last : U8) : Host := .ofLast last 500

theorem exampleRequest_isEncrypted {payloads : List Payload}
    (h : ∀ p ∈ payloads, p.getType ≠ .fragment) : IsEncrypted (exampleRequest payloads) none where
  rule := ⟨_, rfl, rfl⟩
  encoded hdata := absurd rfl hdata
  clear := h

/-- Four fragments of a notify fit in datagrams of 79 bytes. -/
theorem fragments_exact_notify : ∃ packets,
    (exampleRequest [.plain .notify .none 0 [0, 0, 0x40]]).fragment [] (some Wrapped.nullAead)
        (fun _ => Wrapped.zeroDraws) none 79 = some (.success, true, packets) ∧
      packets.length = 4 ∧ (exampleRequest [.plain .notify .none 0 [0, 0, 0x40]]).FragmentsFit []
        Wrapped.nullAead none (exampleHost 1) (exampleHost 2) 79 true packets := by
  have hresult : ((exampleRequest [.plain .notify .none 0 [0, 0, 0x40]]).fragment []
      (some Wrapped.nullAead) (fun _ => Wrapped.zeroDraws) none 79).map (fun result =>
        (result.1, result.2.1, result.2.2.length)) = some (.success, true, 4) := by
    decide
  obtain ⟨⟨status, fragmented, packets⟩, hfragment, heq⟩ := Option.map_eq_some_iff.mp hresult
  obtain ⟨rfl, rfl, hlength⟩ : status = .success ∧ fragmented = true ∧ packets.length = 4 := by
    simpa using heq
  have hencrypted := @exampleRequest_isEncrypted [.plain .notify .none 0 [0, 0, 0x40]] (by
    intro p hp
    rw [List.mem_singleton.mp hp]
    decide)
  have hunclamped : NeverClamps (exampleHost 1) (exampleHost 2) Wrapped.nullAead 79 := by
    show 2 ≤ _
    decide
  have hlong : ¬headersLength (exampleHost 1) (exampleHost 2) +
      (exampleRequest [.plain .notify .none 0 [0, 0, 0x40]]).announcedLength [] Wrapped.nullAead none ≤
        configuredLength (exampleHost 1) 79 := by decide
  have hwhen : (exampleRequest [.plain .notify .none 0 [0, 0, 0x40]]).FitsWhen [] Wrapped.nullAead none
      (exampleHost 1) (exampleHost 2) 79 := by
    rw [FitsWhen, if_neg hlong]
    exact ⟨by decide, fun _ => by decide, fun _ => by decide⟩
  refine ⟨packets, hfragment, hlength, ?_⟩
  exact (fragments_exact Wrapped.nullAead_inverts hencrypted rfl rfl hunclamped hfragment).mpr hwhen

def twoNotifies (body : Chunk) : Message :=
  exampleRequest [.plain .notify .none 0 body, .plain .notify .none 0 body]

theorem exists_generated_twoNotifies (body : Chunk) : ∃ generated : Message,
    generated.payloads = [] ∧
      (twoNotifies body).generateMessage [] (some Wrapped.nullAead) = (.success, generated,
        some (.payloads [.plain .notify .notify 0 body, .plain .notify .none 0 body])) ∧
      (generated.finalizeMessage (some Wrapped.nullAead) Wrapped.zeroDraws
        (some (.payloads [.plain .notify .notify 0 body, .plain .notify .none 0 body]))).1 =
          .success := ⟨_, rfl, rfl, rfl⟩

theorem exists_fragment_twoNotifies {body : Chunk} (h : body.length = 32764) : ∃ packets,
    (twoNotifies body).fragment [] (some Wrapped.nullAead) (fun _ => Wrapped.zeroDraws) none 576 =
        some (.success, false, packets) ∧
      ¬((twoNotifies body).encryption [] Wrapped.nullAead none).fullLength Wrapped.nullAead <
        65536 := by
  obtain ⟨generated, hempty, hgenerate, hfinal⟩ := exists_generated_twoNotifies body
  have hsource : (twoNotifies body).packet.source = some (exampleHost 1) := rfl
  have hdestination : (twoNotifies body).packet.destination = some (exampleHost 2) := rfl
  have hdata : ¬(twoNotifies body).packet.data ≠ [] := not_not_intro rfl
  have hlength : (Wrapped.getLength Wrapped.nullAead
      (.payloads [.plain .notify .notify 0 body, .plain .notify .none 0 body])).toNat = 17 := by
    rw [Wrapped.getLength]
    simp only [List.map_cons, List.map_nil, Payload.getLength, h]
    decide
  have hle : (generated.generateFront .none 0).length + (Wrapped.getLength Wrapped.nullAead
      (.payloads [.plain .notify .notify 0 body, .plain .notify .none 0 body])).toNat ≤
        messageLength (exampleHost 1) (exampleHost 2) 576 := by
    rw [length_generateFront, hempty, hlength]
    decide
  refine ⟨[(generated.finalizeMessage (some Wrapped.nullAead) Wrapped.zeroDraws
    (some (.payloads [.plain .notify .notify 0 body, .plain .notify .none 0 body]))).2], ?_, ?_⟩
  · unfold fragment
    rw [hsource, hdestination]
    simp only [if_neg hdata, hgenerate, if_pos hle, hfinal]
  · have hcontent : (generateContent
        [.plain .notify .notify 0 body, .plain .notify .none 0 body]).length = 65536 := by
      rw [length_generateContent]
      simp only [List.map_cons, List.map_nil, List.sum_cons, List.sum_nil, Payload.generate,
        List.length_append, List.length_cons, List.length_nil, length_htoun16, h]
      rfl
    have hencryption : (twoNotifies body).encryption [] Wrapped.nullAead none =
        .payloads [.plain .notify .notify 0 body, .plain .notify .none 0 body] := by
      rw [encryption, encryptedPayloads, if_neg hdata, hgenerate]
      rfl
    rw [hencryption, Wrapped.fullLength, Wrapped.plain, hcontent]
    omega

/-- The length of two large notifies is truncated, so that they are sent in one packet. -/
theorem not_fragments_fit : ¬ ∀ (this : Message) (order : List PayloadOrder) (aead : Aead)
    (draws : U16 → Draws) (encoded : Option (List Payload)) (source destination : Host) (fragLen : ℕ)
    (fragmented : Bool) (packets : List Message), aead.Inverts → IsEncrypted this encoded →
      this.packet.source = some source → this.packet.destination = some destination →
      NeverClamps source destination aead fragLen →
      this.fragment order (some aead) draws encoded fragLen =
        some (.success, fragmented, packets) →
      this.FragmentsFit order aead encoded source destination fragLen fragmented packets := by
  intro hall
  have hbody : (List.replicate 32764 0 : Chunk).length = 32764 := List.length_replicate
  generalize (List.replicate 32764 0 : Chunk) = body at hbody
  obtain ⟨packets, hfragment, hlarge⟩ := exists_fragment_twoNotifies hbody
  have hencrypted : IsEncrypted (twoNotifies body) none := exampleRequest_isEncrypted (by
    intro p hp
    obtain rfl | hp := List.mem_cons.mp hp
    · exact fun htype => nomatch htype
    · rw [List.mem_singleton.mp hp]
      exact fun htype => nomatch htype)
  have hunclamped : NeverClamps (exampleHost 1) (exampleHost 2) Wrapped.nullAead 576 := by
    show 2 ≤ _
    decide
  have hsource : (twoNotifies body).packet.source = some (exampleHost 1) := rfl
  have hdestination : (twoNotifies body).packet.destination = some (exampleHost 2) := rfl
  have hfit := hall (twoNotifies body) [] Wrapped.nullAead (fun _ => Wrapped.zeroDraws) none
    (exampleHost 1) (exampleHost 2) 576 false packets Wrapped.nullAead_inverts hencrypted hsource
    hdestination hunclamped hfragment
  obtain ⟨-, hcases⟩ :=
    fragment_cases Wrapped.nullAead_inverts hencrypted hsource hdestination hfragment
  obtain ⟨-, -, packet, rfl, hwhole⟩ | ⟨-, htrue, -⟩ := hcases
  · obtain ⟨packet', hpacket, hexact⟩ := hfit.whole rfl
    obtain rfl := List.singleton_inj.mp hpacket
    obtain ⟨payload, hpayload, hfield⟩ := hexact rfl
    obtain ⟨payload', hpayload', hiff⟩ := hwhole.exact_iff rfl
    obtain rfl := List.singleton_inj.mp (hpayload.symm.trans hpayload')
    exact hlarge (hiff.mp hfield)
  · exact Bool.false_ne_true htrue

end Message

end StrongSwan
