import StrongSwan.Ipsec.IpPacket

/-!
# What is read from an IP packet

* `skipExtensions`: the chain of extension headers of an IPv6 packet; `parsePayloadV6_eq`: it is
  skipped, and then the transport header is parsed.
* `ipPacketCreate_take`: nothing behind the length of the header is looked at.
* **`clone_exact`**: a packet is its own clone, unless the length field of an IPv4 header is less
  than the header.
* `walk_eq`: the walk over the extension headers ends, and reads nothing outside of the packet.
* **`transport_exact`**: the ports are those of the payload, unless an IPv4 header is said to be
  shorter than it is, or an IPv6 packet ends before its transport header.
-/

namespace StrongSwan

namespace IpPacket

variable {packet : Chunk} {ip : IpPacket}

/-! ## The fields of the header -/

/-- The version in the first byte. -/
def versionOf (packet : Chunk) : U8 := (byteAt packet 0 &&& 0xf0) >>> 4

/-- The length of the header without options. -/
def fixedHeader (version : U8) : ℕ := if version = 4 then 20 else 40

/-- The length of the packet, as its header has it. -/
def lengthField (packet : Chunk) : ℕ :=
  if versionOf packet = 4 then (untoh16 (packet.drop 2)).toNat
  else 40 + (untoh16 (packet.drop 4)).toNat

/-- `ip_hl`: the length of an IPv4 header, in 32-bit words. -/
def headerLength (packet : Chunk) : ℕ := (byteAt packet 0 &&& 0x0f).toNat

/-- The packet without extra padding. -/
def trimmed (packet : Chunk) : Chunk := packet.take (lengthField packet)

theorem byteAt_take {n i : ℕ} (h : i < n) : byteAt (packet.take n) i = byteAt packet i := by
  rw [byteAt, byteAt, List.getD_eq_getElem?_getD, List.getD_eq_getElem?_getD,
    List.getElem?_take_of_lt h]

theorem take_drop_take {n i k : ℕ} (h : i + k ≤ n) :
    ((packet.take n).drop i).take k = (packet.drop i).take k := by
  rw [List.drop_take, List.take_take, Nat.min_eq_left (by omega)]

theorem untoh16_drop_take {n i : ℕ} (h : i + 2 ≤ n) :
    untoh16 ((packet.take n).drop i) = untoh16 (packet.drop i) := by
  rw [untoh16, untoh16, take_drop_take h]

theorem versionOf_take {n : ℕ} (h : 0 < n) : versionOf (packet.take n) = versionOf packet := by
  rw [versionOf, versionOf, byteAt_take h]

/-! ## The packet of a header -/

theorem ipPacketCreate_v4 (hversion : versionOf packet = 4) :
    ipPacketCreate packet =
      if packet.length < 20 then none
      else
        let payload := (packet.take (untoh16 (packet.drop 2)).toNat).drop (headerLength packet * 4)
        (if untoh16 (packet.drop 6) &&& 0x1fff ≠ 0 then some (0, 0)
          else parseTransportHeader payload (byteAt packet 9)).bind fun ports =>
          (hostCreateFromChunk .inet ((packet.drop 12).take 4) ports.1).bind fun src =>
            (hostCreateFromChunk .inet ((packet.drop 16).take 4) ports.2).map fun dst =>
              ⟨src, dst, packet.take (untoh16 (packet.drop 2)).toNat, payload, 4,
                byteAt packet 9⟩ := by
  rw [versionOf] at hversion
  rw [ipPacketCreate]
  dsimp only
  rw [hversion, if_pos rfl]
  by_cases h : packet.length < 1
  · rw [if_pos h, if_pos (by omega)]
  · rw [if_neg h]
    rfl

theorem ipPacketCreate_v6 (hversion : versionOf packet = 6) :
    ipPacketCreate packet =
      if packet.length < 40 then none
      else
        let trimmed := packet.take (40 + (untoh16 (packet.drop 4)).toNat)
        (parsePayloadV6 (trimmed.drop 40) (byteAt packet 6) false).bind
          fun (payload, proto, sport, dport) =>
            (hostCreateFromChunk .inet6 ((packet.drop 8).take 16) sport).bind fun src =>
              (hostCreateFromChunk .inet6 ((packet.drop 24).take 16) dport).map fun dst =>
                ⟨src, dst, trimmed, payload, 6, proto⟩ := by
  rw [versionOf] at hversion
  rw [ipPacketCreate]
  dsimp only
  rw [hversion, if_neg (show ¬(6 : U8) = 4 by decide), if_pos rfl]
  by_cases h : packet.length < 1
  · rw [if_pos h, if_pos (by omega)]
  · rw [if_neg h]
    rfl

theorem lengthField_v4 (hversion : versionOf packet = 4) :
    lengthField packet = (untoh16 (packet.drop 2)).toNat := by
  rw [lengthField, if_pos hversion]

theorem lengthField_v6 (hversion : versionOf packet = 6) :
    lengthField packet = 40 + (untoh16 (packet.drop 4)).toNat := by
  rw [lengthField, if_neg (by rw [hversion]; decide)]

theorem version_of_create (h : ipPacketCreate packet = some ip) :
    versionOf packet = 4 ∨ versionOf packet = 6 := by
  by_contra hno
  rw [not_or, versionOf] at hno
  rw [ipPacketCreate] at h
  dsimp only at h
  rw [if_neg hno.1, if_neg hno.2, ite_self] at h
  cases h

/-- **What is behind the length in the header, and behind the header, is not looked at.** -/
theorem ipPacketCreate_take {n : ℕ} (hheader : fixedHeader (versionOf packet) ≤ n)
    (hlength : lengthField packet ≤ n) :
    ipPacketCreate (packet.take n) = ipPacketCreate packet := by
  by_cases hn : packet.length < n
  · rw [List.take_of_length_le hn.le]
  rw [not_lt] at hn
  have hsize : 20 ≤ fixedHeader (versionOf packet) := by
    rw [fixedHeader]
    split_ifs <;> omega
  have hsame : versionOf (packet.take n) = versionOf packet := versionOf_take (by omega)
  by_cases h4 : versionOf packet = 4
  · rw [lengthField_v4 h4] at hlength
    rw [ipPacketCreate_v4 h4, ipPacketCreate_v4 (hsame.trans h4), headerLength, headerLength,
      byteAt_take (by omega), byteAt_take (by omega), untoh16_drop_take (by omega),
      untoh16_drop_take (by omega), List.take_take, Nat.min_eq_left hlength,
      take_drop_take (by omega), take_drop_take (by omega), List.length_take,
      Nat.min_eq_left hn, if_neg (by omega), if_neg (by omega)]
  by_cases h6 : versionOf packet = 6
  · rw [fixedHeader, if_neg h4] at hheader
    rw [lengthField_v6 h6] at hlength
    rw [ipPacketCreate_v6 h6, ipPacketCreate_v6 (hsame.trans h6), byteAt_take (by omega),
      untoh16_drop_take (by omega), List.take_take, Nat.min_eq_left hlength,
      take_drop_take (by omega), take_drop_take (by omega), List.length_take,
      Nat.min_eq_left hn, if_neg (by omega), if_neg (by omega)]
  have hnone : ∀ p : Chunk, versionOf p = versionOf packet → ipPacketCreate p = none := by
    intro p hp
    rw [Option.eq_none_iff_forall_ne_some]
    intro ip hip
    rcases version_of_create hip with h | h
    · exact h4 (hp ▸ h)
    · exact h6 (hp ▸ h)
  rw [hnone _ hsame, hnone _ rfl]

theorem packet_of_create (h : ipPacketCreate packet = some ip) :
    ip.packet = trimmed packet ∧ ip.version = versionOf packet ∧
      fixedHeader (versionOf packet) ≤ packet.length := by
  rcases version_of_create h with h4 | h6
  · rw [ipPacketCreate_v4 h4] at h
    dsimp only at h
    split at h
    · cases h
    obtain ⟨ports, -, h⟩ := Option.bind_eq_some_iff.mp h
    obtain ⟨src, -, h⟩ := Option.bind_eq_some_iff.mp h
    obtain ⟨dst, -, rfl⟩ := Option.map_eq_some_iff.mp h
    rw [trimmed, lengthField_v4 h4, h4]
    exact ⟨rfl, rfl, by rw [fixedHeader, if_pos rfl]; omega⟩
  · rw [ipPacketCreate_v6 h6] at h
    dsimp only at h
    split at h
    · cases h
    obtain ⟨⟨payload, proto, sport, dport⟩, -, h⟩ := Option.bind_eq_some_iff.mp h
    obtain ⟨src, -, h⟩ := Option.bind_eq_some_iff.mp h
    obtain ⟨dst, -, rfl⟩ := Option.map_eq_some_iff.mp h
    rw [trimmed, lengthField_v6 h6, h6]
    exact ⟨rfl, rfl, by rw [fixedHeader, if_neg (by decide)]; omega⟩

/-- **A packet is its own clone if and only if it has a whole header**, which the length field of an
IPv4 header may deny. -/
theorem clone_exact (h : ipPacketCreate packet = some ip) :
    (ip.clone = some ip ∧ fixedHeader ip.version ≤ ip.packet.length) ↔
      (versionOf packet = 4 → 20 ≤ (untoh16 (packet.drop 2)).toNat) := by
  obtain ⟨hpacket, hversion, hheader⟩ := packet_of_create h
  have hlength : ip.packet.length = min (lengthField packet) packet.length := by
    rw [hpacket, trimmed, List.length_take]
  rw [hversion, hlength]
  constructor
  · rintro ⟨-, hle⟩ h4
    rw [h4, fixedHeader, if_pos rfl, lengthField_v4 h4] at hle
    omega
  · intro hfield
    have hle : fixedHeader (versionOf packet) ≤ lengthField packet := by
      rcases version_of_create h with h4 | h6
      · rw [lengthField_v4 h4, h4]
        exact hfield h4
      · rw [lengthField_v6 h6, h6, fixedHeader, if_neg (by decide)]
        omega
    refine ⟨?_, by omega⟩
    rw [clone, hpacket, trimmed, ipPacketCreate_take hle le_rfl, h]

/-- An IPv4 packet without payload, with the given first byte, length field and protocol. -/
def bareV4 (first length proto : U8) : Chunk :=
  [first, 0, 0, length, 0, 0, 0, 0, 64, proto, 0, 0, 10, 0, 0, 1, 10, 0, 0, 2]

theorem clone_exact_bare :
    ∃ ip, ipPacketCreate (bareV4 0x45 20 59) = some ip ∧ ip.clone = some ip := by
  obtain ⟨ip, hip⟩ := Option.isSome_iff_exists.mp
    (show (ipPacketCreate (bareV4 0x45 20 59)).isSome by decide)
  exact ⟨ip, hip, ((clone_exact hip).mpr (by decide)).1⟩

/-- A length field of zero leaves nothing of a packet that was accepted. -/
theorem not_clone : ¬ ∀ packet ip, ipPacketCreate packet = some ip →
    ip.clone = some ip ∧ fixedHeader ip.version ≤ ip.packet.length := by
  intro hall
  obtain ⟨ip, hip⟩ := Option.isSome_iff_exists.mp
    (show (ipPacketCreate (bareV4 0x45 0 59)).isSome by decide)
  have hnone : (ipPacketCreate (bareV4 0x45 0 59)).bind clone = none := by decide
  rw [hip, Option.bind_some, (hall _ ip hip).1] at hnone
  cases hnone

/-! ## The extension headers -/

/-- The extension headers of which the first has a protocol number, what comes behind them, and
its number. -/
def skipExtensions (payload : Chunk) (proto : U8) : List U8 × Chunk × U8 :=
  if _h : payload.length ≥ 2 then
    if isExtension proto then
      let (headers, rest) :=
        skipExtensions (payload.drop (8 * ((byteAt payload 1).toNat + 1))) (byteAt payload 0)
      (proto :: headers, rest)
    else ([], payload, proto)
  else ([], payload, proto)
termination_by payload.length
decreasing_by
  rw [List.length_drop]
  omega

theorem skipExtensions_of_short {payload : Chunk} (proto : U8) (h : payload.length < 2) :
    skipExtensions payload proto = ([], payload, proto) := by
  rw [skipExtensions, dif_neg (by omega)]

theorem skipExtensions_of_upper {proto : U8} (payload : Chunk) (h : isExtension proto = false) :
    skipExtensions payload proto = ([], payload, proto) := by
  rw [skipExtensions, h, if_neg Bool.false_ne_true, dite_eq_ite, ite_self]

theorem skipExtensions_of_extension {payload : Chunk} {proto : U8} (hlen : 2 ≤ payload.length)
    (h : isExtension proto = true) :
    skipExtensions payload proto =
      (proto :: (skipExtensions (payload.drop (8 * ((byteAt payload 1).toNat + 1)))
          (byteAt payload 0)).1,
        (skipExtensions (payload.drop (8 * ((byteAt payload 1).toNat + 1)))
          (byteAt payload 0)).2) := by
  rw [skipExtensions, dif_pos hlen, if_pos h]

theorem skipExtensions_suffix (payload : Chunk) (proto : U8) :
    (skipExtensions payload proto).2.1 <:+ payload := by
  induction payload, proto using skipExtensions.induct with
  | case1 payload proto hlen hext headers rest hrest ih =>
    rw [skipExtensions_of_extension hlen hext]
    exact ih.trans (List.drop_suffix _ _)
  | case2 payload proto hlen hext =>
    rw [skipExtensions_of_upper payload (by simpa using hext)]
  | case3 payload proto hlen =>
    rw [skipExtensions_of_short proto (by omega)]

/-- **The extension headers are skipped, and if at least two bytes are left of a packet that is not
a fragment its transport header is parsed.** -/
theorem parsePayloadV6_eq (payload : Chunk) (proto : U8) (fragment : Bool) :
    parsePayloadV6 payload proto fragment =
      let (headers, rest, upper) := skipExtensions payload proto
      if rest.length < 2 ∨ fragment = true ∨ 44 ∈ headers then some (rest, upper, 0, 0)
      else (parseTransportHeader rest upper).map fun ports => (rest, upper, ports) := by
  induction payload, proto using skipExtensions.induct generalizing fragment with
  | case1 payload proto hlen hext headers rest hrest ih =>
    rw [parsePayloadV6, dif_pos hlen, if_pos hext, ih, skipExtensions_of_extension hlen hext]
    have hmem : ∀ headers : List U8,
        (fragment || decide (proto = 44)) = true ∨ (44 : U8) ∈ headers ↔
          fragment = true ∨ (44 : U8) ∈ proto :: headers := by
      intro headers
      rw [Bool.or_eq_true, decide_eq_true_eq, List.mem_cons, or_assoc, @eq_comm _ proto]
    simp only [hmem]
  | case2 payload proto hlen hext =>
    rw [parsePayloadV6, dif_pos hlen, if_neg hext,
      skipExtensions_of_upper payload (by simpa using hext)]
    by_cases hfragment : fragment = true
    · simp [hfragment]
    · simp [hfragment, show ¬payload.length < 2 by omega]
  | case3 payload proto hlen =>
    rw [parsePayloadV6, dif_neg hlen, skipExtensions_of_short proto (by omega)]
    simp [show payload.length < 2 by omega]

/-! ## Reads -/

/-- Where the walk over the extension headers is: the offset of what is left of the packet, its
protocol number, and whether a fragment header was skipped. -/
structure Walk where
  offset : ℕ
  proto : U8
  fragment : Bool

/-- Read two bytes; there is no result if they are not in the packet. -/
def read16 (packet : Chunk) (offset : ℕ) : Option U16 :=
  if offset + 2 ≤ packet.length then some (untoh16 (packet.drop offset)) else none

/-- `parse_transport_header` by reads at an offset of the packet -/
def readTransportHeader (packet : Chunk) (offset : ℕ) (proto : U8) :
    Option (Option (U16 × U16)) :=
  let read := (read16 packet offset).bind fun sport =>
    (read16 packet (offset + 2)).map fun dport => some (sport, dport)
  if proto = IPPROTO_UDP then if packet.length - offset < 8 then some none else read
  else if proto = IPPROTO_TCP then if packet.length - offset < 20 then some none else read
  else some (some (0, 0))

/-- One round of the loop in `parse_transport_header_v6`, which goes on or has a result; there is
none of both if it reads outside of the packet. -/
def walkRound (packet : Chunk) (walk : Walk) :
    Option (Walk ⊕ Option (Chunk × U8 × U16 × U16)) :=
  let payload := packet.drop walk.offset
  if packet.length - walk.offset ≥ 2 then
    if isExtension walk.proto then
      packet[walk.offset]?.bind fun nxt => packet[walk.offset + 1]?.map fun len =>
        .inl ⟨walk.offset + 8 * (len.toNat + 1), nxt, walk.fragment || walk.proto = 44⟩
    else if walk.fragment then some (.inr (some (payload, walk.proto, 0, 0)))
    else (readTransportHeader packet walk.offset walk.proto).map fun ports =>
      .inr (ports.map fun ports => (payload, walk.proto, ports))
  else some (.inr (some (payload, walk.proto, 0, 0)))

/-- The loop, with as many rounds as are given. -/
def walkRounds (packet : Chunk) : ℕ → Walk → Option (Option (Chunk × U8 × U16 × U16))
  | 0, _ => none
  | rounds + 1, walk => (walkRound packet walk).bind fun
    | .inl walk => walkRounds packet rounds walk
    | .inr result => some result

theorem getElem?_of_le {i : ℕ} (h : i < packet.length) : packet[i]? = some (byteAt packet i) := by
  rw [byteAt, List.getD_eq_getElem?_getD, List.getElem?_eq_getElem h, Option.getD_some]

theorem byteAt_drop (packet : Chunk) (n i : ℕ) : byteAt (packet.drop n) i = byteAt packet (n + i) := by
  rw [byteAt, byteAt, List.getD_eq_getElem?_getD, List.getD_eq_getElem?_getD, List.getElem?_drop]

theorem readTransportHeader_eq (packet : Chunk) (offset : ℕ) (proto : U8) :
    readTransportHeader packet offset proto =
      some (parseTransportHeader (packet.drop offset) proto) := by
  have hread : ∀ n, 4 ≤ n → ¬packet.length - offset < n →
      ((read16 packet offset).bind fun sport =>
        (read16 packet (offset + 2)).map fun dport => some (sport, dport)) =
        some (some (untoh16 (packet.drop offset), untoh16 ((packet.drop offset).drop 2))) := by
    intro n hn hlen
    rw [read16, read16, if_pos (by omega), if_pos (by omega), List.drop_drop]
    rfl
  rw [readTransportHeader, parseTransportHeader, List.length_drop]
  split_ifs with _ hudp _ htcp
  · rfl
  · exact hread 8 (by omega) hudp
  · rfl
  · exact hread 20 (by omega) htcp
  · rfl

/-- **The walk ends, after one round for each eight bytes at most, and all its reads are inside of
the packet.** -/
theorem walk_eq {rounds : ℕ} {walk : Walk} (h : packet.length - walk.offset + 8 ≤ 8 * rounds) :
    walkRounds packet rounds walk =
      some (parsePayloadV6 (packet.drop walk.offset) walk.proto walk.fragment) := by
  induction rounds generalizing walk with
  | zero => omega
  | succ rounds ih =>
    rw [walkRounds, walkRound, parsePayloadV6, List.length_drop]
    by_cases hlen : packet.length - walk.offset ≥ 2
    · rw [if_pos hlen, dif_pos hlen]
      by_cases hext : isExtension walk.proto = true
      · rw [if_pos hext, if_pos hext, getElem?_of_le (by omega), getElem?_of_le (by omega),
          byteAt_drop, byteAt_drop, List.drop_drop]
        exact ih (by dsimp only; omega)
      · rw [if_neg hext, if_neg hext, readTransportHeader_eq]
        by_cases hfragment : walk.fragment = true
        · rw [if_pos hfragment, if_pos hfragment]
          rfl
        · rw [if_neg hfragment, if_neg hfragment]
          rfl
    · rw [if_neg hlen, dif_neg hlen]
      rfl

/-! ## The transport header -/

/-- What is behind the fixed header of an IPv6 packet. -/
def extensionsV6 (packet : Chunk) : List U8 × Chunk × U8 :=
  skipExtensions ((trimmed packet).drop 40) (byteAt packet 6)

/-- Is this not the first fragment of an IPv4 packet, or any fragment of an IPv6 packet? -/
def IsFragment (packet : Chunk) : Prop :=
  if versionOf packet = 4 then untoh16 (packet.drop 6) &&& 0x1fff ≠ 0
  else 44 ∈ (extensionsV6 packet).1

/-- The length of a UDP or TCP header. -/
def transportHeader (proto : U8) : ℕ := if proto = IPPROTO_UDP then 8 else 20

structure HasTransport (ip : IpPacket) : Prop where
  enough : transportHeader ip.nextHeader ≤ ip.payload.length
  behind : ip.payload <:+ ip.packet.drop (fixedHeader ip.version)
  source : ip.src.port = untoh16 ip.payload
  destination : ip.dst.port = untoh16 (ip.payload.drop 2)

theorem port_of_create {family : Family} {address : Chunk} {port : U16} {host : Host}
    (h : hostCreateFromChunk family address port = some host) : host.port = port := by
  rw [hostCreateFromChunk] at h
  split at h
  · cases h
  · cases h
    rfl

theorem parseTransportHeader_spec {payload : Chunk} {proto : U8} {ports : U16 × U16}
    (hproto : proto = IPPROTO_UDP ∨ proto = IPPROTO_TCP)
    (h : parseTransportHeader payload proto = some ports) :
    transportHeader proto ≤ payload.length ∧
      ports = (untoh16 payload, untoh16 (payload.drop 2)) := by
  rw [transportHeader]
  rw [parseTransportHeader] at h
  split_ifs at h ⊢ with hudp hlen htcp hlen
  · exact ⟨not_lt.mp hlen, (Option.some.inj h).symm⟩
  · exact ⟨not_lt.mp hlen, (Option.some.inj h).symm⟩
  · exact absurd hproto (not_or.mpr ⟨hudp, htcp⟩)

theorem create_v4 (h : ipPacketCreate packet = some ip) (h4 : versionOf packet = 4)
    (hfragment : ¬IsFragment packet) :
    ip.payload = ip.packet.drop (headerLength packet * 4) ∧
      parseTransportHeader ip.payload ip.nextHeader = some (ip.src.port, ip.dst.port) := by
  rw [IsFragment, if_pos h4] at hfragment
  rw [ipPacketCreate_v4 h4] at h
  dsimp only at h
  rw [if_neg hfragment] at h
  split at h
  · cases h
  obtain ⟨ports, hports, h⟩ := Option.bind_eq_some_iff.mp h
  obtain ⟨src, hsrc, h⟩ := Option.bind_eq_some_iff.mp h
  obtain ⟨dst, hdst, rfl⟩ := Option.map_eq_some_iff.mp h
  refine ⟨rfl, ?_⟩
  rw [port_of_create hsrc, port_of_create hdst]
  exact hports

theorem create_v6 (h : ipPacketCreate packet = some ip) (h6 : versionOf packet = 6)
    (hfragment : ¬IsFragment packet) :
    ip.payload = (extensionsV6 packet).2.1 ∧
      (2 ≤ ip.payload.length →
        parseTransportHeader ip.payload ip.nextHeader = some (ip.src.port, ip.dst.port)) := by
  rw [IsFragment, if_neg (by rw [h6]; decide), extensionsV6] at hfragment
  rw [ipPacketCreate_v6 h6, ← lengthField_v6 h6] at h
  dsimp only at h
  split at h
  · cases h
  obtain ⟨⟨payload, proto, sport, dport⟩, hparse, h⟩ := Option.bind_eq_some_iff.mp h
  obtain ⟨src, hsrc, h⟩ := Option.bind_eq_some_iff.mp h
  obtain ⟨dst, hdst, rfl⟩ := Option.map_eq_some_iff.mp h
  rw [port_of_create hsrc, port_of_create hdst]
  rw [parsePayloadV6_eq, ← trimmed] at hparse
  dsimp only at hparse ⊢
  rw [extensionsV6]
  split at hparse
  · rename_i hshort
    cases hparse
    refine ⟨rfl, fun hlen => ?_⟩
    rcases hshort with hshort | hshort | hshort
    · omega
    · cases hshort
    · exact absurd hshort hfragment
  · obtain ⟨ports, hports, heq⟩ := Option.map_eq_some_iff.mp hparse
    cases heq
    exact ⟨rfl, fun _ => hports⟩

/-- Does the packet go on behind its fixed header as it should: an IPv4 header is not shorter, and
the extension headers of an IPv6 packet do not end it? -/
def GoesOn (packet : Chunk) : Prop :=
  if versionOf packet = 4 then 5 ≤ headerLength packet
  else 2 ≤ (extensionsV6 packet).2.1.length

theorem hasTransport_v4 (h : ipPacketCreate packet = some ip) (h4 : versionOf packet = 4)
    (hfragment : ¬IsFragment packet)
    (hproto : ip.nextHeader = IPPROTO_UDP ∨ ip.nextHeader = IPPROTO_TCP) :
    ip.HasTransport ↔ 5 ≤ headerLength packet := by
  obtain ⟨hpayload, hparse⟩ := create_v4 h h4 hfragment
  obtain ⟨-, hversion, -⟩ := packet_of_create h
  obtain ⟨henough, hports⟩ := parseTransportHeader_spec hproto hparse
  obtain ⟨hsource, hdestination⟩ := Prod.mk.inj hports
  have hfixed : fixedHeader ip.version = 20 := by rw [hversion, h4, fixedHeader, if_pos rfl]
  have hsome : 8 ≤ ip.payload.length := by
    rw [transportHeader] at henough
    split_ifs at henough <;> omega
  constructor
  · intro hhas
    have hle := hhas.behind.length_le
    rw [hfixed, hpayload, List.length_drop, List.length_drop] at hle
    rw [hpayload, List.length_drop] at hsome
    omega
  · intro hhl
    refine ⟨henough, ?_, hsource, hdestination⟩
    rw [hfixed, hpayload]
    exact List.drop_suffix_drop_left _ (by omega)

theorem hasTransport_v6 (h : ipPacketCreate packet = some ip) (h6 : versionOf packet = 6)
    (hfragment : ¬IsFragment packet)
    (hproto : ip.nextHeader = IPPROTO_UDP ∨ ip.nextHeader = IPPROTO_TCP) :
    ip.HasTransport ↔ 2 ≤ (extensionsV6 packet).2.1.length := by
  obtain ⟨hpayload, hparse⟩ := create_v6 h h6 hfragment
  obtain ⟨hpacket, hversion, -⟩ := packet_of_create h
  rw [← hpayload]
  constructor
  · intro hhas
    have henough := hhas.enough
    rw [transportHeader] at henough
    split_ifs at henough <;> omega
  · intro hlen
    obtain ⟨henough, hports⟩ := parseTransportHeader_spec hproto (hparse hlen)
    obtain ⟨hsource, hdestination⟩ := Prod.mk.inj hports
    refine ⟨henough, ?_, hsource, hdestination⟩
    rw [hpayload, hpacket, hversion, h6, fixedHeader, if_neg (by decide)]
    exact skipExtensions_suffix _ _

/-- **A UDP or TCP packet that is accepted has the ports of the transport header behind its IP
header if and only if it goes on there, and the walk over the extension headers of an IPv6 packet
ends without a read outside of the packet.** -/
theorem transport_exact (packet : Chunk) :
    (∀ ip, ipPacketCreate packet = some ip → ¬IsFragment packet →
      (ip.nextHeader = IPPROTO_UDP ∨ ip.nextHeader = IPPROTO_TCP) →
        (ip.HasTransport ↔ GoesOn packet)) ∧
    (versionOf packet = 6 → 40 ≤ packet.length →
      40 ≤ (trimmed packet).length ∧
      ∀ rounds, (trimmed packet).length ≤ 8 * rounds + 32 →
        walkRounds (trimmed packet) rounds ⟨40, byteAt packet 6, false⟩ =
          some (parseTransportHeaderV6 packet (trimmed packet))) := by
  constructor
  · intro ip h hfragment hproto
    rw [GoesOn]
    rcases version_of_create h with h4 | h6
    · rw [if_pos h4]
      exact hasTransport_v4 h h4 hfragment hproto
    · rw [if_neg (by rw [h6]; decide)]
      exact hasTransport_v6 h h6 hfragment hproto
  · intro h6 hlen
    have htrimmed : 40 ≤ (trimmed packet).length := by
      rw [trimmed, List.length_take, lengthField_v6 h6]
      omega
    exact ⟨htrimmed, fun rounds hrounds => walk_eq (by dsimp only; omega)⟩

/-- An IPv6 packet without payload, with the given next header. -/
def bareV6 (nxt : U8) : Chunk := [0x60, 0, 0, 0, 0, 0, nxt, 64] ++ List.replicate 32 1

/-- An IPv4 packet to port 53, with a UDP header. -/
def udpV4 (first : U8) : Chunk := bareV4 first 28 17 ++ [0x12, 0x34, 0, 53, 0, 8, 0, 0]

theorem transport_exact_udp :
    ∃ ip, ipPacketCreate (udpV4 0x45) = some ip ∧ ip.HasTransport := by
  obtain ⟨ip, hip⟩ := Option.isSome_iff_exists.mp
    (show (ipPacketCreate (udpV4 0x45)).isSome by decide)
  have hproto : (ipPacketCreate (udpV4 0x45)).map nextHeader = some IPPROTO_UDP := by decide
  rw [hip, Option.map_some, Option.some.injEq] at hproto
  have hversion : versionOf (udpV4 0x45) = 4 := by decide
  refine ⟨ip, hip, ((transport_exact (udpV4 0x45)).1 ip hip ?_ (.inl hproto)).mpr ?_⟩
  · rw [IsFragment, if_pos hversion]
    decide
  · rw [GoesOn, if_pos hversion]
    decide

/-- A header length of zero makes the IP header the UDP header, and the payload of an IPv6 packet to
a UDP port may be empty. -/
theorem not_transport :
    (¬ ∀ packet ip, ipPacketCreate packet = some ip → ¬IsFragment packet →
      versionOf packet = 4 → ip.nextHeader = IPPROTO_UDP → ip.HasTransport) ∧
    (¬ ∀ packet ip, ipPacketCreate packet = some ip → ¬IsFragment packet →
      versionOf packet = 6 → ip.nextHeader = IPPROTO_UDP → ip.HasTransport) := by
  constructor
  · intro hall
    obtain ⟨ip, hip⟩ := Option.isSome_iff_exists.mp
      (show (ipPacketCreate (udpV4 0x40)).isSome by decide)
    have hversion : versionOf (udpV4 0x40) = 4 := by decide
    have hproto : (ipPacketCreate (udpV4 0x40)).map nextHeader = some IPPROTO_UDP := by decide
    have hpayload : (ipPacketCreate (udpV4 0x40)).map payload = some (udpV4 0x40) := by decide
    rw [hip, Option.map_some, Option.some.injEq] at hproto hpayload
    have hfragment : ¬IsFragment (udpV4 0x40) := by
      rw [IsFragment, if_pos hversion]
      decide
    have hbehind := (hall _ ip hip hfragment hversion hproto).behind.length_le
    obtain ⟨hpacket, hsame, -⟩ := packet_of_create hip
    rw [hsame, hversion, hpacket, hpayload] at hbehind
    exact absurd hbehind (by decide)
  · intro hall
    have hversion : versionOf (bareV6 17) = 6 := by decide
    have hskip : extensionsV6 (bareV6 17) = ([], [], 17) := by
      rw [extensionsV6, skipExtensions_of_short _ (by decide)]
      decide
    have hcreate : (ipPacketCreate (bareV6 17)).map (fun ip => (ip.nextHeader, ip.payload)) =
        some (IPPROTO_UDP, []) := by
      rw [ipPacketCreate_v6 hversion]
      dsimp only
      rw [parsePayloadV6_eq, skipExtensions_of_short _ (by decide)]
      decide
    obtain ⟨ip, hip, heq⟩ := Option.map_eq_some_iff.mp hcreate
    obtain ⟨hproto, hpayload⟩ := Prod.mk.inj heq
    have hfragment : ¬IsFragment (bareV6 17) := by
      rw [IsFragment, if_neg (by decide), hskip]
      decide
    have henough := (hall _ ip hip hfragment hversion hproto).enough
    rw [hproto, hpayload] at henough
    exact absurd henough (by decide)

end IpPacket

end StrongSwan
