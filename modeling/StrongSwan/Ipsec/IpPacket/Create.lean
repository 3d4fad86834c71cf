import StrongSwan.Ipsec.IpPacket.Parsing
import StrongSwan.Utils.InternetChecksum

/-!
# Making IP packets

IP packets are made around the data of an upper-layer protocol. The ports and the checksum of UDP
and TCP headers are filled in.

* `fixTransportHeader_udp`: the header that UDP data gets.
* `ValidUdp`: a packet with the given addresses, ports and data, whose lengths and checksums are
  right.
* `ipPacketCreateUdpFromData_spec`: such a packet is made.
* **`udp_exact`**: its checksum is not transmitted as zero, unless the words it is about add up to a
  multiple of `65535`.
-/

namespace StrongSwan

namespace IpPacket

open OnesComplement

/-! ## The functions -/

/-- The pseudo IP header, as it is in memory. -/
def pseudo (src dst : Host) (proto : U8) (payload : Chunk) : Chunk :=
  match src.family with
  | .inet => src.address.take 4 ++ dst.address.take 4 ++ [0, proto] ++
      memory16 (htons (BitVec.ofNat 16 payload.length))
  | .inet6 => src.address.take 16 ++ dst.address.take 16 ++
      memory32 ((htons (BitVec.ofNat 16 payload.length)).setWidth 32) ++ [0, 0, 0, proto]

/-- Calculate the checksum for the pseudo IP header. -/
def pseudoHeaderChecksum (src dst : Host) (proto : U8) (payload : Chunk) : U16 :=
  chunkInternetChecksum (pseudo src dst proto payload)

/-- Write bytes at an offset. -/
def overwrite (p : Chunk) (offset : ℕ) (bytes : Chunk) : Chunk :=
  p.take offset ++ bytes ++ p.drop (offset + bytes.length)

/-- Apply the ports to a header with a length and the offset of its checksum, which is calculated. -/
def fixHeader (size check : ℕ) (src dst : Host) (proto : U8) (payload : Chunk) : Chunk :=
  if payload.length < size then payload
  else
    let payload :=
      if src.port ≠ 0 then overwrite payload 0 (memory16 (htons src.port)) else payload
    let payload :=
      if dst.port ≠ 0 then overwrite payload 2 (memory16 (htons dst.port)) else payload
    let payload := overwrite payload check (memory16 0)
    let sum := pseudoHeaderChecksum src dst proto payload
    overwrite payload check (memory16 (chunkInternetChecksumInc payload sum))

/-- Apply transport ports and calculate header checksums. -/
def fixTransportHeader (src dst : Host) (proto : U8) (payload : Chunk) : Chunk :=
  if proto = IPPROTO_UDP then fixHeader 8 6 src dst proto payload
  else if proto = IPPROTO_TCP then fixHeader 20 16 src dst proto payload
  else payload

/-- `struct ip`, with the given checksum. -/
def headerV4 (src dst : Host) (nextHeader : U8) (dataLen : ℕ) (sum : Chunk) : Chunk :=
  [0x45, 0] ++ memory16 (htons (BitVec.ofNat 16 (20 + dataLen))) ++ [0, 0, 0, 0, 0x80, nextHeader] ++
    sum ++ src.address.take 4 ++ dst.address.take 4

/-- `struct ip6_hdr` -/
def headerV6 (src dst : Host) (nextHeader : U8) (dataLen : ℕ) : Chunk :=
  memory32 (htonl (6 <<< 28)) ++ memory16 (htons (BitVec.ofNat 16 dataLen)) ++
    [nextHeader, 0x80] ++ src.address.take 16 ++ dst.address.take 16

def ipPacketCreateFromData (src dst : Host) (nextHeader : U8) (data : Chunk) : Option IpPacket :=
  if src.family ≠ dst.family then none
  else
    match src.family with
    | .inet =>
      let ip := headerV4 src dst nextHeader data.length (memory16 0)
      let ip := headerV4 src dst nextHeader data.length (memory16 (chunkInternetChecksum ip))
      ipPacketCreate (ip ++ fixTransportHeader src dst nextHeader data)
    | .inet6 =>
      let ip := headerV6 src dst nextHeader data.length
      ipPacketCreate (ip ++ fixTransportHeader src dst nextHeader data)

def ipPacketCreateUdpFromData (src dst : Host) (data : Chunk) : Option IpPacket :=
  let udp := memory16 0 ++ memory16 0 ++ memory16 (htons (BitVec.ofNat 16 (8 + data.length))) ++
    memory16 0
  ipPacketCreateFromData src dst IPPROTO_UDP (udp ++ data)

/-! ## The UDP header -/

def udpHeader (sport dport len check : U16) : Chunk :=
  htoun16 sport ++ htoun16 dport ++ htoun16 len ++ htoun16 check

/-- The pseudo header for a transport header and data of a length. -/
def pseudoHeader (src dst : Host) (proto : U8) (len : ℕ) : Chunk :=
  match src.family with
  | .inet => src.address ++ dst.address ++ [0, proto] ++ htoun16 (BitVec.ofNat 16 len)
  | .inet6 => src.address ++ dst.address ++ htoun32 (BitVec.ofNat 32 len) ++ [0, 0, 0, proto]

/-- The one's complement sum of the words. -/
def onesSum (bytes : Chunk) : ℕ := fold 65536 (wordSum bytes)

/-- What the checksum of a UDP packet is about: the words of the addresses, the protocol, the length
(twice), the ports and the data. -/
def transportSum (src dst : Host) (data : Chunk) : ℕ :=
  wordSum src.address + wordSum dst.address + 17 + 2 * (8 + data.length) + src.port.toNat +
    dst.port.toNat + wordSum data

/-- The most data that fits. -/
def maxData : Family → ℕ
  | .inet => 65507
  | .inet6 => 65527

/-- The version of packets between hosts of a family. -/
def versionFor : Family → U8
  | .inet => 4
  | .inet6 => 6

/-- The checksum in a UDP header. -/
def checksumField (this : IpPacket) : U16 := untoh16 (this.payload.drop 6)

/-- The packet is for the given hosts and data, its lengths are right and its checksums verify. -/
structure ValidUdp (src dst : Host) (data : Chunk) (ip : IpPacket) : Prop where
  version : ip.version = versionFor src.family
  source : ip.src = src
  destination : ip.dst = dst
  nextHeader : ip.nextHeader = IPPROTO_UDP
  versionOf : versionOf ip.packet = ip.version
  lengthField : lengthField ip.packet = ip.packet.length
  behind : ip.payload = ip.packet.drop (fixedHeader ip.version)
  udp : ip.payload =
    udpHeader src.port dst.port (BitVec.ofNat 16 (8 + data.length)) ip.checksumField ++ data
  header : src.family = .inet → onesSum (ip.packet.take 20) = 65535
  checksum : onesSum (pseudoHeader src dst IPPROTO_UDP ip.payload.length ++ ip.payload) = 65535

theorem wordSum_htoun16_append (n : U16) (p : Chunk) :
    wordSum (htoun16 n ++ p) = n.toNat + wordSum p := by
  have hn := n.isLt
  rw [htoun16_eq, List.cons_append, List.singleton_append, wordSum, BitVec.toNat_ofNat,
    BitVec.toNat_ofNat]
  omega

theorem even_address (host : Host) : Even host.address.length := by
  rw [host.length_address]
  cases host.family <;> decide

theorem htoun32_of_lt {n : U32} (h : n.toNat < 65536) :
    htoun32 n = [0, 0] ++ htoun16 (BitVec.ofNat 16 n.toNat) := by
  have hdiv : n.toNat / 256 / 256 = 0 := by omega
  rw [htoun16_eq, BitVec.toNat_ofNat, Nat.mod_eq_of_lt h]
  change [BitVec.ofNat 8 (n.toNat / 256 / 256 / 256), BitVec.ofNat 8 (n.toNat / 256 / 256),
    BitVec.ofNat 8 (n.toNat / 256), BitVec.ofNat 8 n.toNat] = _
  rw [hdiv]
  rfl

theorem memory32_setWidth_htons (n : U16) :
    memory32 ((htons n).setWidth 32) = htoun16 n ++ [0, 0] := by
  have hlt := (htons n).isLt
  have hwidth : ((htons n).setWidth 32 : U32).toNat = (htons n).toNat := by
    rw [BitVec.toNat_setWidth]
    omega
  rw [memory32, htoun32_of_lt (by omega), hwidth, BitVec.ofNat_toNat, BitVec.setWidth_eq,
    List.reverse_append, ← memory16, memory16_htons]
  rfl

variable {src dst : Host} {data payload : Chunk}

theorem take_address {n : ℕ} (host : Host) (h : host.family.len = n) :
    host.address.take n = host.address :=
  List.take_of_length_le (by rw [host.length_address, h])

/-- The pseudo header of the source has the words of a pseudo header, although its length is at the
other end of the four bytes. -/
theorem pseudo_spec (hfamily : src.family = dst.family) (hlen : payload.length < 65536) :
    ∃ rest : Chunk, pseudo src dst IPPROTO_UDP payload = src.address ++ (dst.address ++ rest) ∧
      wordSum rest = 17 + payload.length ∧ Even rest.length ∧ rest.length ≤ 8 := by
  have hnat : (BitVec.ofNat 16 payload.length).toNat = payload.length := by
    rw [BitVec.toNat_ofNat, Nat.mod_eq_of_lt hlen]
  rw [pseudo]
  cases hsrc : src.family with
  | inet =>
    refine ⟨[0, 17] ++ htoun16 (BitVec.ofNat 16 payload.length), ?_, ?_, ⟨2, rfl⟩, by simp⟩
    · dsimp only
      rw [take_address src (by rw [hsrc]; rfl), take_address dst (by rw [← hfamily, hsrc]; rfl),
        memory16_htons, List.append_assoc, List.append_assoc]
      rfl
    · have hrest := wordSum_htoun16_append (BitVec.ofNat 16 payload.length) []
      rw [List.append_nil, hnat] at hrest
      rw [wordSum_append _ (by decide), hrest]
      rfl
  | inet6 =>
    refine ⟨htoun16 (BitVec.ofNat 16 payload.length) ++ [0, 0, 0, 0, 0, 17], ?_, ?_, ⟨4, rfl⟩,
      by simp⟩
    · dsimp only
      rw [take_address src (by rw [hsrc]; rfl), take_address dst (by rw [← hfamily, hsrc]; rfl),
        memory32_setWidth_htons, List.append_assoc, List.append_assoc, List.append_assoc]
      rfl
    · rw [wordSum_htoun16_append, hnat, Nat.add_comm]
      rfl

theorem pseudoHeader_spec (src dst : Host) {n : ℕ} (hlen : n < 65536) :
    ∃ rest : Chunk, pseudoHeader src dst IPPROTO_UDP n = src.address ++ (dst.address ++ rest) ∧
      wordSum rest = 17 + n ∧ Even rest.length := by
  have hnat : (BitVec.ofNat 16 n).toNat = n := by rw [BitVec.toNat_ofNat, Nat.mod_eq_of_lt hlen]
  rw [pseudoHeader]
  cases hsrc : src.family with
  | inet =>
    refine ⟨[0, 17] ++ htoun16 (BitVec.ofNat 16 n), ?_, ?_, ⟨2, rfl⟩⟩
    · dsimp only
      rw [List.append_assoc, List.append_assoc]
      rfl
    · have hrest := wordSum_htoun16_append (BitVec.ofNat 16 n) []
      rw [List.append_nil, hnat] at hrest
      rw [wordSum_append _ (by decide), hrest]
      rfl
  | inet6 =>
    have hwide : (BitVec.ofNat 32 n).toNat = n := by rw [BitVec.toNat_ofNat]; omega
    refine ⟨[0, 0] ++ htoun16 (BitVec.ofNat 16 n) ++ [0, 0, 0, 17], ?_, ?_, ⟨4, rfl⟩⟩
    · dsimp only
      rw [htoun32_of_lt (by omega), hwide, List.append_assoc, List.append_assoc]
      rfl
    · rw [List.append_assoc, wordSum_append _ (by decide), wordSum_htoun16_append, hnat]
      change 0 + (n + 17) = 17 + n
      omega

theorem wordSum_udp {rest : Chunk} {n : ℕ} (hsum : wordSum rest = 17 + n) (heven : Even rest.length)
    (sport dport len check : U16) (hn : len.toNat = n) :
    wordSum (src.address ++ (dst.address ++ rest) ++ (udpHeader sport dport len check ++ data)) =
      wordSum src.address + wordSum dst.address + 17 + 2 * n + sport.toNat + dport.toNat +
        wordSum data + check.toNat := by
  rw [List.append_assoc, wordSum_append _ (even_address src), List.append_assoc,
    wordSum_append _ (even_address dst), wordSum_append _ heven, hsum, udpHeader, List.append_assoc,
    List.append_assoc, List.append_assoc, wordSum_htoun16_append, wordSum_htoun16_append,
    wordSum_htoun16_append, wordSum_htoun16_append, hn]
  omega

/-! ## The packet -/

/-- The checksum that makes the sum of a packet `65535`. -/
def complement (sum : ℕ) : U16 := BitVec.ofNat 16 (65535 - fold 65536 sum)

theorem toNat_complement (sum : ℕ) : (complement sum).toNat = 65535 - fold 65536 sum := by
  rw [complement, BitVec.toNat_ofNat]
  omega

theorem memory16_chunkInternetChecksum {bytes : Chunk} (h : bytes.length ≤ 131072) :
    memory16 (chunkInternetChecksum bytes) = htoun16 (complement (wordSum bytes)) := by
  rw [chunkInternetChecksum_eq h, memory16_htons, complement]

theorem overwrite_port (port : U16) (front tail : Chunk) :
    (if port ≠ 0 then
      overwrite (front ++ (htoun16 0 ++ tail)) front.length (memory16 (htons port))
        else front ++ (htoun16 0 ++ tail)) = front ++ (htoun16 port ++ tail) := by
  split_ifs with h
  · rw [memory16_htons, overwrite, length_htoun16, List.take_left,
      ← List.append_assoc front (htoun16 0),
      List.drop_left' (by rw [List.length_append, length_htoun16]), List.append_assoc]
  · rw [not_not.mp h]

/-- **UDP data gets the ports and the checksum of the hosts.** -/
theorem fixTransportHeader_udp (hfamily : src.family = dst.family)
    (hlen : 8 + data.length < 65536) :
    fixTransportHeader src dst IPPROTO_UDP
        (memory16 0 ++ memory16 0 ++ memory16 (htons (BitVec.ofNat 16 (8 + data.length))) ++
          memory16 0 ++ data) =
      udpHeader src.port dst.port (BitVec.ofNat 16 (8 + data.length))
        (complement (transportSum src dst data)) ++ data := by
  set len := BitVec.ofNat 16 (8 + data.length) with hlen16
  have hnat : len.toNat = 8 + data.length := by rw [hlen16, BitVec.toNat_ofNat]; omega
  have hzero : memory16 0 = htoun16 0 := rfl
  have hsport := overwrite_port src.port [] (htoun16 0 ++ (htoun16 len ++ (htoun16 0 ++ data)))
  have hdport := overwrite_port dst.port (htoun16 src.port) (htoun16 len ++ (htoun16 0 ++ data))
  have hcheck : ∀ check : U16, overwrite (udpHeader src.port dst.port len 0 ++ data) 6
      (htoun16 check) = udpHeader src.port dst.port len check ++ data := fun _ => rfl
  have hlength : (udpHeader src.port dst.port len 0 ++ data).length = 8 + data.length := by
    rw [List.length_append]
    rfl
  obtain ⟨rest, hpseudo, hsum, heven, hrest⟩ :=
    @pseudo_spec src dst (udpHeader src.port dst.port len 0 ++ data) hfamily (by omega)
  rw [hlength] at hsum
  -- the checksum of the pseudo header and of the packet is one sum
  have hall : memory16 (chunkInternetChecksumInc (udpHeader src.port dst.port len 0 ++ data)
      (pseudoHeaderChecksum src dst IPPROTO_UDP (udpHeader src.port dst.port len 0 ++ data))) =
        htoun16 (complement (transportSum src dst data)) := by
    have hsrc := even_address src
    have hdst := even_address dst
    have hsmall : ∀ host : Host, host.address.length ≤ 16 := by
      intro host
      rw [host.length_address]
      cases host.family <;> decide
    have hfour := hsmall src
    have hsixteen := hsmall dst
    rw [pseudoHeaderChecksum, hpseudo, chunkInternetChecksumInc_append,
      memory16_chunkInternetChecksum, wordSum_udp hsum heven _ _ _ _ hnat]
    · rfl
    · simp only [List.length_append, hlength] at hlength ⊢
      omega
    · rw [List.length_append, List.length_append]
      exact hsrc.add (hdst.add heven)
    · rw [hlength, List.length_append, List.length_append]
      omega
  rw [fixTransportHeader, if_pos rfl, fixHeader, memory16_htons, hzero, List.append_assoc,
    List.append_assoc, List.append_assoc,
    if_neg (by simp only [List.length_append, length_htoun16]; omega)]
  dsimp only
  rw [List.nil_append, List.length_nil, List.nil_append] at hsport
  rw [length_htoun16] at hdport
  have hports : htoun16 src.port ++ (htoun16 dst.port ++ (htoun16 len ++ (htoun16 0 ++ data))) =
      udpHeader src.port dst.port len 0 ++ data := rfl
  rw [hsport, hdport, hports, hcheck, hall, hcheck]

/-! ## The packet -/

theorem hostCreateFromChunk_self (host : Host) {family : Family} (hfamily : host.family = family)
    (port : U16) :
    hostCreateFromChunk family host.address port = some { host with port := port } := by
  subst hfamily
  rw [hostCreateFromChunk_of_length port host.length_address]

theorem take_drop_append {front middle back : Chunk} {n k : ℕ} (hn : front.length = n)
    (hk : middle.length = k) : ((front ++ (middle ++ back)).drop n).take k = middle := by
  rw [List.drop_left' hn, List.take_left' hk]

theorem ipPacketCreate_headerV4 {proto : U8} {sum : Chunk} {ports : U16 × U16}
    (hsrc : src.family = .inet) (hdst : dst.family = .inet) (hsum : sum.length = 2)
    (hlen : 20 + payload.length < 65536)
    (hports : parseTransportHeader payload proto = some ports) :
    ipPacketCreate (headerV4 src dst proto payload.length sum ++ payload) =
      some ⟨{ src with port := ports.1 }, { dst with port := ports.2 },
        headerV4 src dst proto payload.length sum ++ payload, payload, 4, proto⟩ ∧
      lengthField (headerV4 src dst proto payload.length sum ++ payload) =
        (headerV4 src dst proto payload.length sum ++ payload).length := by
  set packet := headerV4 src dst proto payload.length sum ++ payload with hpacket
  have hsrclen : src.address.length = 4 := by rw [src.length_address, hsrc]; rfl
  have hdstlen : dst.address.length = 4 := by rw [dst.length_address, hdst]; rfl
  have hsplit : packet = ([0x45, 0] ++ (htoun16 (BitVec.ofNat 16 (20 + payload.length)) ++
      ([0, 0, 0, 0, 0x80, proto] ++ sum))) ++ (src.address ++ (dst.address ++ payload)) := by
    rw [hpacket, headerV4, memory16_htons, take_address src (by rw [hsrc]; rfl),
      take_address dst (by rw [hdst]; rfl)]
    simp only [List.append_assoc]
  set front := [0x45, 0] ++ (htoun16 (BitVec.ofNat 16 (20 + payload.length)) ++
    ([0, 0, 0, 0, 0x80, proto] ++ sum)) with hfront
  have hfrontlen : front.length = 12 := by
    rw [hfront, List.length_append, List.length_append, List.length_append, length_htoun16, hsum]
    rfl
  have hlength : packet.length = 20 + payload.length := by
    rw [hsplit, List.length_append, hfrontlen, List.length_append, List.length_append, hsrclen,
      hdstlen]
    omega
  have hfirst : byteAt packet 0 = 0x45 := by rw [hsplit]; rfl
  have hversion : versionOf packet = 4 := by rw [versionOf, hfirst]; decide
  have hfield : (untoh16 (packet.drop 2)).toNat = packet.length := by
    have hdrop : packet.drop 2 = htoun16 (BitVec.ofNat 16 (20 + payload.length)) ++
        (([0, 0, 0, 0, 0x80, proto] ++ sum) ++ (src.address ++ (dst.address ++ payload))) := by
      rw [hsplit]
      rfl
    rw [hdrop, untoh16_htoun16_append, BitVec.toNat_ofNat, hlength]
    omega
  have hfragment : untoh16 (packet.drop 6) &&& 0x1fff = 0 := by
    have hdrop : packet.drop 6 = htoun16 0 ++ (([0x80, proto] ++ sum) ++
        (src.address ++ (dst.address ++ payload))) := by
      rw [hsplit]
      rfl
    rw [hdrop, untoh16_htoun16_append]
    decide
  have hproto : byteAt packet 9 = proto := by rw [hsplit]; rfl
  have hhl : headerLength packet = 5 := by rw [headerLength, hfirst]; decide
  have hpayload : packet.drop 20 = payload := by
    rw [hsplit, ← List.append_assoc, ← List.append_assoc]
    exact List.drop_left' (by
      rw [List.length_append, List.length_append, hfrontlen, hsrclen, hdstlen])
  have hsrcbytes : (packet.drop 12).take 4 = src.address := by
    rw [hsplit]
    exact take_drop_append hfrontlen hsrclen
  have hdstbytes : (packet.drop 16).take 4 = dst.address := by
    rw [hsplit, ← List.append_assoc]
    exact take_drop_append (by rw [List.length_append, hfrontlen, hsrclen]) hdstlen
  refine ⟨?_, by rw [lengthField_v4 hversion, hfield]⟩
  rw [ipPacketCreate_v4 hversion, if_neg (by omega), hfield, List.take_length, hhl]
  dsimp only
  rw [if_neg (not_not.mpr hfragment), hproto, hpayload, hports, hsrcbytes, hdstbytes,
    Option.bind_some, hostCreateFromChunk_self src hsrc, hostCreateFromChunk_self dst hdst]
  rfl

theorem ipPacketCreate_headerV6 {proto : U8} {ports : U16 × U16}
    (hsrc : src.family = .inet6) (hdst : dst.family = .inet6) (hsome : 2 ≤ payload.length)
    (hlen : payload.length < 65536) (hext : isExtension proto = false)
    (hports : parseTransportHeader payload proto = some ports) :
    ipPacketCreate (headerV6 src dst proto payload.length ++ payload) =
      some ⟨{ src with port := ports.1 }, { dst with port := ports.2 },
        headerV6 src dst proto payload.length ++ payload, payload, 6, proto⟩ ∧
      lengthField (headerV6 src dst proto payload.length ++ payload) =
        (headerV6 src dst proto payload.length ++ payload).length := by
  set packet := headerV6 src dst proto payload.length ++ payload with hpacket
  have hsrclen : src.address.length = 16 := by rw [src.length_address, hsrc]; rfl
  have hdstlen : dst.address.length = 16 := by rw [dst.length_address, hdst]; rfl
  have hsplit : packet = ([0x60, 0, 0, 0] ++ (htoun16 (BitVec.ofNat 16 payload.length) ++
      [proto, 0x80])) ++ (src.address ++ (dst.address ++ payload)) := by
    rw [hpacket, headerV6, memory16_htons, take_address src (by rw [hsrc]; rfl),
      take_address dst (by rw [hdst]; rfl), memory32_htonl,
      show htoun32 (6 <<< 28) = [0x60, 0, 0, 0] by decide]
    simp only [List.append_assoc]
  set front := [0x60, 0, 0, 0] ++ (htoun16 (BitVec.ofNat 16 payload.length) ++ [proto, 0x80])
    with hfront
  have hfrontlen : front.length = 8 := rfl
  have hlength : packet.length = 40 + payload.length := by
    rw [hsplit, List.length_append, hfrontlen, List.length_append, List.length_append, hsrclen,
      hdstlen]
    omega
  have hversion : versionOf packet = 6 := by
    have hfirst : byteAt packet 0 = 0x60 := by rw [hsplit]; rfl
    rw [versionOf, hfirst]
    decide
  have hfield : 40 + (untoh16 (packet.drop 4)).toNat = packet.length := by
    have hdrop : packet.drop 4 = htoun16 (BitVec.ofNat 16 payload.length) ++
        ([proto, 0x80] ++ (src.address ++ (dst.address ++ payload))) := by
      rw [hsplit]
      rfl
    rw [hdrop, untoh16_htoun16_append, BitVec.toNat_ofNat, hlength]
    omega
  have hproto : byteAt packet 6 = proto := by rw [hsplit]; rfl
  have hpayload : packet.drop 40 = payload := by
    rw [hsplit, ← List.append_assoc, ← List.append_assoc]
    exact List.drop_left' (by
      rw [List.length_append, List.length_append, hfrontlen, hsrclen, hdstlen])
  have hsrcbytes : (packet.drop 8).take 16 = src.address := by
    rw [hsplit]
    exact take_drop_append hfrontlen hsrclen
  have hdstbytes : (packet.drop 24).take 16 = dst.address := by
    rw [hsplit, ← List.append_assoc]
    exact take_drop_append (by rw [List.length_append, hfrontlen, hsrclen]) hdstlen
  refine ⟨?_, by rw [lengthField_v6 hversion, hfield]⟩
  rw [ipPacketCreate_v6 hversion, if_neg (by omega), hfield, List.take_length]
  dsimp only
  rw [hproto, hpayload, parsePayloadV6_eq, skipExtensions_of_upper payload hext]
  dsimp only
  rw [if_neg (by simp; omega), hports, hsrcbytes, hdstbytes, Option.map_some, Option.bind_some,
    hostCreateFromChunk_self src hsrc, hostCreateFromChunk_self dst hdst]
  rfl

theorem length_headerV4 {proto : U8} {n : ℕ} {sum : Chunk} (hsrc : src.family = .inet)
    (hdst : dst.family = .inet) (hsum : sum.length = 2) :
    (headerV4 src dst proto n sum).length = 20 := by
  simp [headerV4, memory16, src.length_address, dst.length_address, hsrc, hdst, hsum, Family.len]

theorem length_headerV6 {proto : U8} {n : ℕ} (hsrc : src.family = .inet6)
    (hdst : dst.family = .inet6) : (headerV6 src dst proto n).length = 40 := by
  simp [headerV6, memory16, memory32, src.length_address, dst.length_address, hsrc, hdst,
    Family.len]

theorem wordSum_headerV4 (proto : U8) (n : ℕ) (sum : U16) :
    wordSum (headerV4 src dst proto n (htoun16 sum)) =
      wordSum (headerV4 src dst proto n (htoun16 0)) + sum.toNat := by
  have hfront : Even ([0x45, 0] ++ memory16 (htons (BitVec.ofNat 16 (20 + n))) ++
      [0, 0, 0, 0, 0x80, proto]).length := ⟨5, rfl⟩
  have hsplit : ∀ sum : U16, wordSum (headerV4 src dst proto n (htoun16 sum)) =
      wordSum ([0x45, 0] ++ memory16 (htons (BitVec.ofNat 16 (20 + n))) ++
        [0, 0, 0, 0, 0x80, proto]) +
        (sum.toNat + wordSum (src.address.take 4 ++ dst.address.take 4)) := by
    intro sum
    rw [headerV4, List.append_assoc, List.append_assoc, wordSum_append _ hfront,
      wordSum_htoun16_append]
  rw [hsplit, hsplit 0, show (0 : U16).toNat = 0 from rfl]
  omega

theorem fold_complement (sum : ℕ) : fold 65536 (sum + (complement sum).toNat) = 65535 := by
  rw [toNat_complement]
  exact fold_add_complement (by omega) sum

theorem onesSum_udp (hlen : 8 + data.length < 65536) :
    onesSum (pseudoHeader src dst IPPROTO_UDP (8 + data.length) ++
      (udpHeader src.port dst.port (BitVec.ofNat 16 (8 + data.length))
        (complement (transportSum src dst data)) ++ data)) = 65535 := by
  have hnat : (BitVec.ofNat 16 (8 + data.length)).toNat = 8 + data.length := by
    rw [BitVec.toNat_ofNat]
    omega
  obtain ⟨rest, hpseudo, hsum, heven⟩ := pseudoHeader_spec src dst hlen
  rw [onesSum, hpseudo, wordSum_udp hsum heven _ _ _ _ hnat, ← transportSum]
  exact fold_complement _

/-- **UDP data of any length that fits becomes a valid packet**, whose checksum is the complement of
what it is about. -/
theorem ipPacketCreateUdpFromData_spec (hfamily : src.family = dst.family)
    (hlen : data.length ≤ maxData src.family) :
    ∃ ip, ipPacketCreateUdpFromData src dst data = some ip ∧ ValidUdp src dst data ip ∧
      ip.checksumField = complement (transportSum src dst data) := by
  have hmax : 8 + data.length < 65536 := by
    have hle : maxData src.family ≤ 65527 := by cases src.family <;> decide
    omega
  set payload := udpHeader src.port dst.port (BitVec.ofNat 16 (8 + data.length))
    (complement (transportSum src dst data)) ++ data with hpayload
  have hlength : payload.length = 8 + data.length := by
    rw [hpayload, List.length_append]
    rfl
  have hports : parseTransportHeader payload IPPROTO_UDP = some (src.port, dst.port) := by
    have hdrop : payload.drop 2 = htoun16 dst.port ++ (htoun16 (BitVec.ofNat 16 (8 + data.length)) ++
      (htoun16 (complement (transportSum src dst data)) ++ data)) := rfl
    rw [parseTransportHeader, if_pos rfl, if_neg (by omega), hdrop, untoh16_htoun16_append, hpayload,
      udpHeader, List.append_assoc, List.append_assoc, List.append_assoc, untoh16_htoun16_append]
  have hfield : ∀ ip : IpPacket, ip.payload = payload →
      ip.checksumField = complement (transportSum src dst data) := by
    intro ip hip
    have hdrop : payload.drop 6 = htoun16 (complement (transportSum src dst data)) ++ data := rfl
    rw [checksumField, hip, hdrop, untoh16_htoun16_append]
  have hdata : (memory16 0 ++ memory16 0 ++
      memory16 (htons (BitVec.ofNat 16 (8 + data.length))) ++ memory16 0 ++ data).length =
        payload.length := by
    rw [hlength, List.length_append]
    rfl
  rw [ipPacketCreateUdpFromData, ipPacketCreateFromData, if_neg (not_not.mpr hfamily)]
  dsimp only
  rw [fixTransportHeader_udp hfamily hmax, ← hpayload, hdata]
  cases hsrc : src.family with
  | inet =>
    have hdst : dst.family = .inet := hfamily ▸ hsrc
    rw [hsrc] at hlen
    dsimp only
    set sum := complement (wordSum (headerV4 src dst IPPROTO_UDP payload.length (htoun16 0)))
      with hsum
    have hbytes : memory16 (chunkInternetChecksum
        (headerV4 src dst IPPROTO_UDP payload.length (memory16 0))) = htoun16 sum := by
      rw [memory16_chunkInternetChecksum (by rw [length_headerV4 hsrc hdst rfl]; omega)]
      rfl
    have hheader : (headerV4 src dst IPPROTO_UDP payload.length (htoun16 sum)).length = 20 :=
      length_headerV4 hsrc hdst (length_htoun16 _)
    obtain ⟨hcreate, hlengthField⟩ := ipPacketCreate_headerV4 hsrc hdst (length_htoun16 sum)
      (by rw [maxData] at hlen; omega) hports
    obtain ⟨-, hversion, -⟩ := packet_of_create hcreate
    rw [hbytes]
    refine ⟨_, hcreate, ⟨(congrArg versionFor hsrc).symm, rfl, rfl, rfl, hversion.symm,
      hlengthField, ?_, ?_, ?_, ?_⟩, hfield _ rfl⟩
    · exact (List.drop_left' hheader).symm
    · rw [hfield _ rfl]
    · intro _
      rw [List.take_left' hheader, onesSum, wordSum_headerV4]
      exact fold_complement _
    · dsimp only
      rw [hlength]
      exact onesSum_udp hmax
  | inet6 =>
    have hdst : dst.family = .inet6 := hfamily ▸ hsrc
    obtain ⟨hcreate, hlengthField⟩ := ipPacketCreate_headerV6 hsrc hdst (by omega) (by omega)
      (by decide) hports
    obtain ⟨-, hversion, -⟩ := packet_of_create hcreate
    refine ⟨_, hcreate, ⟨(congrArg versionFor hsrc).symm, rfl, rfl, rfl, hversion.symm,
      hlengthField, ?_, ?_, ?_, ?_⟩, hfield _ rfl⟩
    · exact (List.drop_left' (length_headerV6 hsrc hdst)).symm
    · rw [hfield _ rfl]
    · intro hinet
      rw [hsrc] at hinet
      cases hinet
    · dsimp only
      rw [hlength]
      exact onesSum_udp hmax

theorem complement_ne_zero_iff {sum : ℕ} (hpos : 0 < sum) : complement sum ≠ 0 ↔ ¬65535 ∣ sum := by
  have hlt := fold_lt (by omega : 2 ≤ 65536) sum
  have hfold := fold_eq_iff (by omega : 2 ≤ 65536) sum
  rw [Ne, ← BitVec.toNat_inj, toNat_complement, not_iff_not]
  change 65535 - fold 65536 sum = 0 ↔ _
  constructor
  · intro h
    exact (hfold.mp (by omega)).2
  · intro h
    have := hfold.mpr ⟨hpos, h⟩
    omega

/-- **UDP packets are valid, and their checksum is transmitted as zero if and only if what it is
about is a multiple of `65535`. Checksums can be computed in parts, without an overflow.** -/
theorem udp_exact (hfamily : src.family = dst.family) (hlen : data.length ≤ maxData src.family) :
    (∃ ip, ipPacketCreateUdpFromData src dst data = some ip ∧ ValidUdp src dst data ip ∧
      (ip.checksumField ≠ 0 ↔ ¬65535 ∣ transportSum src dst data)) ∧
    ∀ a b : Chunk, Even a.length → a.length + b.length ≤ 131072 →
      (∀ checksum : U16, (addWords b (checksum.setWidth 32)).toNat =
        checksum.toNat + wordSum b) ∧
      chunkInternetChecksumInc b (chunkInternetChecksum a) = chunkInternetChecksum (a ++ b) := by
  constructor
  · obtain ⟨ip, hip, hvalid, hfield⟩ := ipPacketCreateUdpFromData_spec hfamily hlen
    refine ⟨ip, hip, hvalid, ?_⟩
    rw [hfield]
    exact complement_ne_zero_iff (by rw [transportSum]; omega)
  · intro a b heven hab
    refine ⟨fun checksum => ?_, chunkInternetChecksumInc_append heven hab⟩
    have hlt := checksum.isLt
    have hnat : (checksum.setWidth 32 : U32).toNat = checksum.toNat := by
      rw [BitVec.toNat_setWidth]
      omega
    rw [toNat_addWords (by rw [hnat]; omega), hnat]

/-- The host with an address in `10.0.0.0/24`. -/
def testHost (last : U8) (port : U16) : Host := .ofLast last port

theorem udp_exact_dns : ∃ ip,
    ipPacketCreateUdpFromData (testHost 1 53) (testHost 2 1024) [1, 2, 3] = some ip ∧
      ip.checksumField ≠ 0 := by
  obtain ⟨⟨ip, hip, -, hne⟩, -⟩ :=
    @udp_exact (testHost 1 53) (testHost 2 1024) [1, 2, 3] rfl (by decide)
  exact ⟨ip, hip, hne.mpr (by decide)⟩

/-- The words of this packet add up to `65535`. -/
theorem not_udp : ¬ ∀ src dst : Host, ∀ data : Chunk, src.family = dst.family →
    data.length ≤ maxData src.family → ∃ ip, ipPacketCreateUdpFromData src dst data = some ip ∧
      ValidUdp src dst data ip ∧ ip.checksumField ≠ 0 := by
  intro hall
  obtain ⟨ip, hip, -, hne⟩ := hall (testHost 1 53) (testHost 2 1024) [0xe7, 0xa2] rfl (by decide)
  obtain ⟨ip', hip', -, hfield⟩ :=
    @ipPacketCreateUdpFromData_spec (testHost 1 53) (testHost 2 1024) [0xe7, 0xa2] rfl (by decide)
  rw [hip, Option.some.injEq] at hip'
  rw [hip', hfield, complement_ne_zero_iff (by decide)] at hne
  exact hne (by decide)

end IpPacket

end StrongSwan
