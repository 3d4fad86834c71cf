import StrongSwan.Networking.Host

/-!
# IP packets

`ipPacketCreate` reads addresses, ports and the upper-layer protocol from an IPv4 or IPv6 packet and
cuts off what follows the length in its header. Extension headers of IPv6 are skipped, and no ports
are read from fragments.
-/

namespace StrongSwan

def IPPROTO_TCP : U8 := 6

def IPPROTO_UDP : U8 := 17

structure IpPacket where
  src : Host
  dst : Host
  /-- IP packet -/
  packet : Chunk
  /-- IP payload -/
  payload : Chunk
  version : U8
  /-- Protocol|Next Header field -/
  nextHeader : U8
  deriving DecidableEq

namespace IpPacket

def byteAt (packet : Chunk) (offset : ℕ) : U8 := packet.getD offset 0

/-- Parse transport protocol header: the ports, none if it is too short. -/
def parseTransportHeader (packet : Chunk) (proto : U8) : Option (U16 × U16) :=
  if proto = IPPROTO_UDP then
    if packet.length < 8 then none else some (untoh16 packet, untoh16 (packet.drop 2))
  else if proto = IPPROTO_TCP then
    if packet.length < 20 then none else some (untoh16 packet, untoh16 (packet.drop 2))
  else some (0, 0)

/-- The extension headers that are skipped: Hop-by-Hop Options, Routing, Fragment, Destination
Options, Mobility, HIP and Shim6. -/
def isExtension (proto : U8) : Bool :=
  proto = 0 || proto = 43 || proto = 44 || proto = 60 || proto = 135 || proto = 139 || proto = 140

/-- Skip to the actual payload and parse the transport header, unless the packet is a fragment. -/
def parsePayloadV6 (payload : Chunk) (proto : U8) (fragment : Bool) :
    Option (Chunk × U8 × U16 × U16) :=
  if h : payload.length ≥ 2 then
    if isExtension proto then
      parsePayloadV6 (payload.drop (8 * ((byteAt payload 1).toNat + 1))) (byteAt payload 0)
        (fragment || proto = 44)
    else if fragment then some (payload, proto, 0, 0)
    else (parseTransportHeader payload proto).map fun ports => (payload, proto, ports)
  else some (payload, proto, 0, 0)
termination_by payload.length
decreasing_by
  rw [List.length_drop]
  omega

def parseTransportHeaderV6 (ip packet : Chunk) : Option (Chunk × U8 × U16 × U16) :=
  parsePayloadV6 (packet.drop 40) (byteAt ip 6) false

def ipPacketCreate (packet : Chunk) : Option IpPacket :=
  if packet.length < 1 then none
  else
    let version := (byteAt packet 0 &&& 0xf0) >>> 4
    let ip := packet
    if version = 4 then
      if packet.length < 20 then none
      else
        -- remove any RFC 4303 TFC extra padding
        let packet := packet.take (untoh16 (ip.drop 2)).toNat
        let payload := packet.drop ((byteAt ip 0 &&& 0x0f).toNat * 4)
        let proto := byteAt ip 9
        let isFragment := untoh16 (ip.drop 6) &&& 0x1fff ≠ 0
        (if isFragment then some (0, 0) else parseTransportHeader payload proto).bind fun ports =>
          (hostCreateFromChunk .inet ((ip.drop 12).take 4) ports.1).bind fun src =>
            (hostCreateFromChunk .inet ((ip.drop 16).take 4) ports.2).map fun dst =>
              ⟨src, dst, packet, payload, version, proto⟩
    else if version = 6 then
      if packet.length < 40 then none
      else
        -- remove any RFC 4303 TFC extra padding
        let packet := packet.take (40 + (untoh16 (ip.drop 4)).toNat)
        (parseTransportHeaderV6 ip packet).bind
          fun (payload, proto, sport, dport) =>
            (hostCreateFromChunk .inet6 ((ip.drop 8).take 16) sport).bind fun src =>
              (hostCreateFromChunk .inet6 ((ip.drop 24).take 16) dport).map fun dst =>
                ⟨src, dst, packet, payload, version, proto⟩
    else none

def clone (this : IpPacket) : Option IpPacket := ipPacketCreate this.packet

end IpPacket

end StrongSwan
