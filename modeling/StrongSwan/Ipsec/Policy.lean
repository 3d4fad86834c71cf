import StrongSwan.Ipsec.IpPacket
import StrongSwan.Selectors.TrafficSelector

/-!
# IPsec policies

A `Policy` selects packets by the selectors of both ends (`matchPacket`). Policy objects are told
apart by the number of their allocation.
-/

namespace StrongSwan

inductive PolicyDir
  | in
  | out
  | fwd
  deriving DecidableEq, Repr

inductive PolicyType
  | ipsec
  | pass
  | drop
  deriving DecidableEq, Repr

inductive PolicyPriority
  | pass
  | default
  | routed
  | fallback
  deriving DecidableEq, Repr

structure Mark where
  value : U32
  mask : U32
  deriving DecidableEq, Repr

/-- What callers pass to `add_policy` and `del_policy`; of the SA configuration only the reqid is
used. -/
structure PolicyArgs where
  src : Host
  dst : Host
  srcTs : TrafficSelector
  dstTs : TrafficSelector
  direction : PolicyDir
  type : PolicyType
  reqid : U32
  mark : Mark
  priority : PolicyPriority
  deriving DecidableEq

structure Policy where
  /-- the allocated object -/
  object : ℕ
  /-- SA source address -/
  src : Host
  /-- SA destination address -/
  dst : Host
  srcTs : TrafficSelector
  dstTs : TrafficSelector
  /-- If any of the two TS has a protocol selector we cache it here -/
  protocol : U8
  direction : PolicyDir
  type : PolicyType
  reqid : U32
  mark : Mark
  priority : PolicyPriority
  deriving DecidableEq

namespace Policy

def create (object : ℕ) (args : PolicyArgs) : Policy where
  object := object
  src := args.src
  dst := args.dst
  srcTs := args.srcTs.clone
  dstTs := args.dstTs.clone
  protocol := umax args.srcTs.protocol args.dstTs.protocol
  direction := args.direction
  type := args.type
  reqid := args.reqid
  mark := args.mark
  priority := args.priority

/-- `match`, for the arguments of `del_policy`. -/
def matchArgs (this : Policy) (args : PolicyArgs) : Bool :=
  this.direction = args.direction && this.priority = args.priority && this.reqid = args.reqid &&
    this.mark = args.mark && this.srcTs.equals args.srcTs && this.dstTs.equals args.dstTs

/-- Match the port of the given host against the given traffic selector. -/
def matchPort (ts : TrafficSelector) (host : Host) : Bool :=
  if (ts.fromPort = 0 ∧ ts.toPort = 0xffff) ∨ (ts.fromPort = 0xffff ∧ ts.toPort = 0) then true
  else ts.fromPort ≤ host.port && host.port ≤ ts.toPort

def matchPacket (this : Policy) (packet : IpPacket) : Bool :=
  (this.protocol = 0 || this.protocol = packet.nextHeader) &&
    this.srcTs.includes packet.src && matchPort this.srcTs packet.src &&
    this.dstTs.includes packet.dst && matchPort this.dstTs packet.dst

end Policy

end StrongSwan
