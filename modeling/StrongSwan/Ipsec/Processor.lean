import StrongSwan.Ipsec.PolicyMgr
import StrongSwan.Ipsec.SaMgr.Threads

/-!
# The inbound path of the IPsec processor

`process_inbound` is a job of its own that takes packets from a queue, decrypts them with the SA it
checks out, and delivers what an inbound policy allows. It runs in steps, between which other threads
install and change SAs and policies.

* `Job`: where the job is, with its local variables.
* `processInbound`: the next step of the job.
* `Event`, `State.step`: the steps of the job and of everything around it. Thread `0` of the SA
  manager is the job. Other threads check out SAs as `process_outbound` does, by `reqid` and outbound.
* `system`: all runs. The fields `authenticated`, `delivered` and `dropped` record them.
-/

namespace StrongSwan

namespace Processor

/-- Where `process_inbound` is. -/
inductive Job
  | dequeue
  | checkout (packet : EspPacket) (spi : U32)
  /-- in `checkout_by_spi`, or just returned from it -/
  | checkedOut (packet : EspPacket) (spi : U32)
  | usestats (packet : EspPacket) (sa : ℕ)
  /-- about to check in the SA and, without a reqid, to drop the packet -/
  | checkin (packet : EspPacket) (sa : ℕ) (reqid : Option U32)
  | policy (packet : EspPacket) (reqid : U32)
  | deliver (packet : EspPacket)

/-- The packet the job works on. -/
def Job.packet : Job → Option EspPacket
  | dequeue => none
  | checkout packet _ | checkedOut packet _ | usestats packet _ | checkin packet _ _
  | policy packet _ | deliver packet => some packet

/-- `private_ipsec_processor_t`, with the managers and the inbound job. -/
structure State where
  sas : SaMgr.State
  policies : PolicyMgr.State
  inboundQueue : List EspPacket
  /-- the registered inbound callback -/
  inbound : Option ℕ
  job : Job
  /-- entries and sequence numbers of the packets that were authenticated, newest first -/
  authenticated : List (ℕ × U32)
  /-- packets whose payload the callback got -/
  delivered : List EspPacket
  dropped : List EspPacket

/-- The numbers after `decrypt`. -/
def record (packet : EspPacket) (espContext : EspContext Aead) (sa : ℕ)
    (authenticated : List (ℕ × U32)) : List (ℕ × U32) :=
  match packet.authenticates espContext with
  | some seq => (sa, seq) :: authenticated
  | none => authenticated

inductive Event
  | sas (event : SaMgr.Event)
  | policies (event : PolicyMgr.Event)
  | queueInbound (packet : EspPacket)
  | registerInbound (cb : ℕ)
  | unregisterInbound (cb : ℕ)
  /-- the job goes on -/
  | processInbound (now : U64)

variable (createAead : U16 → Chunk → U16 → Chunk → Option Aead) (spiHash : U32 → U32)

namespace State

def init : State where
  sas := SaMgr.State.init spiHash
  policies := ⟨PolicyMgr.create, 0⟩
  inboundQueue := []
  inbound := none
  job := .dequeue
  authenticated := []
  delivered := []
  dropped := []

/-- The packet is destroyed, and the job starts again. -/
def drop (s : State) (packet : EspPacket) : State :=
  { s with job := .dequeue, dropped := packet :: s.dropped }

/-- The job once it has its SA. -/
def decrypt (s : State) (packet : EspPacket) (sa : ℕ) : Option State := do
  let e ← s.sas.mgr.entries sa
  if !e.sa.inbound then some { s with job := .checkin packet sa none }
  else
    let (status, packet', espContext) := packet.decrypt e.sa.espContext
    let sas ← s.sas.step createAead (.use 0 sa (.espContext espContext))
    some { s with
      sas := sas
      authenticated := record packet e.sa.espContext sa s.authenticated
      job := if status = .success then .usestats packet' sa else .checkin packet' sa none }

/-- The next step of the job. -/
def processInbound (s : State) (now : U64) : Option State :=
  match s.job with
  | .dequeue =>
    match s.inboundQueue with
    | [] => some s
    | packet :: queue =>
      let s := { s with inboundQueue := queue }
      match packet.parseHeader with
      | none => some (s.drop packet)
      | some spi => some { s with job := .checkout packet spi }
  | .checkout packet spi => do
    let sas ← s.sas.step createAead (.call 0 (.checkoutBySpi spi packet.destination))
    some { s with sas := sas, job := .checkedOut packet spi }
  | .checkedOut packet _ =>
    match (s.sas.threads 0).pc with
    | .returned (.sa (some sa)) => s.decrypt createAead packet sa
    | .returned _ => some (s.drop packet)
    | _ => do
      let sas ← s.sas.step createAead (.resume 0)
      some { s with sas := sas }
  | .usestats packet sa => do
    let ipPacket ← packet.payload
    let e ← s.sas.mgr.entries sa
    let sas ← s.sas.step createAead
      (.use 0 sa (.usestats now (BitVec.ofNat 32 ipPacket.packet.length)))
    some { s with sas := sas, job := .checkin packet sa (some e.sa.reqid) }
  | .checkin packet sa reqid => do
    let sas ← s.sas.step createAead (.checkin 0 sa)
    let s := { s with sas := sas }
    match reqid with
    | none => some (s.drop packet)
    | some reqid => some { s with job := .policy packet reqid }
  | .policy packet reqid =>
    if packet.nextHeader = IPPROTO_IPIP ∨ packet.nextHeader = IPPROTO_IPV6 then do
      let ipPacket ← packet.payload
      match s.policies.mgr.findByPacket ipPacket true reqid with
      | some _ => some { s with job := .deliver packet }
      | none => some (s.drop packet)
    -- discard dummy packets
    else some (s.drop packet)
  | .deliver packet =>
    match s.inbound with
    | some _ => some { s with job := .dequeue, delivered := packet :: s.delivered }
    -- no inbound callback registered
    | none => some (s.drop packet)

end State

/-- What threads other than the job do with the SA manager. -/
def Others : SaMgr.Event → Bool
  | .call t (.checkoutByReqid _ inbound) => t ≠ 0 && !inbound
  | .call _ (.checkoutBySpi _ _) => false
  | event => event.thread ≠ 0

/-- One step of the job or of something around it. -/
def State.step (s : State) : Event → Option State
  | .sas event =>
    if Others event then do
      let sas ← s.sas.step createAead event
      some { s with sas := sas }
    else some s
  | .policies event => some { s with policies := PolicyMgr.step s.policies event }
  | .queueInbound packet => some { s with inboundQueue := s.inboundQueue ++ [packet] }
  | .registerInbound cb => some { s with inbound := some cb }
  | .unregisterInbound cb =>
    some (if s.inbound = some cb then { s with inbound := none } else s)
  | .processInbound now => s.processInbound createAead now

/-- The runs of the job in its surroundings; steps into undefined behaviour have no successor. -/
def system : LTS.System State Event :=
  LTS.ofOption (· = State.init spiHash) (State.step createAead)

end Processor

end StrongSwan
