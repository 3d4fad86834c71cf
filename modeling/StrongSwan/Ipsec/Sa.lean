import StrongSwan.Ipsec.EspPacket

/-!
# IPsec SAs

`Sa` is one direction of an ESP tunnel with its ESP context, usage statistics and lifetime. The
events that an expiration raises are not modelled.
-/

namespace StrongSwan

def IPPROTO_ESP : U8 := 50

def IPCOMP_NONE : U16 := 0

inductive IpsecMode
  | none
  | transport
  | tunnel
  | beet
  | pass
  | drop
  deriving DecidableEq, Repr

/-- One part of a `lifetime_cfg_t`; `0` is no limit. -/
structure Limit where
  /-- limit before the SA gets invalid -/
  life : U64
  /-- limit before the SA gets rekeyed -/
  rekey : U64
  deriving DecidableEq, Repr

structure LifetimeCfg where
  time : Limit
  bytes : Limit
  packets : Limit
  deriving DecidableEq, Repr

/-- The arguments of `ipsec_sa_create`, without those it ignores. -/
structure SaArgs where
  spi : U32
  src : Host
  dst : Host
  protocol : U8
  reqid : U32
  lifetime : LifetimeCfg
  encAlg : U16
  encKey : Chunk
  intAlg : U16
  intKey : Chunk
  mode : IpsecMode
  ipcomp : U16
  encap : Bool
  esn : Bool
  inbound : Bool
  deriving DecidableEq

/-- An SA without limits. -/
def SaArgs.plain (spi : U32) (src dst : Host) (inbound : Bool) : SaArgs where
  spi := spi
  src := src
  dst := dst
  protocol := IPPROTO_ESP
  reqid := 1
  lifetime := ⟨⟨0, 0⟩, ⟨0, 0⟩, ⟨0, 0⟩⟩
  encAlg := 0
  encKey := []
  intAlg := 0
  intKey := []
  mode := .tunnel
  ipcomp := IPCOMP_NONE
  encap := true
  esn := false
  inbound := inbound

/-- Usage statistics. -/
structure UseStats where
  /-- last time of use -/
  time : U64
  /-- number of packets processed -/
  packets : U64
  /-- number of bytes processed -/
  bytes : U64
  deriving DecidableEq, Repr

structure Sa where
  spi : U32
  src : Host
  dst : Host
  protocol : U8
  reqid : U32
  lifetime : LifetimeCfg
  mode : IpsecMode
  esn : Bool
  inbound : Bool
  espContext : EspContext Aead
  use : UseStats
  softExpired : Bool
  hardExpired : Bool

namespace Sa

/-- `ipsec_sa_create`, with the AEAD its algorithms and keys give, if they are supported. -/
def create (createAead : U16 → Chunk → U16 → Chunk → Option Aead) (args : SaArgs) : Option Sa :=
  if args.protocol ≠ IPPROTO_ESP then none
  -- only UDP encapsulation is supported
  else if !args.encap then none
  else if args.esn then none
  else if args.ipcomp ≠ IPCOMP_NONE then none
  else if args.mode ≠ .tunnel then none
  else
    (createAead args.encAlg args.encKey args.intAlg args.intKey).map fun aead => {
      spi := args.spi
      src := args.src
      dst := args.dst
      protocol := args.protocol
      reqid := args.reqid
      lifetime := args.lifetime
      mode := args.mode
      esn := args.esn
      inbound := args.inbound
      espContext := EspContext.create aead args.inbound
      use := ⟨0, 0, 0⟩
      softExpired := false
      hardExpired := false }

def setSource (this : Sa) (addr : Host) : Sa := { this with src := addr }

def setDestination (this : Sa) (addr : Host) : Sa := { this with dst := addr }

def expire (this : Sa) (hard : Bool) : Sa :=
  if hard then { this with hardExpired := true }
  else if !this.hardExpired && !this.softExpired then { this with softExpired := true }
  else this

def updateUsestats (this : Sa) (now : U64) (bytes : U32) : Sa :=
  let this := { this with
    use := ⟨now, this.use.packets + 1, this.use.bytes + bytes.setWidth 64⟩ }
  if this.lifetime.packets.life ≠ 0 ∧ this.use.packets ≥ this.lifetime.packets.life then
    this.expire true
  else if this.lifetime.bytes.life ≠ 0 ∧ this.use.bytes ≥ this.lifetime.bytes.life then
    this.expire true
  else if this.lifetime.packets.rekey ≠ 0 ∧ this.use.packets ≥ this.lifetime.packets.rekey then
    this.expire false
  else if this.lifetime.bytes.rekey ≠ 0 ∧ this.use.bytes ≥ this.lifetime.bytes.rekey then
    this.expire false
  else this

def matchBySpiDst (this : Sa) (spi : U32) (dst : Host) : Bool :=
  this.spi = spi && this.dst.ipEquals dst && !this.hardExpired

def matchBySpiSrcDst (this : Sa) (spi : U32) (src dst : Host) : Bool :=
  this.spi = spi && this.src.ipEquals src && this.dst.ipEquals dst

def matchByReqid (this : Sa) (reqid : U32) (inbound : Bool) : Bool :=
  this.reqid = reqid && this.inbound = inbound && !this.hardExpired

def sameTriple (this other : Sa) : Bool := other.matchBySpiSrcDst this.spi this.src this.dst

theorem matchBySpiSrcDst_iff {this : Sa} {spi : U32} {src dst : Host} :
    this.matchBySpiSrcDst spi src dst = true ↔
      this.spi = spi ∧ this.src.ipEquals src = true ∧ this.dst.ipEquals dst = true := by
  simp [matchBySpiSrcDst, and_assoc]

theorem sameTriple_symm {a b : Sa} (h : a.sameTriple b = true) : b.sameTriple a = true := by
  rw [sameTriple, matchBySpiSrcDst_iff] at h ⊢
  exact ⟨h.1.symm, Host.ipEquals_symm h.2.1, Host.ipEquals_symm h.2.2⟩

theorem sameTriple_of_match {a b : Sa} {spi : U32} {src dst : Host}
    (ha : a.matchBySpiSrcDst spi src dst = true) (hb : b.matchBySpiSrcDst spi src dst = true) :
    a.sameTriple b = true := by
  rw [matchBySpiSrcDst_iff] at ha hb
  rw [sameTriple, matchBySpiSrcDst_iff]
  exact ⟨hb.1.trans ha.1.symm, Host.ipEquals_trans hb.2.1 (Host.ipEquals_symm ha.2.1),
    Host.ipEquals_trans hb.2.2 (Host.ipEquals_symm ha.2.2)⟩

theorem sameTriple_congr {a a' b b' : Sa} (ha : a'.spi = a.spi ∧ a'.src = a.src ∧ a'.dst = a.dst)
    (hb : b'.spi = b.spi ∧ b'.src = b.src ∧ b'.dst = b.dst) : a'.sameTriple b' = a.sameTriple b := by
  simp [sameTriple, matchBySpiSrcDst, ha, hb]

theorem expire_eq (a : Sa) (hard : Bool) : ∃ soft hard',
    a.expire hard = { a with softExpired := soft, hardExpired := hard' } := by
  unfold expire
  split_ifs
  · exact ⟨_, _, rfl⟩
  · exact ⟨_, _, rfl⟩
  · exact ⟨a.softExpired, a.hardExpired, rfl⟩

theorem updateUsestats_eq (a : Sa) (now : U64) (bytes : U32) : ∃ use soft hard,
    a.updateUsestats now bytes = { a with use := use, softExpired := soft, hardExpired := hard } := by
  have hexpire : ∀ (b : Sa) hard, { b with
      use := a.use
      softExpired := a.softExpired
      hardExpired := a.hardExpired } = a → ∃ use soft hard',
        b.expire hard = { a with use := use, softExpired := soft, hardExpired := hard' } := by
    intro b hard hb
    obtain ⟨soft, hard', heq⟩ := b.expire_eq hard
    refine ⟨b.use, soft, hard', ?_⟩
    rw [heq, ← hb]
  unfold updateUsestats
  dsimp only
  split_ifs
  · exact hexpire _ _ rfl
  · exact hexpire _ _ rfl
  · exact hexpire _ _ rfl
  · exact hexpire _ _ rfl
  · exact ⟨_, _, _, rfl⟩

theorem create_eq {createAead : U16 → Chunk → U16 → Chunk → Option Aead} {args : SaArgs}
    {sa : Sa} (h : create createAead args = some sa) :
    sa.spi = args.spi ∧ sa.src = args.src ∧ sa.dst = args.dst ∧
      ∃ aead, sa.espContext = EspContext.create aead sa.inbound := by
  unfold create at h
  split_ifs at h
  obtain ⟨aead, -, rfl⟩ := Option.map_eq_some_iff.mp h
  exact ⟨rfl, rfl, rfl, aead, rfl⟩

end Sa

end StrongSwan
