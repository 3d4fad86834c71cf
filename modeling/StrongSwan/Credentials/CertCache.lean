import StrongSwan.Credentials.AuthCfg
import StrongSwan.Lib.System

/-!
# The cache of trusted relations

The cache has 32 slots for relations between a subject and its issuer. Threads run its calls section by
section: a section is what is done under a lock, or one look at a slot without it. A CRL takes the place
of an older one, other relations a free slot or else a random one that is not used often.

* `CertOps`: what is asked of certificates; `Slot`, `Pc`, `CertCache`: the state.
* `issuedBy`, `cacheCrl`, `cacheFree`, `replace`, `flush`, `enumerate`: the sections of the calls.
* `step`: a thread starts a call, or runs its next section.

`stamp` is the number of a relation in the order of their caching.
-/

namespace StrongSwan

inductive CertificateType
  | any | x509 | x509Crl | x509OcspRequest | x509OcspResponse | x509Ac | trustedPubkey | pkcs10Request
  | gpg
  deriving DecidableEq, Repr

namespace CertCache

/-- `CACHE_SIZE` -/
def cacheSize : ℕ := 32

/-- `REPLACE_TRIES` -/
def replaceTries : ℕ := 5

end CertCache

/-- What the cache asks of certificates. -/
structure CertOps (Cert : Type) where
  equals : Cert → Cert → Bool
  getType : Cert → CertificateType
  /-- the scheme, if the first certificate is issued by the second one -/
  issuedBy : Cert → Cert → Option SignatureParams
  isDeltaCrl : Cert → Bool
  crlIsNewer : Cert → Cert → Bool

namespace CertCache

/-- The certificates of a `relation_t`. -/
structure Relation (Cert : Type) where
  subject : Cert
  issuer : Cert
  scheme : SignatureParams
  stamp : ℕ

/-- `relation_t`, with the number of enumerators that hold its lock. -/
structure Slot (Cert : Type) where
  relation : Option (Relation Cert) := none
  hits : U32 := 0
  readers : ℕ := 0

/-- A relation to cache: the issuer is one that is already cached, if there is one. -/
structure Job (Cert : Type) where
  subject : Cert
  issuer : Cert
  cachedIssuer : Option Cert
  scheme : SignatureParams

/-- The issuer that is cached. -/
def Job.target {Cert : Type} (job : Job Cert) : Cert := job.cachedIssuer.getD job.issuer

/-- What must not happen. -/
inductive Error
  | nullDereference
  | outOfBounds (index : ℤ)
  deriving DecidableEq, Repr

/-- Where a thread is, with its local variables. -/
inductive Pc (Cert : Type)
  | idle
  /-- `issued_by` is about to look at slot `i`. -/
  | search (subject issuer : Cert) (i : ℕ) (cachedIssuer : Option Cert)
  | issued (subject issuer : Cert) (result : Option SignatureParams)
  /-- `cache` is about to look for an older CRL in slot `i`, without and with the lock. -/
  | crl (job : Job Cert) (i : ℕ)
  | crlLock (job : Job Cert) (i : ℕ)
  /-- `cache` is about to look for a free slot, without and with the lock. -/
  | free (job : Job Cert) (i : ℕ) (totalHits : U32)
  | freeLock (job : Job Cert) (i : ℕ) (totalHits : U32)
  /-- `cache` is about to replace a random slot. -/
  | replaceStart (job : Job Cert) (attempt : ℕ) (totalHits : U32)
  | replace (job : Job Cert) (attempt : ℕ) (offset : BitVec 31) (i : ℕ) (totalHits : U32)
  | replaceLock (job : Job Cert) (attempt : ℕ) (offset : BitVec 31) (i : ℕ) (totalHits : U32)
  /-- `flush` is about to look at slot `i`, without a lock, with the read and with the write lock; the
  call was made when the next stamp was `start`. -/
  | flush (type : CertificateType) (i start : ℕ)
  | flushRead (type : CertificateType) (i start : ℕ)
  | flushWrite (type : CertificateType) (i start : ℕ)
  | flushed (type : CertificateType) (start : ℕ)
  /-- An enumerator of the subjects that satisfy `p`, with the slot whose lock it holds. -/
  | enumerating (p : Cert → Bool) (index : ℕ) (locked : Option ℕ)
  | stuck (error : Error)

inductive Call (Cert : Type)
  | issuedBy (subject issuer : Cert)
  | flush (type : CertificateType)
  | createEnumerator (p : Cert → Bool)

/-- A thread makes a call, runs its next section or destroys its enumerator. In a section `lockFree`
says if a lock is tried with success (it is not, if an enumerator holds it), and `random` is what
`random()` returns. -/
inductive Event (Cert : Type)
  | call (t : ℕ) (call : Call Cert)
  | run (t : ℕ) (lockFree : Bool) (random : BitVec 31)
  | destroy (t : ℕ)

end CertCache

/-- `private_cert_cache_t`, and the threads that use it. -/
structure CertCache (Cert : Type) where
  relations : ℕ → CertCache.Slot Cert
  pc : ℕ → CertCache.Pc Cert
  /-- the stamp of the next relation -/
  clock : ℕ

namespace CertCache

variable {Cert : Type}

def create : CertCache Cert := ⟨fun _ => {}, fun _ => .idle, 0⟩

def goto (this : CertCache Cert) (t : ℕ) (pc : Pc Cert) : CertCache Cert :=
  { this with pc := Function.update this.pc t pc }

def setSlot (this : CertCache Cert) (i : ℕ) (slot : Slot Cert) : CertCache Cert :=
  { this with relations := Function.update this.relations i slot }

/-- Does a thread get a write lock that it tries to get? -/
def tryWriteLock (this : CertCache Cert) (i : ℕ) (lockFree : Bool) : Bool :=
  lockFree && decide ((this.relations i).readers = 0)

def store (this : CertCache Cert) (i : ℕ) (subject issuer : Cert) (scheme : SignatureParams)
    (hits : U32) : CertCache Cert :=
  { this.setSlot i { this.relations i with
      relation := some ⟨subject, issuer, scheme, this.clock⟩, hits := hits } with
    clock := this.clock + 1 }

/-- The result of the call whose relation was cached. -/
def Job.done (job : Job Cert) : Pc Cert := .issued job.subject job.issuer (some job.scheme)

/-- The index of the `i`-th slot from a random one on, as a C `int`. -/
def slotIndex (i : ℕ) (offset : BitVec 31) : ℤ :=
  (BitVec.ofNat 32 i + offset.setWidth 32).toInt.tmod cacheSize

/-- The start of `cache`. -/
def cache (ops : CertOps Cert) (job : Job Cert) : Pc Cert :=
  if ops.getType job.subject = .x509Crl then .crl job 0 else .free job 0 0

/-- One slot in the loop of `issued_by`, and what comes after the loop. -/
def issuedBy (ops : CertOps Cert) (this : CertCache Cert) (t : ℕ) (subject issuer : Cert) (i : ℕ)
    (cachedIssuer : Option Cert) : CertCache Cert :=
  if i < cacheSize then
    match (this.relations i).relation with
    | none => this.goto t (.search subject issuer (i + 1) cachedIssuer)
    | some current =>
      if ops.equals issuer current.issuer then
        if ops.equals subject current.subject then
          (this.setSlot i { this.relations i with hits := (this.relations i).hits + 1 }).goto t
            (.issued subject issuer (some current.scheme))
        else
          this.goto t (.search subject issuer (i + 1) (some (cachedIssuer.getD current.issuer)))
      else this.goto t (.search subject issuer (i + 1) cachedIssuer)
  else
    match ops.issuedBy subject issuer with
    | some scheme => this.goto t (cache ops ⟨subject, issuer, cachedIssuer, scheme⟩)
    | none => this.goto t (.issued subject issuer none)

/-- Is there a CRL in slot `i`? -/
def cacheCrl (ops : CertOps Cert) (this : CertCache Cert) (t : ℕ) (job : Job Cert) (i : ℕ) :
    CertCache Cert :=
  if i < cacheSize then
    match (this.relations i).relation with
    | some rel =>
      if ops.getType rel.subject = .x509Crl then this.goto t (.crlLock job i)
      else this.goto t (.crl job (i + 1))
    | none => this.goto t (.crl job (i + 1))
  else this.goto t (.free job 0 0)

/-- Replace an older CRL of the issuer in slot `i`; the subject is read without a check for `NULL`. -/
def cacheCrlLock (ops : CertOps Cert) (this : CertCache Cert) (t : ℕ) (job : Job Cert) (i : ℕ)
    (lockFree : Bool) : CertCache Cert :=
  if this.tryWriteLock i lockFree then
    match (this.relations i).relation with
    | none => this.goto t (.stuck .nullDereference)
    | some rel =>
      if ops.getType rel.subject = .x509Crl ∧ ops.equals rel.issuer job.target = true ∧
          ops.isDeltaCrl rel.subject = ops.isDeltaCrl job.subject ∧
          ops.crlIsNewer job.subject rel.subject = true then
        (this.store i job.subject rel.issuer job.scheme (this.relations i).hits).goto t job.done
      else this.goto t (.crl job (i + 1))
  else this.goto t (.crl job (i + 1))

/-- Is slot `i` free? -/
def cacheFree (this : CertCache Cert) (t : ℕ) (job : Job Cert) (i : ℕ) (totalHits : U32) :
    CertCache Cert :=
  if i < cacheSize then
    match (this.relations i).relation with
    | none => this.goto t (.freeLock job i totalHits)
    | some _ => this.goto t (.free job (i + 1) (totalHits + (this.relations i).hits))
  else this.goto t (.replaceStart job 0 totalHits)

def cacheFreeLock (this : CertCache Cert) (t : ℕ) (job : Job Cert) (i : ℕ) (totalHits : U32)
    (lockFree : Bool) : CertCache Cert :=
  if this.tryWriteLock i lockFree ∧ (this.relations i).relation.isNone = true then
    (this.store i job.subject job.target job.scheme (this.relations i).hits).goto t job.done
  else this.goto t (.free job (i + 1) (totalHits + (this.relations i).hits))

/-- Take a random slot to start from, unless this was tried often enough. -/
def replaceStart (this : CertCache Cert) (t : ℕ) (job : Job Cert) (attempt : ℕ) (totalHits : U32)
    (random : BitVec 31) : CertCache Cert :=
  if attempt < replaceTries then this.goto t (.replace job attempt random 0 totalHits)
  else this.goto t job.done

/-- Skip often used slots. -/
def replace (this : CertCache Cert) (t : ℕ) (job : Job Cert) (attempt : ℕ) (offset : BitVec 31)
    (i : ℕ) (totalHits : U32) : CertCache Cert :=
  if i < cacheSize then
    let index := slotIndex i offset
    if 0 ≤ index ∧ index < cacheSize then
      if (this.relations index.toNat).hits > totalHits / BitVec.ofNat 32 cacheSize then
        this.goto t (.replace job attempt offset (i + 1) totalHits)
      else this.goto t (.replaceLock job attempt offset i totalHits)
    else this.goto t (.stuck (.outOfBounds index))
  else this.goto t (.replaceStart job (attempt + 1) totalHits)

/-- Replace the relation of a slot, without blocking. -/
def replaceLock (this : CertCache Cert) (t : ℕ) (job : Job Cert) (attempt : ℕ) (offset : BitVec 31)
    (i : ℕ) (totalHits : U32) (lockFree : Bool) : CertCache Cert :=
  let index := (slotIndex i offset).toNat
  if this.tryWriteLock index lockFree then
    (this.store index job.subject job.target job.scheme 0).goto t job.done
  else this.goto t (.replace job attempt offset (i + 1) totalHits)

/-- One slot in the loop of `flush`, that is checked with a lock if it is in use. -/
def flush (this : CertCache Cert) (t : ℕ) (type : CertificateType) (i start : ℕ) : CertCache Cert :=
  if i < cacheSize then
    match (this.relations i).relation with
    | none => this.goto t (.flush type (i + 1) start)
    | some _ =>
      if type ≠ .any then this.goto t (.flushRead type i start)
      else this.goto t (.flushWrite type i start)
  else this.goto t (.flushed type start)

/-- Check with the cheap read lock first. -/
def flushRead (ops : CertOps Cert) (this : CertCache Cert) (t : ℕ) (type : CertificateType)
    (i start : ℕ) : CertCache Cert :=
  match (this.relations i).relation with
  | none => this.goto t (.flush type (i + 1) start)
  | some rel =>
    if type = ops.getType rel.subject then this.goto t (.flushWrite type i start)
    else this.goto t (.flush type (i + 1) start)

def Flushes (ops : CertOps Cert) (type : CertificateType) (subject : Cert) : Prop :=
  type = .any ∨ type = ops.getType subject

instance (ops : CertOps Cert) (type : CertificateType) (subject : Cert) :
    Decidable (Flushes ops type subject) := by unfold Flushes; infer_instance

/-- Double check with the write lock, which has to wait for enumerators. -/
def flushWrite (ops : CertOps Cert) (this : CertCache Cert) (t : ℕ) (type : CertificateType)
    (i start : ℕ) : CertCache Cert :=
  if (this.relations i).readers = 0 then
    match (this.relations i).relation with
    | none => this.goto t (.flush type (i + 1) start)
    | some rel =>
      if Flushes ops type rel.subject then
        (this.setSlot i { this.relations i with relation := none, hits := 0 }).goto t
          (.flush type (i + 1) start)
      else this.goto t (.flush type (i + 1) start)
  else this

/-- Give back the lock an enumerator holds. -/
def unlock (this : CertCache Cert) : Option ℕ → CertCache Cert
  | none => this
  | some i => this.setSlot i { this.relations i with readers := (this.relations i).readers - 1 }

/-- An enumerator goes to the next slot, whose lock it keeps if it yields the subject. -/
def enumerate (this : CertCache Cert) (t : ℕ) (p : Cert → Bool) (index : ℕ) (locked : Option ℕ) :
    CertCache Cert :=
  let this := this.unlock locked
  if index < cacheSize then
    match (this.relations index).relation with
    | none => this.goto t (.enumerating p (index + 1) none)
    | some rel =>
      if p rel.subject then
        (this.setSlot index
          { this.relations index with readers := (this.relations index).readers + 1 }).goto t
            (.enumerating p (index + 1) (some index))
      else this.goto t (.enumerating p (index + 1) none)
  else this.goto t .idle

/-- A thread that is in no call starts one. -/
def start (this : CertCache Cert) (t : ℕ) : Call Cert → CertCache Cert
  | .issuedBy subject issuer => this.goto t (.search subject issuer 0 none)
  | .flush type => this.goto t (.flush type 0 this.clock)
  | .createEnumerator p => this.goto t (.enumerating p 0 none)

/-- A thread runs its next section. -/
def run (ops : CertOps Cert) (this : CertCache Cert) (t : ℕ) (lockFree : Bool) (random : BitVec 31) :
    CertCache Cert :=
  match this.pc t with
  | .search subject issuer i cachedIssuer => this.issuedBy ops t subject issuer i cachedIssuer
  | .crl job i => this.cacheCrl ops t job i
  | .crlLock job i => this.cacheCrlLock ops t job i lockFree
  | .free job i totalHits => this.cacheFree t job i totalHits
  | .freeLock job i totalHits => this.cacheFreeLock t job i totalHits lockFree
  | .replaceStart job attempt totalHits => this.replaceStart t job attempt totalHits random
  | .replace job attempt offset i totalHits => this.replace t job attempt offset i totalHits
  | .replaceLock job attempt offset i totalHits =>
    this.replaceLock t job attempt offset i totalHits lockFree
  | .flush type i start => this.flush t type i start
  | .flushRead type i start => this.flushRead ops t type i start
  | .flushWrite type i start => this.flushWrite ops t type i start
  | .enumerating p index locked => this.enumerate t p index locked
  | .idle | .issued _ _ _ | .flushed _ _ | .stuck _ => this

/-- The system: what cannot happen changes nothing. -/
def step (ops : CertOps Cert) (this : CertCache Cert) : Event Cert → CertCache Cert
  | .call t call =>
    match this.pc t with
    | .idle | .issued _ _ _ | .flushed _ _ => this.start t call
    | _ => this
  | .run t lockFree random => this.run ops t lockFree random
  | .destroy t =>
    match this.pc t with
    | .enumerating _ _ locked => (this.unlock locked).goto t .idle
    | _ => this

end CertCache

end StrongSwan
