import StrongSwan.Crypto.Hasher
import StrongSwan.Encoding.Message
import Mathlib

/-!
# The receiver

Initial messages are dropped if there are too many half-open IKE_SAs; before that the sender has to
return a cookie, which is a time stamp with a hash of its address and SPI under a secret.

* `cookieBuild`, `cookieVerify`, `checkCookie`: the cookie of a message.
* `cookieRequired`, `dropIkeSaInit`: the decision on an initial message.
-/

namespace StrongSwan

/-- `COOKIE_LIFETIME`, in seconds -/
def cookieLifetime : U32 := 10

/-- `COOKIE_CALMDOWN_DELAY`: how long cookies stay required, in seconds -/
def cookieCalmdownDelay : U64 := 10

/-- `COOKIE_REUSE`: how many times to reuse the secret -/
def cookieReuse : U32 := 10000

/-- `SECRET_LENGTH` -/
def secretLength : ℕ := 16

abbrev CookieSecret := {secret : Chunk // secret.length = secretLength}

/-- The bytes of an integer in memory (on a little-endian host). -/
def memoryOf (n : U32) : Chunk := (htoun32 n).reverse

/-- The integer with these bytes in memory. -/
def ofMemory (p : Chunk) : U32 := untoh32 (p.take 4).reverse

@[simp] theorem length_memoryOf (n : U32) : (memoryOf n).length = 4 := by simp [memoryOf]

theorem ofMemory_memoryOf (n : U32) (rest : Chunk) : ofMemory (memoryOf n ++ rest) = n := by
  rw [ofMemory, List.take_left' (length_memoryOf n), memoryOf, List.reverse_reverse, untoh32_htoun32]

theorem memoryOf_inj {m n : U32} (h : memoryOf m = memoryOf n) : m = n := by
  rw [← ofMemory_memoryOf m [], h, ofMemory_memoryOf]

/-- `private_receiver_t`, without the delays and callbacks -/
structure IkeReceiver where
  /-- current secret to use for cookie calculation -/
  secret : CookieSecret
  /-- previous secret used to verify older cookies -/
  secretOld : CookieSecret
  /-- how many times we have used `secret` so far -/
  secretUsed : U32
  /-- time we did the cookie switch -/
  secretSwitch : U32
  /-- time offset to use, hides our system time -/
  secretOffset : U32
  /-- require cookies after this many half open IKE_SAs -/
  cookieThreshold : U32
  /-- timestamp of last cookie requested -/
  lastCookie : U64
  /-- how many half open IKE_SAs per peer before blocking -/
  blockThreshold : U32
  /-- drop IKE_SA_INIT requests if processor job load exceeds this limit -/
  initLimitJobLoad : U32
  /-- drop IKE_SA_INIT requests if half open IKE_SA count exceeds this limit -/
  initLimitHalfOpen : U32

/-- `receiver_create` at a time, with the limits that are configured -/
def receiverCreate (now random : U32) (secret : CookieSecret)
    (cookieThreshold blockThreshold initLimitJobLoad initLimitHalfOpen : U32) : IkeReceiver where
  secret
  secretOld := secret
  secretUsed := 0
  secretSwitch := now
  secretOffset := random % now
  cookieThreshold
  lastCookie := 0
  blockThreshold
  initLimitJobLoad
  initLimitHalfOpen

namespace Message

/-- The bytes of the source address. -/
def sourceAddress (this : Message) : Chunk := (this.packet.source.map Host.address).getD []

def getInitiatorSpi (this : Message) : U64 := (this.ikeSaId.map IkeSaId.initiatorSpi).getD 0

/-- Does the packet start with a notify of type COOKIE, long enough for the hash? -/
def hasCookie (hasher : Hasher) (this : Message) : Bool :=
  let data := this.packet.data
  !(decide (data.length < 28 + 8 + 4 + hasher.hashSize) || data.getD 16 0 ≠ 41 ||
    untoh16 (data.drop (28 + 6)) ≠ 16390)

def cookie (hasher : Hasher) (this : Message) : Chunk :=
  (this.packet.data.drop (28 + 8)).take (4 + hasher.hashSize)

end Message

theorem Message.length_sourceAddress (this : Message) : this.sourceAddress.length ≤ 16 := by
  unfold sourceAddress
  cases this.packet.source with
  | none => simp
  | some source =>
    change source.address.length ≤ 16
    rw [source.length_address]
    cases source.family <;> simp [Family.len]

/-- What is hashed for a cookie. -/
def cookieInput (address : Chunk) (spi : U64) (t : U32) (secret : CookieSecret) : Chunk :=
  address ++ htoun64 spi ++ memoryOf t ++ secret

theorem length_cookieInput {address : Chunk} (spi : U64) (t : U32) (secret : CookieSecret)
    (h : address.length ≤ 16) : (cookieInput address spi t secret).length ≤ 44 := by
  have hsecret : secret.1.length = 16 := secret.2
  simp only [cookieInput, List.length_append, length_htoun64, length_memoryOf]
  omega

/-- **The input of the hash determines everything in it.** -/
theorem cookieInput_inj {address address' : Chunk} {spi spi' : U64} {t t' : U32}
    {secret secret' : CookieSecret}
    (h : cookieInput address spi t secret = cookieInput address' spi' t' secret') :
    address = address' ∧ spi = spi' ∧ t = t' ∧ secret = secret' := by
  obtain ⟨hrest, hsecret⟩ := List.append_inj' h (secret.2.trans secret'.2.symm)
  obtain ⟨hrest, ht⟩ := List.append_inj' hrest (by simp)
  obtain ⟨haddress, hspi⟩ := List.append_inj' hrest (by simp)
  exact ⟨haddress, htoun64_inj hspi, memoryOf_inj ht, Subtype.ext hsecret⟩

namespace IkeReceiver

variable (hasher : Hasher)


/-- Build a cookie: `t | sha1( IPi | SPIi | t | secret )`. -/
def cookieBuild (message : Message) (t : U32) (secret : CookieSecret) : Option Chunk :=
  let input := cookieInput message.sourceAddress message.getInitiatorSpi t secret
  (hasher.getHash input).map (memoryOf t ++ ·)

def cookieVerify (this : IkeReceiver) (message : Message) (cookie : Chunk) (now : U32) : Bool :=
  let t := ofMemory cookie
  if cookie.length ≠ 4 + hasher.hashSize ∨ t < now - this.secretOffset - cookieLifetime then false
  else
    -- check if cookie is derived from old secret
    let secret := if t + this.secretOffset > this.secretSwitch then this.secret else this.secretOld
    match cookieBuild hasher message t secret with
    | none => false
    | some reference => reference = cookie

/-- Check if a valid cookie found. -/
def checkCookie (this : IkeReceiver) (message : Message) (now : U32) : Bool :=
  message.hasCookie hasher && this.cookieVerify hasher message (message.cookie hasher) now

/-- Check if we currently require cookies. -/
def cookieRequired (this : IkeReceiver) (halfOpen now : U32) : Bool × IkeReceiver :=
  if this.cookieThreshold ≠ 0 ∧ halfOpen ≥ this.cookieThreshold then
    (true, { this with lastCookie := now.setWidth 64 })
  else if this.lastCookie ≠ 0 ∧ now.setWidth 64 < this.lastCookie + cookieCalmdownDelay then
    -- cookies are not disabled unless there were no initial messages for a while
    (true, { this with lastCookie := now.setWidth 64 })
  else (false, this)

/-- Count the use of the secret, and replace it by a new one after many. -/
def useSecret (this : IkeReceiver) (now : U32) (random : Option CookieSecret) : IkeReceiver :=
  let this := { this with secretUsed := this.secretUsed + 1 }
  if this.secretUsed > cookieReuse then
    match random with
    | some secret => { this with
        secretOld := this.secret
        secret
        secretSwitch := now
        secretUsed := 0 }
    -- failed to allocate cookie secret, keeping old
    | none => this
  else this

end IkeReceiver

/-- An initial message, with what is read from elsewhere while it is handled. -/
structure InitialMessage where
  message : Message
  /-- the time when it is received -/
  now : U32
  /-- the time when its cookie is verified -/
  verified : U32
  /-- the number of half-open IKE_SAs -/
  halfOpen : U32
  /-- those with the source of the message -/
  halfOpenPeer : U32
  /-- the load for each priority of jobs -/
  jobLoad : List U32
  /-- what the RNG returns, if it is asked -/
  random : Option CookieSecret

namespace IkeReceiver

/-- Check if we should drop IKE_SA_INIT because of overload checking. -/
def overloaded (this : IkeReceiver) (initial : InitialMessage) : Bool :=
  -- check if peer has too many IKE_SAs half open
  (this.blockThreshold ≠ 0 && decide (initial.halfOpenPeer ≥ this.blockThreshold)) ||
  -- check if global half open IKE_SA limit reached
  (this.initLimitHalfOpen ≠ 0 && decide (initial.halfOpen ≥ this.initLimitHalfOpen)) ||
  -- check if job load acceptable
  (this.initLimitJobLoad ≠ 0 && decide (initial.jobLoad.sum > this.initLimitJobLoad))

/-- Check for cookies in IKEv2. -/
def needsCookie (this : IkeReceiver) (initial : InitialMessage) : Bool × IkeReceiver :=
  if initial.message.majorVersion = ikev2MajorVersion then
    this.cookieRequired initial.halfOpen initial.now
  else (false, this)

/-- Check if we should drop IKE_SA_INIT because of cookie/overload checking. Also returns the cookie
that is sent. -/
def dropIkeSaInit (hasher : Hasher) (this : IkeReceiver) (initial : InitialMessage) :
    Bool × Option Chunk × IkeReceiver :=
  match this.needsCookie initial with
  | (required, this) =>
    if required && !this.checkCookie hasher initial.message initial.verified then
      match cookieBuild hasher initial.message (initial.now - this.secretOffset) this.secret with
      | none => (true, none, this)
      | some cookie => (true, some cookie, this.useSecret initial.now initial.random)
    else (this.overloaded initial, none, this)

end IkeReceiver

end StrongSwan
