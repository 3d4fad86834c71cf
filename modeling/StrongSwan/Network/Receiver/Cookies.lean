import StrongSwan.Lib.System
import StrongSwan.Network.Receiver

/-!
# Cookies are accepted while they are valid

* `CookieWorld`, `cookieSystem`: a receiver with the secrets that were drawn and the cookies that
  were sent.
* `CookieWorld.Sent`, `CookieWorld.Inv`: what is known of a cookie that was sent, and of the secrets.
* `cookieVerify_iff`: the two comparisons of the receiver without wrapping.
* **`cookies_exact`**: when a receiver treats a message with a cookie as it should.
-/

namespace StrongSwan

structure SentCookie where
  cookie : Chunk
  /-- the address and SPI it was sent to -/
  address : Chunk
  spi : U64
  time : U32
  /-- how often the secret had been replaced before -/
  replaced : ℕ

def SentCookie.IsFor (this : SentCookie) (message : Message) : Prop :=
  this.address = message.sourceAddress ∧ this.spi = message.getInitiatorSpi

/-- A receiver, and what happened to it so far. -/
structure CookieWorld where
  receiver : IkeReceiver
  /-- the last time that was read -/
  clock : U32
  /-- the secrets that were drawn, the first one first -/
  secrets : List CookieSecret
  sent : List SentCookie

namespace CookieWorld

/-- How often the secret was replaced. -/
def replaced (this : CookieWorld) : ℕ := this.secrets.length - 1

/-- The receiver gets an initial message. -/
def step (hasher : Hasher) (this : CookieWorld) (initial : InitialMessage) : CookieWorld :=
  let (_, cookie, receiver) := this.receiver.dropIkeSaInit hasher initial
  { receiver
    clock := initial.verified
    secrets := this.secrets ++ if receiver.secret = this.receiver.secret then [] else [receiver.secret]
    sent := match cookie with
      | none => this.sent
      | some cookie => ⟨cookie, initial.message.sourceAddress, initial.message.getInitiatorSpi,
          initial.now, this.replaced⟩ :: this.sent }

/-- A receiver that was just created, with an offset below the clock. -/
structure Created (this : CookieWorld) : Prop where
  offset_lt : this.receiver.secretOffset < this.clock
  secretSwitch : this.receiver.secretSwitch = this.clock
  secretOld : this.receiver.secretOld = this.receiver.secret
  secrets : this.secrets = [this.receiver.secret]
  sent : this.sent = []

/-- The clock does not go back, and no secret is drawn again. -/
structure Sound (this : CookieWorld) (initial : InitialMessage) : Prop where
  received : this.clock ≤ initial.now
  verified : initial.now ≤ initial.verified
  fresh : ∀ secret, initial.random = some secret → secret ∉ this.secrets

end CookieWorld

/-- The runs of a receiver. -/
def cookieSystem (hasher : Hasher) : LTS.System CookieWorld InitialMessage :=
  (LTS.ofFun CookieWorld.Created (CookieWorld.step hasher)).restrict CookieWorld.Sound

namespace IkeReceiver

variable {hasher : Hasher} {this : IkeReceiver} {initial : InitialMessage} {message : Message}
  {t now : U32} {secret : CookieSecret} {cookie : Chunk}

/-- The secrets and times of a receiver are kept. -/
structure SameSecrets (this this' : IkeReceiver) : Prop where
  secret : this'.secret = this.secret
  secretOld : this'.secretOld = this.secretOld
  secretSwitch : this'.secretSwitch = this.secretSwitch
  secretOffset : this'.secretOffset = this.secretOffset

theorem SameSecrets.refl (this : IkeReceiver) : this.SameSecrets this := ⟨rfl, rfl, rfl, rfl⟩

structure Replaces (this this' : IkeReceiver) (now : U32) (secret : CookieSecret) : Prop where
  secret : this'.secret = secret
  secretOld : this'.secretOld = this.secret
  secretSwitch : this'.secretSwitch = now
  secretOffset : this'.secretOffset = this.secretOffset

theorem needsCookie_same (initial : InitialMessage) :
    this.SameSecrets (this.needsCookie initial).2 := by
  unfold needsCookie cookieRequired
  split_ifs <;> exact ⟨rfl, rfl, rfl, rfl⟩

theorem useSecret_cases (now : U32) (random : Option CookieSecret) :
    this.SameSecrets (this.useSecret now random) ∨
      ∃ secret, random = some secret ∧ this.Replaces (this.useSecret now random) now secret := by
  unfold useSecret
  dsimp only
  split_ifs
  · cases random with
    | none => exact .inl ⟨rfl, rfl, rfl, rfl⟩
    | some secret => exact .inr ⟨secret, rfl, rfl, rfl, rfl, rfl⟩
  · exact .inl ⟨rfl, rfl, rfl, rfl⟩

/-- **What an initial message does**: nothing, or a cookie is sent, and perhaps the secret is replaced
after that. -/
theorem dropIkeSaInit_cases (hasher : Hasher) (this : IkeReceiver) (initial : InitialMessage) :
    ((this.dropIkeSaInit hasher initial).2.1 = none ∧
        this.SameSecrets (this.dropIkeSaInit hasher initial).2.2) ∨
      ∃ cookie, (this.dropIkeSaInit hasher initial).2.1 = some cookie ∧
        cookieBuild hasher initial.message (initial.now - this.secretOffset) this.secret =
          some cookie ∧
        (this.SameSecrets (this.dropIkeSaInit hasher initial).2.2 ∨
          ∃ secret, initial.random = some secret ∧
            this.Replaces (this.dropIkeSaInit hasher initial).2.2 initial.now secret) := by
  have hchecked : this.SameSecrets (this.needsCookie initial).2 := needsCookie_same initial
  obtain ⟨hsecret, hold, hswitch, hoffset⟩ := hchecked
  unfold dropIkeSaInit
  generalize this.needsCookie initial = checked at *
  obtain ⟨required, receiver⟩ := checked
  dsimp only at *
  split_ifs
  · cases hbuild : cookieBuild hasher initial.message (initial.now - receiver.secretOffset)
      receiver.secret with
    | none => exact .inl ⟨rfl, hsecret, hold, hswitch, hoffset⟩
    | some cookie =>
      refine .inr ⟨cookie, rfl, by rw [← hoffset, ← hsecret, hbuild], ?_⟩
      have hused : receiver.SameSecrets (receiver.useSecret initial.now initial.random) ∨ _ :=
        useSecret_cases initial.now initial.random
      obtain hsame | ⟨secret, hrandom, hreplaces⟩ := hused
      · exact .inl ⟨hsame.secret.trans hsecret, hsame.secretOld.trans hold,
          hsame.secretSwitch.trans hswitch, hsame.secretOffset.trans hoffset⟩
      · exact .inr ⟨secret, hrandom, hreplaces.secret, hreplaces.secretOld.trans hsecret,
          hreplaces.secretSwitch, hreplaces.secretOffset.trans hoffset⟩
  · exact .inl ⟨rfl, hsecret, hold, hswitch, hoffset⟩

end IkeReceiver

namespace CookieWorld

variable {hasher : Hasher} {this : CookieWorld} {initial : InitialMessage} {message : Message}
  {sent : SentCookie} {now : U32}

/-- What is known of a cookie that was sent. -/
structure Issued (hasher : Hasher) (this : CookieWorld) (sent : SentCookie) : Prop where
  built : ∃ secret hash, this.secrets[sent.replaced]? = some secret ∧
    hasher.getHash (cookieInput sent.address sent.spi (sent.time - this.receiver.secretOffset) secret) =
      some hash ∧
    sent.cookie = memoryOf (sent.time - this.receiver.secretOffset) ++ hash
  length_address : sent.address.length ≤ 16
  offset_lt : this.receiver.secretOffset < sent.time
  time_le : sent.time ≤ this.clock
  before : sent.replaced < this.replaced → sent.time ≤ this.receiver.secretSwitch
  after : sent.replaced = this.replaced → this.receiver.secretSwitch ≤ sent.time

/-- The invariant of all runs. -/
structure Inv (hasher : Hasher) (this : CookieWorld) : Prop where
  nodup : this.secrets.Nodup
  nonempty : 0 < this.secrets.length
  secret : this.secrets[this.replaced]? = some this.receiver.secret
  secretOld : this.secrets[this.replaced - 1]? = some this.receiver.secretOld
  offset_lt : this.receiver.secretOffset < this.clock
  switch_le : this.receiver.secretSwitch ≤ this.clock
  issued : ∀ sent ∈ this.sent, this.Issued hasher sent

theorem Issued.replaced_le (h : this.Issued hasher sent) : sent.replaced ≤ this.replaced := by
  obtain ⟨_, _, hsecret, -, -⟩ := h.built
  obtain ⟨hlt, -⟩ := List.getElem?_eq_some_iff.mp hsecret
  unfold replaced
  omega

theorem Created.inv (h : this.Created) : this.Inv hasher where
  nodup := by simp [h.secrets]
  nonempty := by simp [h.secrets]
  secret := by simp [replaced, h.secrets]
  secretOld := by simp [replaced, h.secrets, h.secretOld]
  offset_lt := h.offset_lt
  switch_le := by simp [h.secretSwitch]
  issued sent hsent := by simp [h.sent] at hsent

theorem Issued.same {this' : CookieWorld} (h : this.Issued hasher sent)
    (hsame : this.receiver.SameSecrets this'.receiver) (hsecrets : this'.secrets = this.secrets)
    (hclock : this.clock ≤ this'.clock) : this'.Issued hasher sent where
  built := by
    rw [hsecrets, hsame.secretOffset]
    exact h.built
  length_address := h.length_address
  offset_lt := hsame.secretOffset ▸ h.offset_lt
  time_le := BitVec.le_trans h.time_le hclock
  before hlt := by
    rw [hsame.secretSwitch]
    exact h.before (by rwa [replaced, hsecrets] at hlt)
  after heq := by
    rw [hsame.secretSwitch]
    exact h.after (by rwa [replaced, hsecrets] at heq)

theorem Issued.replaces {this' : CookieWorld} {secret : CookieSecret} (h : this.Issued hasher sent)
    (hreplaces : this.receiver.Replaces this'.receiver now secret)
    (hsecrets : this'.secrets = this.secrets ++ [secret]) (hnow : sent.time ≤ now)
    (hclock : this.clock ≤ this'.clock) : this'.Issued hasher sent where
  built := by
    obtain ⟨secret, hash, hsecret, hhash⟩ := h.built
    obtain ⟨hlt, -⟩ := List.getElem?_eq_some_iff.mp hsecret
    rw [hsecrets, hreplaces.secretOffset]
    exact ⟨secret, hash, by rw [List.getElem?_append_left hlt, hsecret], hhash⟩
  length_address := h.length_address
  offset_lt := hreplaces.secretOffset ▸ h.offset_lt
  time_le := BitVec.le_trans h.time_le hclock
  before _ := by
    rw [hreplaces.secretSwitch]
    exact hnow
  after heq := by
    have hle := h.replaced_le
    obtain ⟨_, _, hsecret, -, -⟩ := h.built
    obtain ⟨hlt, -⟩ := List.getElem?_eq_some_iff.mp hsecret
    rw [replaced, hsecrets, List.length_append, List.length_singleton] at heq
    omega

theorem Inv.issue (h : this.Inv hasher) (hsound : this.Sound initial) {cookie : Chunk}
    (hbuild : IkeReceiver.cookieBuild hasher initial.message
      (initial.now - this.receiver.secretOffset) this.receiver.secret = some cookie) :
    Issued hasher { this with clock := initial.verified }
      ⟨cookie, initial.message.sourceAddress, initial.message.getInitiatorSpi, initial.now,
        this.replaced⟩ where
  built := by
    obtain ⟨hash, hhash, hcookie⟩ := Option.map_eq_some_iff.mp hbuild
    exact ⟨_, hash, h.secret, hhash, hcookie.symm⟩
  length_address := initial.message.length_sourceAddress
  offset_lt := Nat.lt_of_lt_of_le h.offset_lt hsound.received
  time_le := hsound.verified
  before hlt := absurd hlt (Nat.lt_irrefl _)
  after _ := BitVec.le_trans h.switch_le hsound.received

/-- **A message keeps the invariant.** -/
theorem Inv.step (h : this.Inv hasher) (hsound : this.Sound initial) :
    (this.step hasher initial).Inv hasher := by
  have hclock : this.clock ≤ initial.verified := BitVec.le_trans hsound.received hsound.verified
  have hlt : this.receiver.secretOffset < initial.verified :=
    Nat.lt_of_lt_of_le h.offset_lt hclock
  have hcases := this.receiver.dropIkeSaInit_cases hasher initial
  unfold CookieWorld.step
  generalize this.receiver.dropIkeSaInit hasher initial = result at *
  obtain ⟨dropped, cookie, receiver⟩ := result
  dsimp only at *
  -- what a receiver with the same secrets knows
  have hkept : this.receiver.SameSecrets receiver → ∀ cookies,
      (∀ sent ∈ cookies, Issued hasher { this with clock := initial.verified } sent) →
      Inv hasher ⟨receiver, initial.verified,
        this.secrets ++ if receiver.secret = this.receiver.secret then [] else [receiver.secret],
        cookies⟩ := by
    intro hsame cookies hcookies
    rw [if_pos hsame.secret, List.append_nil]
    exact ⟨h.nodup, h.nonempty, hsame.secret ▸ h.secret, hsame.secretOld ▸ h.secretOld,
      hsame.secretOffset ▸ hlt, hsame.secretSwitch ▸ BitVec.le_trans h.switch_le hclock,
      fun sent hsent => (hcookies sent hsent).same hsame rfl (BitVec.le_refl _)⟩
  have hearlier : ∀ sent ∈ this.sent, Issued hasher { this with clock := initial.verified } sent :=
    fun sent hsent => (h.issued sent hsent).same (.refl _) rfl hclock
  obtain ⟨rfl, hsame⟩ | ⟨cookie, rfl, hbuild, hsame | ⟨secret, hrandom, hreplaces⟩⟩ := hcases
  · exact hkept hsame _ hearlier
  · exact hkept hsame _ (List.forall_mem_cons.mpr ⟨h.issue hsound hbuild, hearlier⟩)
  · have hfresh := hsound.fresh secret hrandom
    have hmem : this.receiver.secret ∈ this.secrets := List.mem_of_getElem? h.secret
    have hne : receiver.secret ≠ this.receiver.secret := by
      rw [hreplaces.secret]
      rintro rfl
      exact hfresh hmem
    rw [if_neg hne, hreplaces.secret]
    have hpos := h.nonempty
    have hindex : this.replaced + 1 = this.secrets.length := by
      unfold replaced
      omega
    refine ⟨?_, by simp, ?_, ?_, hreplaces.secretOffset ▸ hlt, hreplaces.secretSwitch ▸ hsound.verified,
      ?_⟩
    · refine List.nodup_append.mpr ⟨h.nodup, List.nodup_singleton _, fun old hold new hnew => ?_⟩
      rw [List.mem_singleton.mp hnew]
      rintro rfl
      exact hfresh hold
    · simp [replaced, hreplaces.secret]
    · have hlast : this.secrets.length - 1 < this.secrets.length := by omega
      have hsecret := h.secret
      rw [replaced] at hsecret
      have hafter : (this.secrets ++ [secret]).length - 1 - 1 = this.secrets.length - 1 := by
        rw [List.length_append, List.length_singleton, Nat.add_sub_cancel]
      show (this.secrets ++ [secret])[(this.secrets ++ [secret]).length - 1 - 1]? = _
      rw [hafter, List.getElem?_append_left hlast, hsecret, hreplaces.secretOld]
    · refine List.forall_mem_cons.mpr ⟨?_, fun sent hsent => ?_⟩
      · exact (h.issue hsound hbuild).replaces hreplaces rfl (BitVec.le_refl _) (BitVec.le_refl _)
      · exact (hearlier sent hsent).replaces hreplaces rfl
          (BitVec.le_trans (h.issued sent hsent).time_le hsound.received) (BitVec.le_refl _)

theorem inv_of_run {es : List InitialMessage} (h : LTS.Run (cookieSystem hasher) es this) :
    this.Inv hasher :=
  h.invariant Created.inv fun hinv hstep => by
    obtain ⟨hsound, rfl⟩ := hstep
    exact hinv.step hsound

/-! ## Verification -/

/-- How often the secret had been replaced before the one that a stamp selects. -/
def selected (this : CookieWorld) (time : U32) : ℕ :=
  if time > this.receiver.secretSwitch then this.replaced else this.replaced - 1

/-- **The lifetime of a cookie**: the comparison wraps if the clock is not far above the offset. -/
theorem Issued.lifetime (h : this.Issued hasher sent) (hnow : this.clock ≤ now) :
    ¬ sent.time - this.receiver.secretOffset < now - this.receiver.secretOffset - cookieLifetime ↔
      now.toNat ≤ sent.time.toNat + 10 ∧ this.receiver.secretOffset.toNat + 10 ≤ now.toNat := by
  have hoffset := h.offset_lt
  have htime := h.time_le
  have hlt := now.isLt
  rw [BitVec.lt_def] at hoffset ⊢
  rw [BitVec.le_def] at htime hnow
  have hlifetime : cookieLifetime.toNat = 10 := rfl
  simp only [BitVec.toNat_sub, hlifetime]
  omega

theorem Inv.selected_secret (h : this.Inv hasher) (time : U32) :
    this.secrets[this.selected time]? = some (if time > this.receiver.secretSwitch then
      this.receiver.secret else this.receiver.secretOld) := by
  unfold selected
  split_ifs
  · exact h.secret
  · exact h.secretOld

/-- **The receiver verifies a cookie that was sent** with the secret that its stamp selects. -/
theorem Inv.cookieVerify_iff (h : this.Inv hasher) (hideal : hasher.Ideal 44)
    (hsent : sent ∈ this.sent) (hnow : this.clock ≤ now) :
    this.receiver.cookieVerify hasher message sent.cookie now = true ↔
      sent.IsFor message ∧ this.selected sent.time = sent.replaced ∧
        now.toNat ≤ sent.time.toNat + 10 ∧ this.receiver.secretOffset.toNat + 10 ≤ now.toNat := by
  have hissued := h.issued sent hsent
  obtain ⟨secret, hash, hsecret, hhash, hcookie⟩ := hissued.built
  have hlength := hideal.length_hash hhash
  have hstamp : ofMemory sent.cookie = sent.time - this.receiver.secretOffset := by
    rw [hcookie, ofMemory_memoryOf]
  have hlen : sent.cookie.length = 4 + hasher.hashSize := by
    rw [hcookie, List.length_append, length_memoryOf, hlength]
  have hchosen := h.selected_secret sent.time
  unfold IkeReceiver.cookieVerify
  dsimp only
  rw [hstamp, BitVec.sub_add_cancel]
  generalize (if sent.time > this.receiver.secretSwitch then this.receiver.secret
    else this.receiver.secretOld) = chosen at *
  rw [← hissued.lifetime hnow]
  by_cases hexpired :
      sent.time - this.receiver.secretOffset < now - this.receiver.secretOffset - cookieLifetime
  · simp [hexpired]
  rw [if_neg (by simp [hlen, hexpired])]
  obtain ⟨reference, hreference⟩ := Option.isSome_iff_exists.mp (hideal.total
    (length_cookieInput message.getInitiatorSpi (sent.time - this.receiver.secretOffset) chosen
      message.length_sourceAddress))
  simp only [IkeReceiver.cookieBuild, hreference, Option.map_some, decide_eq_true_eq, hexpired,
    not_false_eq_true, and_true]
  constructor
  · intro heq
    rw [hcookie] at heq
    obtain rfl := List.append_cancel_left heq
    have hinput := hideal.inj (length_cookieInput _ _ _ message.length_sourceAddress)
      (length_cookieInput _ _ _ hissued.length_address) hreference hhash
    obtain ⟨haddress, hspi, -, rfl⟩ := cookieInput_inj hinput
    refine ⟨⟨haddress.symm, hspi.symm⟩, ?_⟩
    obtain ⟨hlt, hget⟩ := List.getElem?_eq_some_iff.mp hchosen
    obtain ⟨hlt', hget'⟩ := List.getElem?_eq_some_iff.mp hsecret
    exact (h.nodup.getElem_inj_iff).mp (hget.trans hget'.symm)
  · rintro ⟨⟨haddress, hspi⟩, hselected⟩
    rw [hselected, hsecret] at hchosen
    cases hchosen
    rw [haddress, hspi, hreference] at hhash
    cases hhash
    exact hcookie.symm

/-- The message has a cookie that was sent. -/
def Carries (hasher : Hasher) (message : Message) (sent : SentCookie) : Prop :=
  message.hasCookie hasher = true ∧ message.cookie hasher = sent.cookie

/-- The cookie is valid: the sender of the message got it within the lifetime, and the secret was
replaced at most once since. -/
structure Valid (this : CookieWorld) (message : Message) (now : U32) (sent : SentCookie) : Prop where
  isFor : sent.IsFor message
  alive : now.toNat - sent.time.toNat ≤ cookieLifetime.toNat
  replaced : this.replaced ≤ sent.replaced + 1

/-- The digest of a message is not the hash of a secret, unless one of a cookie that was sent: secrets
are not predicted. -/
def Unpredicted (hasher : Hasher) (this : CookieWorld) (message : Message) : Prop :=
  ∀ input, ∀ secret ∈ this.secrets, (input ++ secret.1).length ≤ 44 →
    hasher.getHash (input ++ secret.1) = some ((message.cookie hasher).drop 4) →
    ∃ sent ∈ this.sent, sent.cookie.drop 4 = (message.cookie hasher).drop 4

/-- **Cookies are accepted exactly while they are valid.** -/
structure Exact (hasher : Hasher) (this : CookieWorld) (message : Message) (now : U32) : Prop where
  accepted : ∀ sent ∈ this.sent, Carries hasher message sent → this.Valid message now sent →
    this.receiver.checkCookie hasher message now = true
  rejected : ∀ sent ∈ this.sent, Carries hasher message sent →
    now.toNat - sent.time.toNat > cookieLifetime.toNat ∨ ¬ sent.IsFor message →
    this.receiver.checkCookie hasher message now = false
  unsent : (∀ sent ∈ this.sent, ¬ Carries hasher message sent) →
    this.receiver.checkCookie hasher message now = false

/-- The receiver recognizes a valid cookie: the clock is a lifetime above the offset, and the cookie
was not sent in the second of the last replacement after it. -/
structure Recognized (this : CookieWorld) (now : U32) (sent : SentCookie) : Prop where
  above : this.receiver.secretOffset.toNat + cookieLifetime.toNat ≤ now.toNat
  unswitched : ¬ (0 < this.replaced ∧ sent.replaced = this.replaced ∧
    sent.time = this.receiver.secretSwitch)

theorem Issued.selected_iff (h : this.Issued hasher sent) :
    this.selected sent.time = sent.replaced ↔ this.replaced ≤ sent.replaced + 1 ∧
      ¬ (0 < this.replaced ∧ sent.replaced = this.replaced ∧
        sent.time = this.receiver.secretSwitch) := by
  have hle := h.replaced_le
  have hbefore := h.before
  have hafter := h.after
  rw [← BitVec.toNat_inj]
  rw [BitVec.le_def] at hbefore hafter
  unfold selected
  split_ifs with hswitch <;> rw [gt_iff_lt, BitVec.lt_def] at hswitch <;> omega

/-- **When a cookie that was sent is accepted.** -/
theorem Inv.checkCookie_iff (h : this.Inv hasher) (hideal : hasher.Ideal 44)
    (hsent : sent ∈ this.sent) (hnow : this.clock ≤ now) (hcarries : Carries hasher message sent) :
    this.receiver.checkCookie hasher message now = true ↔
      this.Valid message now sent ∧ this.Recognized now sent := by
  rw [IkeReceiver.checkCookie, hcarries.1, hcarries.2, Bool.true_and,
    h.cookieVerify_iff hideal hsent hnow, (h.issued sent hsent).selected_iff]
  have hlifetime : cookieLifetime.toNat = 10 := rfl
  constructor
  · rintro ⟨hisFor, ⟨hreplaced, hunswitched⟩, halive, habove⟩
    exact ⟨⟨hisFor, by omega, hreplaced⟩, ⟨by omega, hunswitched⟩⟩
  · rintro ⟨⟨hisFor, halive, hreplaced⟩, ⟨habove, hunswitched⟩⟩
    exact ⟨hisFor, ⟨hreplaced, hunswitched⟩, by omega, by omega⟩

theorem Inv.sent_of_checkCookie (h : this.Inv hasher) (hideal : hasher.Ideal 44)
    (hunpredicted : this.Unpredicted hasher message)
    (hcheck : this.receiver.checkCookie hasher message now = true) :
    ∃ sent ∈ this.sent, Carries hasher message sent := by
  obtain ⟨hhas, hverify⟩ := Bool.and_eq_true_iff.mp hcheck
  unfold IkeReceiver.cookieVerify at hverify
  dsimp only at hverify
  have hchosen := h.selected_secret
    (ofMemory (message.cookie hasher) + this.receiver.secretOffset)
  generalize (if ofMemory (message.cookie hasher) + this.receiver.secretOffset >
    this.receiver.secretSwitch then this.receiver.secret else this.receiver.secretOld) = chosen at *
  split_ifs at hverify
  split at hverify
  · cases hverify
  rename_i reference hbuild
  obtain ⟨hash, hhash, rfl⟩ := Option.map_eq_some_iff.mp hbuild
  have hcookie := (of_decide_eq_true hverify).symm
  have hdigest : (message.cookie hasher).drop 4 = hash := by
    rw [hcookie, List.drop_left' (length_memoryOf _)]
  have hlen := length_cookieInput message.getInitiatorSpi (ofMemory (message.cookie hasher)) chosen
    message.length_sourceAddress
  obtain ⟨sent, hsent, heq⟩ := hunpredicted _ chosen (List.mem_of_getElem? hchosen) hlen
    (hdigest ▸ hhash)
  refine ⟨sent, hsent, hhas, ?_⟩
  have hissued := h.issued sent hsent
  obtain ⟨secret, hash', -, hhash', hcookie'⟩ := hissued.built
  rw [hcookie', List.drop_left' (length_memoryOf _), hdigest] at heq
  subst heq
  have hinput := hideal.inj hlen (length_cookieInput _ _ _ hissued.length_address) hhash hhash'
  obtain ⟨-, -, ht, -⟩ := cookieInput_inj hinput
  rw [hcookie, hcookie', ht]

end CookieWorld

/-- **Cookies are accepted exactly while they are valid** if and only if the receiver recognizes the
valid cookie that a message has. -/
theorem CookieWorld.cookies_exact {hasher : Hasher} {es : List InitialMessage} {this : CookieWorld}
    {message : Message} {now : U32} (hideal : hasher.Ideal 44)
    (hrun : LTS.Run (cookieSystem hasher) es this) (hnow : this.clock ≤ now)
    (hunpredicted : this.Unpredicted hasher message) :
    this.Exact hasher message now ↔ ∀ sent ∈ this.sent, Carries hasher message sent →
      this.Valid message now sent → this.Recognized now sent := by
  have hinv := inv_of_run hrun
  constructor
  · intro hexact sent hsent hcarries hvalid
    have haccepted := hexact.accepted sent hsent hcarries hvalid
    exact ((hinv.checkCookie_iff hideal hsent hnow hcarries).mp haccepted).2
  · intro hrecognized
    refine ⟨fun sent hsent hcarries hvalid => ?_, fun sent hsent hcarries hbad => ?_, fun hunsent => ?_⟩
    · exact (hinv.checkCookie_iff hideal hsent hnow hcarries).mpr
        ⟨hvalid, hrecognized sent hsent hcarries hvalid⟩
    · by_contra hcheck
      rw [Bool.not_eq_false] at hcheck
      obtain ⟨hvalid, -⟩ := (hinv.checkCookie_iff hideal hsent hnow hcarries).mp hcheck
      obtain hexpired | hother := hbad
      · exact absurd hvalid.alive (by omega)
      · exact hother hvalid.isFor
    · by_contra hcheck
      rw [Bool.not_eq_false] at hcheck
      obtain ⟨sent, hsent, hcarries⟩ := hinv.sent_of_checkCookie hideal hunpredicted hcheck
      exact hunsent sent hsent hcarries

/-! ## A cookie that is asked for, and returned -/

/-- A receiver that is created at a time. -/
def createdAt (now random : U32) : CookieWorld :=
  let secret : CookieSecret := ⟨List.replicate 16 7, rfl⟩
  ⟨receiverCreate now random secret 1 0 0 0, now, [secret], []⟩

/-- A message from 10.0.0.1 with the bytes that follow the SPIs. -/
def initialFrom (rest : Chunk) : Message :=
  { messageCreateFromPacket ⟨some (.ofLast 1 500), none, List.replicate 16 1 ++ rest⟩ with
    majorVersion := ikev2MajorVersion
    exchangeType := .ikeSaInit
    ikeSaId := some ⟨ikev2MajorVersion, 5, 0, true⟩ }

/-- A first message at a time, while there is a half-open IKE_SA. -/
def firstAt (now : U32) : InitialMessage :=
  ⟨initialFrom [], now, now, 1, 0, [], none⟩

/-- The message again, with a cookie. -/
def secondWith (cookie : Chunk) : Message :=
  initialFrom ([41] ++ List.replicate 15 0 ++ htoun32 16390 ++ cookie)

/-- The receiver after the first message. -/
def askedAt (now random : U32) : CookieWorld :=
  (createdAt now random).step (paddingHasher 44) (firstAt now)

/-- The message with the cookie that was asked for. -/
def answerTo (this : CookieWorld) : Message :=
  secondWith ((this.sent.map SentCookie.cookie).headD [])

theorem run_askedAt {now random : U32} (h : random % now < now) :
    LTS.Run (cookieSystem (paddingHasher 44)) [firstAt now] (askedAt now random) := by
  refine ⟨createdAt now random, ⟨h, rfl, rfl, rfl, rfl⟩, LTS.steps_singleton.mpr ⟨⟨?_, ?_, ?_⟩, rfl⟩⟩
  · exact BitVec.le_refl _
  · exact BitVec.le_refl _
  · intro secret hsecret
    cases hsecret

/-- The cookie is returned five seconds later. -/
theorem cookies_exact_answered :
    (askedAt 100 50).Exact (paddingHasher 44) (answerTo (askedAt 100 50)) 105 := by
  have hrun : LTS.Run (cookieSystem (paddingHasher 44)) [firstAt 100] (askedAt 100 50) :=
    run_askedAt (by decide)
  refine (CookieWorld.cookies_exact (paddingHasher_ideal 44) hrun (by decide) ?_).mpr ?_
  · intro input secret _ _ _
    exact ⟨_, List.mem_cons_self, by decide +kernel⟩
  · intro sent _ _ _
    exact ⟨by decide, fun h => absurd h.1 (by decide +kernel)⟩

/-- The clock is just above the offset when the receiver is created: a cookie is not accepted in the
second it was sent. -/
theorem not_cookies_exact : ¬ ∀ (hasher : Hasher) (es : List InitialMessage) (this : CookieWorld)
    (message : Message) (now : U32), hasher.Ideal 44 → LTS.Run (cookieSystem hasher) es this →
    this.clock ≤ now → this.Unpredicted hasher message → this.Exact hasher message now := by
  intro h
  have hrun : LTS.Run (cookieSystem (paddingHasher 44)) [firstAt 100] (askedAt 100 95) :=
    run_askedAt (by decide)
  have hexact := h (paddingHasher 44) _ _ (answerTo (askedAt 100 95)) 100 (paddingHasher_ideal 44) hrun
    (by decide) fun input secret _ _ _ => ⟨_, List.mem_cons_self, by decide +kernel⟩
  have haccepted := hexact.accepted _ List.mem_cons_self ⟨by decide +kernel, by decide +kernel⟩
    ⟨⟨by decide +kernel, by decide +kernel⟩, by decide, by decide +kernel⟩
  have hrejected : (askedAt 100 95).receiver.checkCookie (paddingHasher 44)
      (answerTo (askedAt 100 95)) 100 = false := by decide +kernel
  rw [hrejected] at haccepted
  cases haccepted

end StrongSwan
