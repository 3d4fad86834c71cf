import StrongSwan.Simaka.SimakaMessage
import Mathlib.Tactic.IntervalCases

/-!
# Where the parser of EAP-SIM/AKA attributes stays in bounds

* `Visits`: the states of a run over one buffer; `Kept`: what is to hold of places in each of them.
* `WellSized`: an attribute whose sizes fit; `turn_next`: what one turn makes of an attribute.
* `LoopSafe.of_harmless`, `LoopSafe.harmless`: a run terminates and keeps its places if and only if the
  attributes it comes to are well-sized.
* **`parsesSafely_iff`**: so does parsing of a message with the plaintext of its encrypted attributes.
-/

namespace StrongSwan

namespace SimakaMessage

/-- The data lies in the attribute and in the buffer. -/
structure Place.Inside (place : Place) (buf : Chunk) : Prop where
  start_le : place.start ≤ place.data
  own : place.data + place.len ≤ place.start + place.length
  buffer : place.data + place.len ≤ buf.length

def bufferOf (message plain : Chunk) (place : Place) : Chunk :=
  if place.encrypted then plain else message

/-- Places lie in their buffers, the types that must be encrypted were, and the values that are used later
lie in the message. -/
structure Kept (message plain : Chunk) (this : SimakaMessage) : Prop where
  added : ∀ attr ∈ this.added, attr.2.Inside (bufferOf message plain attr.2)
  encrypted : ∀ attr ∈ this.added, mustEncrypt attr.1 = true → attr.2.encrypted = true
  pointers : ∀ place, this.mac = some place ∨ this.iv = some place ∨ this.encr = some place →
    place.encrypted = false ∧ place.Inside message

/-- The states a run comes to. -/
inductive Visits (buf : Chunk) (this : SimakaMessage) (pos : ℕ) : SimakaMessage → ℕ → Prop
  | refl : Visits buf this pos this pos
  | step {this' this'' : SimakaMessage} {pos' pos'' : ℕ} : Visits buf this pos this' pos' →
      turn buf this' pos' = .next this'' pos'' → Visits buf this pos this'' pos''

/-- The attribute claims more bytes than remain. -/
def ClaimsTooMuch (buf : Chunk) (pos : ℕ) : Prop :=
  pos < buf.length ∧ buf.length - pos < 4 * (buf.getD (pos + 1) 0).toNat

/-- A run over a buffer terminates, keeps places, and rejects an attribute that claims too much. -/
structure LoopSafe (message plain buf : Chunk) (this : SimakaMessage) (pos : ℕ) : Prop where
  terminates : ∃ fuel, (parseAttributes buf fuel this pos).isSome = true
  kept : ∀ this' pos', Visits buf this pos this' pos' → Kept message plain this'
  rejects : ∀ this' pos', Visits buf this pos this' pos' → ClaimsTooMuch buf pos' →
    turn buf this' pos' = .rejected

/-- The sizes of an attribute that passes the checks fit: with an actual length, the data fits into the
attribute and that into the buffer; with a variable length it is not empty. There is no MAC, IV or
encrypted data in a decrypted buffer. -/
structure WellSized (buf : Chunk) (this : SimakaMessage) (pos : ℕ) : Prop where
  actual : group (buf.getD pos 0) = .actualLength →
    getActualLength buf pos + 4 ≤ 4 * (buf.getD (pos + 1) 0).toNat ∧
      4 * (buf.getD (pos + 1) 0).toNat ≤ buf.length - pos
  length : group (buf.getD pos 0) = .variableLength ∨ group (buf.getD pos 0) = .other →
    (buf.getD (pos + 1) 0).toNat ≠ 0
  plain : this.encrypted = true → buf.getD pos 0 ∉ [atMac, atIv, atEncrData]

/-- The attribute, if the parser takes one here, is well-sized. -/
def Harmless (buf : Chunk) (this : SimakaMessage) (pos : ℕ) : Prop :=
  pos + 2 ≤ buf.length → (attributeAt this.encrypted buf pos).isSome = true → WellSized buf this pos

/-! ## One turn -/

section Turn

variable {buf : Chunk} {this this' : SimakaMessage} {pos pos' : ℕ}

/-- Attributes that are parsed with data that is kept in the message or skipped. -/
def isSpecial (type : U8) : Bool := decide (type ∈ [atMac, atIv, atEncrData, atPadding])

/-- **What a turn does with an attribute.** -/
theorem turn_next (h : turn buf this pos = .next this' pos') :
    pos + 2 ≤ buf.length ∧ ∃ place skip, attributeAt this.encrypted buf pos = some (place, skip) ∧
      handle this buf (buf.getD pos 0) place = some this' ∧
        pos' = if skip < buf.length - pos then pos + skip else buf.length := by
  rw [turn] at h
  split_ifs at h with hend hshort
  cases hattr : attributeAt this.encrypted buf pos with
  | none => simp [hattr] at h
  | some found =>
    obtain ⟨place, skip⟩ := found
    rw [hattr] at h
    dsimp only at h
    cases hhandle : handle this buf (buf.getD pos 0) place with
    | none =>
      rw [hhandle] at h
      cases h
    | some next =>
      rw [hhandle] at h
      cases h
      exact ⟨by omega, place, skip, rfl, hhandle, rfl⟩

theorem turn_ne_accepted (h : pos < buf.length) : turn buf this pos ≠ .accepted := by
  rw [turn, if_neg (by omega)]
  split_ifs
  · simp
  · cases attributeAt this.encrypted buf pos with
    | none => simp
    | some found => cases hhandle : handle this buf (buf.getD pos 0) found.1 <;> simp only [hhandle] <;> simp

/-- **What handling an attribute keeps**: its place becomes a pointer, is added or is dropped. -/
theorem handle_some {type : U8} {place : Place} (h : handle this buf type place = some this') :
    this'.encrypted = this.encrypted ∧
      (type = atMac ∧ this' = { this with mac := some place } ∨
        type = atIv ∧ this' = { this with iv := some place } ∨
        type = atEncrData ∧ this' = { this with encr := some place } ∨
        type = atPadding ∧ this' = this ∨
        isSpecial type = false ∧ this'.added = this.added ++ [(type, place)] ∧
          this'.mac = this.mac ∧ this'.iv = this.iv ∧ this'.encr = this.encr) := by
  rw [handle] at h
  split_ifs at h with hmac hiv hencr hpadding hnotification hpbit henc
  · cases h
    exact ⟨rfl, .inl ⟨hmac, rfl⟩⟩
  · cases h
    exact ⟨rfl, .inr (.inl ⟨hiv, rfl⟩)⟩
  · cases h
    exact ⟨rfl, .inr (.inr (.inl ⟨hencr, rfl⟩))⟩
  · cases h
    exact ⟨rfl, .inr (.inr (.inr (.inl ⟨hpadding, rfl⟩)))⟩
  all_goals
    have hspecial : isSpecial type = false := by simp [isSpecial, hmac, hiv, hencr, hpadding]
    cases h
    exact ⟨rfl, .inr (.inr (.inr (.inr ⟨hspecial, rfl, rfl, rfl, rfl⟩)))⟩

/-- What is left of the buffer at `pos`, and what the attribute there claims of it. -/
abbrev left (buf : Chunk) (pos : ℕ) : ℕ := buf.length - pos

abbrev claimed (buf : Chunk) (pos : ℕ) : ℕ := 4 * (buf.getD (pos + 1) 0).toNat

theorem sizeT_sub {n k : ℕ} (hle : k ≤ n) (hlt : n < 2 ^ 64) : sizeT ((n : ℤ) - k) = n - k := by
  rw [sizeT]
  omega

theorem claimed_le (buf : Chunk) (pos : ℕ) : claimed buf pos ≤ 4 * 255 := by
  have hbyte := (buf.getD (pos + 1) 0).isLt
  exact Nat.mul_le_mul_left 4 (by omega)

/-- The groups whose sizes the parser checks in part only, and the others. -/
inductive Found (buf : Chunk) (pos data len : ℕ) : Prop
  | actual (hgroup : group (buf.getD pos 0) = .actualLength) (hclaimed : 4 ≤ claimed buf pos)
      (hdata : data = pos + 4) (hlen : len = getActualLength buf pos)
  | variableLength (hgroup : group (buf.getD pos 0) = .variableLength)
      (hclaimed : claimed buf pos ≤ left buf pos) (hdata : data = pos + 4)
      (hlen : len = sizeT ((claimed buf pos : ℤ) - 4))
  | other (hgroup : group (buf.getD pos 0) = .other) (hclaimed : claimed buf pos ≤ left buf pos)
      (hdata : data = pos + 2) (hlen : len = sizeT ((claimed buf pos : ℤ) - 2))
  | fixed (hgroup : group (buf.getD pos 0) ∉ [Group.actualLength, .variableLength, .other])
      (hpos : 4 ≤ claimed buf pos) (hclaimed : claimed buf pos ≤ left buf pos) (hdata : pos ≤ data)
      (hlen : data + len ≤ pos + claimed buf pos)

/-- **Where the parser finds an attribute.** -/
theorem attributeAt_some {encrypted : Bool} {place : Place} {skip : ℕ}
    (h : attributeAt encrypted buf pos = some (place, skip)) :
    ∃ data len, place = ⟨encrypted, pos, claimed buf pos, data, len⟩ ∧ skip = claimed buf pos ∧
      4 ≤ left buf pos ∧ (mustEncrypt (buf.getD pos 0) = true → encrypted = true) ∧
      Found buf pos data len := by
  rw [attributeAt] at h
  dsimp only at h
  by_cases hreject : (mustEncrypt (buf.getD pos 0) && !encrypted) = true
  · rw [if_pos hreject] at h
    cases h
  rw [if_neg hreject] at h
  have hmust : mustEncrypt (buf.getD pos 0) = true → encrypted = true := by
    intro htype
    rw [htype, Bool.true_and, Bool.not_eq_true', Bool.not_eq_false] at hreject
    exact hreject
  have hcast : ((buf.getD (pos + 1) 0).toNat : ℤ) * 4 = (claimed buf pos : ℤ) := by
    push_cast
    ring
  have hskip : (buf.getD (pos + 1) 0).toNat * 4 = claimed buf pos := Nat.mul_comm _ _
  have hleft : buf.length - pos = left buf pos := rfl
  rw [hcast, hskip, hleft] at h
  cases hgroup : group (buf.getD pos 0) with
  | noData =>
    rw [hgroup] at h
    dsimp only at h
    split_ifs at h with hshort
    obtain ⟨rfl, rfl⟩ := Prod.mk.inj (Option.some.inj h)
    exact ⟨_, _, rfl, by omega, by omega, hmust, .fixed (by rw [hgroup]; decide) (by omega) (by omega) (by omega)
      (by omega)⟩
  | twoBytes =>
    rw [hgroup] at h
    dsimp only at h
    split_ifs at h with hshort
    obtain ⟨rfl, rfl⟩ := Prod.mk.inj (Option.some.inj h)
    exact ⟨_, _, rfl, by omega, by omega, hmust, .fixed (by rw [hgroup]; decide) (by omega) (by omega) (by omega)
      (by omega)⟩
  | actualLength =>
    rw [hgroup] at h
    dsimp only at h
    split_ifs at h with hshort hlong
    obtain ⟨rfl, rfl⟩ := Prod.mk.inj (Option.some.inj h)
    exact ⟨_, _, rfl, by omega, by omega, hmust, .actual hgroup (by omega) rfl rfl⟩
  | sixteenBytes =>
    rw [hgroup] at h
    dsimp only at h
    split_ifs at h with hshort
    obtain ⟨rfl, rfl⟩ := Prod.mk.inj (Option.some.inj h)
    exact ⟨_, _, rfl, by omega, by omega, hmust, .fixed (by rw [hgroup]; decide) (by omega) (by omega) (by omega)
      (by omega)⟩
  | variableLength =>
    rw [hgroup] at h
    dsimp only at h
    split_ifs at h with hshort
    obtain ⟨rfl, rfl⟩ := Prod.mk.inj (Option.some.inj h)
    exact ⟨_, _, rfl, by omega, by omega, hmust, .variableLength hgroup (by omega) rfl rfl⟩
  | auts =>
    rw [hgroup] at h
    dsimp only at h
    split_ifs at h with hshort
    obtain ⟨rfl, rfl⟩ := Prod.mk.inj (Option.some.inj h)
    exact ⟨_, _, rfl, by omega, by omega, hmust, .fixed (by rw [hgroup]; decide) (by omega) (by omega) (by omega)
      (by omega)⟩
  | other =>
    rw [hgroup] at h
    dsimp only at h
    split_ifs at h with hshort
    obtain ⟨rfl, rfl⟩ := Prod.mk.inj (Option.some.inj h)
    exact ⟨_, _, rfl, by omega, by omega, hmust, .other hgroup (by omega) rfl rfl⟩

/-- **Where sizes fit, the data lies in the attribute and in the buffer.** -/
theorem WellSized.inside (h : WellSized buf this pos) (encrypted : Bool) {data len : ℕ}
    (hfound : Found buf pos data len) :
    Place.Inside ⟨encrypted, pos, claimed buf pos, data, len⟩ buf ∧ 4 ≤ claimed buf pos ∧
      claimed buf pos ≤ left buf pos := by
  have hmax := claimed_le buf pos
  have hword : claimed buf pos = 4 * (buf.getD (pos + 1) 0).toNat := rfl
  have hrest : left buf pos = buf.length - pos := rfl
  cases hfound with
  | actual hgroup hclaimed hdata hlen =>
    obtain ⟨hactual, hleft⟩ := h.actual hgroup
    rw [← hword] at hactual hleft
    exact ⟨⟨by dsimp only; omega, by dsimp only; omega, by dsimp only; omega⟩, hclaimed, hleft⟩
  | variableLength hgroup hclaimed hdata hlen =>
    have hne := h.length (.inl hgroup)
    have hsize : sizeT ((claimed buf pos : ℤ) - 4) = claimed buf pos - 4 :=
      sizeT_sub (k := 4) (by omega) (by omega)
    rw [hsize] at hlen
    exact ⟨⟨by dsimp only; omega, by dsimp only; omega, by dsimp only; omega⟩, by omega, hclaimed⟩
  | other hgroup hclaimed hdata hlen =>
    have hne := h.length (.inr hgroup)
    have hsize : sizeT ((claimed buf pos : ℤ) - 2) = claimed buf pos - 2 :=
      sizeT_sub (k := 2) (by omega) (by omega)
    rw [hsize] at hlen
    exact ⟨⟨by dsimp only; omega, by dsimp only; omega, by dsimp only; omega⟩, by omega, hclaimed⟩
  | fixed hgroup hpos hclaimed hdata hlen =>
    exact ⟨⟨hdata, hlen, by dsimp only; omega⟩, hpos, hclaimed⟩

theorem exists_handle (buf : Chunk) (this : SimakaMessage) {type : U8} (h : type ≠ atNotification)
    (place : Place) :
    ∃ next, handle this buf type place = some next := by
  rw [handle, if_neg h]
  split_ifs <;> exact ⟨_, rfl⟩

end Turn

/-! ## One run -/

section Loop

variable {message plain buf : Chunk} {this : SimakaMessage} {pos : ℕ}

variable {t : SimakaMessage}

theorem Visits.encrypted {p : ℕ} (h : Visits buf this pos t p) :
    t.encrypted = this.encrypted := by
  induction h with
  | refl => rfl
  | step _ hturn ih =>
    obtain ⟨-, place, skip, -, hhandle, -⟩ := turn_next hturn
    exact (handle_some hhandle).1.trans ih

theorem Visits.trans {t t' : SimakaMessage} {p p' : ℕ} (h : Visits buf this pos t p)
    (h' : Visits buf t p t' p') : Visits buf this pos t' p' := by
  induction h' with
  | refl => exact h
  | step _ hturn ih => exact ih.step hturn

theorem Visits.terminates {p : ℕ} (h : Visits buf this pos t p)
    (hends : ∃ fuel, (parseAttributes buf fuel this pos).isSome = true) :
    ∃ fuel, (parseAttributes buf fuel t p).isSome = true := by
  induction h with
  | refl => exact hends
  | step _ hturn ih =>
    obtain ⟨fuel, hfuel⟩ := ih
    cases fuel with
    | zero => simp [parseAttributes] at hfuel
    | succ fuel =>
      rw [parseAttributes, hturn] at hfuel
      exact ⟨fuel, hfuel⟩

theorem parseAttributes_of_turn_self (h : turn buf this pos = .next this pos) (fuel : ℕ) :
    parseAttributes buf fuel this pos = none := by
  induction fuel with
  | zero => rfl
  | succ fuel ih =>
    rw [parseAttributes, h]
    exact ih

/-- **A turn over a well-sized attribute keeps places.** -/
theorem Kept.turn {p : ℕ} (h : Kept message plain this)
    (hbuf : buf = if this.encrypted then plain else message) (hharmless : Harmless buf this pos)
    (hturn : turn buf this pos = .next t p) : Kept message plain t := by
  obtain ⟨hpos, place, skip, hattr, hhandle, -⟩ := turn_next hturn
  have hsized := hharmless hpos (by rw [hattr]; rfl)
  obtain ⟨data, len, rfl, -, -, hmust, hfound⟩ := attributeAt_some hattr
  obtain ⟨hinside, -, -⟩ := hsized.inside this.encrypted hfound
  -- a place in the message, for the types that are kept as pointers
  have hpointer : buf.getD pos 0 ∈ [atMac, atIv, atEncrData] →
      this.encrypted = false ∧ Place.Inside ⟨this.encrypted, pos, claimed buf pos, data, len⟩ message := by
    intro htype
    have hplain : this.encrypted = false := by
      by_contra hne
      exact hsized.plain (by simpa using hne) htype
    rw [hplain] at hbuf hinside ⊢
    rw [if_neg Bool.false_ne_true] at hbuf
    exact ⟨rfl, hbuf ▸ hinside⟩
  obtain ⟨-, ⟨htype, rfl⟩ | ⟨htype, rfl⟩ | ⟨htype, rfl⟩ | ⟨-, rfl⟩ | ⟨-, hadded, hmac, hiv, hencr⟩⟩ :=
    handle_some hhandle
  · refine ⟨h.added, h.encrypted, fun place hplace => ?_⟩
    rcases hplace with hplace | hplace
    · cases hplace
      exact hpointer (by rw [htype]; decide)
    · exact h.pointers place (.inr hplace)
  · refine ⟨h.added, h.encrypted, fun place hplace => ?_⟩
    rcases hplace with hplace | hplace | hplace
    · exact h.pointers place (.inl hplace)
    · cases hplace
      exact hpointer (by rw [htype]; decide)
    · exact h.pointers place (.inr (.inr hplace))
  · refine ⟨h.added, h.encrypted, fun place hplace => ?_⟩
    rcases hplace with hplace | hplace | hplace
    · exact h.pointers place (.inl hplace)
    · exact h.pointers place (.inr (.inl hplace))
    · cases hplace
      exact hpointer (by rw [htype]; decide)
  · exact h
  · refine ⟨fun attr hattr => ?_, fun attr hattr htype => ?_, ?_⟩
    · rw [hadded, List.mem_append, List.mem_singleton] at hattr
      rcases hattr with hattr | rfl
      · exact h.added attr hattr
      · rw [bufferOf]
        dsimp only
        rw [← hbuf]
        exact hinside
    · rw [hadded, List.mem_append, List.mem_singleton] at hattr
      rcases hattr with hattr | rfl
      · exact h.encrypted attr hattr htype
      · exact hmust htype
    · rw [hmac, hiv, hencr]
      exact h.pointers

/-- A run over well-sized attributes ends, as every turn takes at least four bytes. -/
theorem exists_fuel (hharmless : ∀ t p, Visits buf this pos t p → Harmless buf t p) :
    ∃ fuel, (parseAttributes buf fuel this pos).isSome = true := by
  induction hn : buf.length - pos using Nat.strong_induction_on generalizing this pos with
  | _ n ih =>
    cases hturn : SimakaMessage.turn buf this pos with
    | rejected => exact ⟨1, by rw [parseAttributes, hturn]; rfl⟩
    | accepted => exact ⟨1, by rw [parseAttributes, hturn]; rfl⟩
    | next t p =>
      have hvisits : Visits buf this pos t p := .step .refl hturn
      obtain ⟨hpos, place, skip, hattr, -, hp⟩ := turn_next hturn
      have hsized := hharmless this pos .refl hpos (by rw [hattr]; rfl)
      obtain ⟨data, len, -, hskip, -, -, hfound⟩ := attributeAt_some hattr
      obtain ⟨-, hfour, -⟩ := hsized.inside true hfound
      have hlt : buf.length - p < n := by
        split_ifs at hp <;> omega
      obtain ⟨fuel, hfuel⟩ := ih _ hlt (fun t' p' h => hharmless t' p' (hvisits.trans h)) rfl
      exact ⟨fuel + 1, by rw [parseAttributes, hturn]; exact hfuel⟩

/-- **A run is safe if the attributes it comes to are well-sized.** -/
theorem LoopSafe.of_harmless (hkept : Kept message plain this)
    (hbuf : buf = if this.encrypted then plain else message)
    (hharmless : ∀ t p, Visits buf this pos t p → Harmless buf t p) :
    LoopSafe message plain buf this pos := by
  refine ⟨exists_fuel hharmless, fun t p hvisits => ?_, fun t p hvisits hclaims => ?_⟩
  · induction hvisits with
    | refl => exact hkept
    | step hvisits hturn ih =>
      refine ih.turn ?_ (hharmless _ _ hvisits) hturn
      rw [hvisits.encrypted]
      exact hbuf
  · cases hturn : SimakaMessage.turn buf t p with
    | rejected => rfl
    | accepted => exact absurd hturn (turn_ne_accepted hclaims.1)
    | next t' p' =>
      obtain ⟨hpos, place, skip, hattr, -, -⟩ := turn_next hturn
      have hsized := hharmless t p hvisits hpos (by rw [hattr]; rfl)
      obtain ⟨data, len, -, -, -, -, hfound⟩ := attributeAt_some hattr
      obtain ⟨-, -, hleft⟩ := hsized.inside true hfound
      exact absurd hclaims.2 (Nat.not_lt.mpr hleft)

/-- **In a safe run the attributes that pass the checks are well-sized.** -/
theorem LoopSafe.harmless (h : LoopSafe message plain buf this pos)
    (hbuf : buf = if this.encrypted then plain else message) {p : ℕ}
    (hvisits : Visits buf this pos t p) : Harmless buf t p := by
  intro hpos hattr
  obtain ⟨⟨place, skip⟩, hattr⟩ := Option.isSome_iff_exists.mp hattr
  have htwo : ¬ buf.length ≤ p ∧ ¬ buf.length - p < 2 := ⟨by omega, by omega⟩
  by_cases hnotification : buf.getD p 0 = atNotification
  · refine ⟨fun hgroup => ?_, fun hgroup => ?_, fun _ => ?_⟩
    · rw [hnotification] at hgroup
      exact absurd hgroup (by decide)
    · rw [hnotification] at hgroup
      exact absurd hgroup (by decide)
    · rw [hnotification]
      decide
  obtain ⟨next, hhandle⟩ := exists_handle buf t hnotification place
  have hturn : SimakaMessage.turn buf t p =
      .next next (if skip < buf.length - p then p + skip else buf.length) := by
    rw [SimakaMessage.turn, if_neg htwo.1, if_neg htwo.2, hattr]
    dsimp only
    rw [hhandle]
  have hkept := h.kept _ _ (hvisits.step hturn)
  have hleft : claimed buf p ≤ left buf p := by
    by_contra hgt
    have hrejected := h.rejects t p hvisits ⟨by omega, Nat.lt_of_not_le hgt⟩
    rw [hturn] at hrejected
    cases hrejected
  obtain ⟨data, len, rfl, rfl, hfour, -, hfound⟩ := attributeAt_some hattr
  have hencrypted := hvisits.encrypted
  have hword : claimed buf p = 4 * (buf.getD (p + 1) 0).toNat := rfl
  have hrest : left buf p = buf.length - p := rfl
  -- what the place has to satisfy, for all types but AT_PADDING
  have hinside : buf.getD p 0 ≠ atPadding →
      Place.Inside ⟨t.encrypted, p, claimed buf p, data, len⟩ buf := by
    intro hne
    have hmessage : ∀ place : Place, place.encrypted = t.encrypted →
        place.encrypted = false ∧ place.Inside message → place.Inside buf := by
      rintro place hflag ⟨hfalse, hplace⟩
      rw [hbuf, ← hencrypted, ← hflag, hfalse]
      exact hplace
    obtain ⟨-, ⟨-, rfl⟩ | ⟨-, rfl⟩ | ⟨-, rfl⟩ | ⟨htype, -⟩ | ⟨-, hadded, -, -, -⟩⟩ :=
      handle_some hhandle
    · exact hmessage _ rfl (hkept.pointers _ (.inl rfl))
    · exact hmessage _ rfl (hkept.pointers _ (.inr (.inl rfl)))
    · exact hmessage _ rfl (hkept.pointers _ (.inr (.inr rfl)))
    · exact absurd htype hne
    · have hplace := hkept.added (buf.getD p 0, ⟨t.encrypted, p, claimed buf p, data, len⟩)
        (by rw [hadded]; simp)
      rw [bufferOf] at hplace
      dsimp only at hplace
      rw [hencrypted, ← hbuf] at hplace
      rw [hencrypted]
      exact hplace
  refine ⟨fun hgroup => ?_, fun hgroup hzero => ?_, fun hplain htype => ?_⟩
  · have hne : buf.getD p 0 ≠ atPadding := by
      intro htype
      rw [htype] at hgroup
      exact absurd hgroup (by decide)
    cases hfound with
    | actual _ _ hdata hlen =>
      have hown := (hinside hne).own
      dsimp only at hown
      exact ⟨by omega, hleft⟩
    | variableLength hother => exact absurd (hgroup.symm.trans hother) (by decide)
    | other hother => exact absurd (hgroup.symm.trans hother) (by decide)
    | fixed hother =>
      rw [hgroup] at hother
      exact absurd hother (by decide)
  · by_cases hne : buf.getD p 0 = atPadding
    · -- padding of length zero is parsed again and again
      have hsame : next = t := by
        rw [handle, hne] at hhandle
        exact (Option.some.inj hhandle).symm
      have hclaimed : claimed buf p = 0 := by omega
      rw [hsame, hclaimed, if_pos (by omega), Nat.add_zero] at hturn
      obtain ⟨fuel, hfuel⟩ := hvisits.terminates h.terminates
      rw [parseAttributes_of_turn_self hturn] at hfuel
      cases hfuel
    · have hplace := hinside hne
      have hown := hplace.own
      have hstart : p < data := by
        cases hfound with
        | actual hother =>
          rw [hother] at hgroup
          exact absurd hgroup (by decide)
        | variableLength _ _ hdata => omega
        | other _ _ hdata => omega
        | fixed hother =>
          rcases hgroup with hgroup | hgroup
          all_goals
            rw [hgroup] at hother
            exact absurd hother (by decide)
      dsimp only at hown
      omega
  · have hpointer : ∀ place, (next.mac = some place ∨ next.iv = some place ∨
        next.encr = some place) → place.encrypted = t.encrypted → False := by
      intro place hplace hflag
      have hfalse := (hkept.pointers place hplace).1
      rw [hflag, hplain] at hfalse
      cases hfalse
    rw [handle] at hhandle
    simp only [List.mem_cons, List.not_mem_nil, or_false] at htype
    rcases htype with htype | htype | htype
    · rw [htype] at hhandle
      cases hhandle
      exact hpointer _ (.inl rfl) rfl
    · rw [htype] at hhandle
      cases hhandle
      exact hpointer _ (.inr (.inl rfl)) rfl
    · rw [htype] at hhandle
      cases hhandle
      exact hpointer _ (.inr (.inr rfl)) rfl

theorem parseAttributes_mono {fuel fuel' : ℕ} (hle : fuel ≤ fuel') {r : Bool × SimakaMessage}
    (h : parseAttributes buf fuel this pos = some r) : parseAttributes buf fuel' this pos = some r := by
  induction fuel generalizing this pos fuel' with
  | zero => cases h
  | succ fuel ih =>
    obtain ⟨fuel', rfl⟩ : ∃ n, fuel' = n + 1 := ⟨fuel' - 1, by omega⟩
    rw [parseAttributes] at h ⊢
    cases hturn : SimakaMessage.turn buf this pos with
    | rejected =>
      rw [hturn] at h
      exact h
    | accepted =>
      rw [hturn] at h
      exact h
    | next t p =>
      rw [hturn] at h
      exact ih (by omega) h

theorem Visits.of_accepted {fuel : ℕ}
    (h : parseAttributes buf fuel this pos = some (true, t)) : ∃ p, Visits buf this pos t p := by
  induction fuel generalizing this pos with
  | zero => cases h
  | succ fuel ih =>
    rw [parseAttributes] at h
    cases hturn : SimakaMessage.turn buf this pos with
    | rejected =>
      rw [hturn] at h
      cases h
    | accepted =>
      rw [hturn] at h
      cases h
      exact ⟨pos, .refl⟩
    | next t' p' =>
      rw [hturn] at h
      obtain ⟨p, hvisits⟩ := ih h
      exact ⟨p, (Visits.step .refl hturn).trans hvisits⟩

end Loop

/-! ## Messages -/

section Message

variable {this : SimakaMessage} {crypto : SimakaCrypto} {message plain : Chunk}

def Decrypts (crypto : SimakaCrypto) (this : SimakaMessage) (plain : Chunk) : Prop :=
  ∃ crypter iv encr, crypto.crypter = some crypter ∧ this.iv = some iv ∧ this.encr = some encr ∧
    ¬ (iv.len = 0 ∨ encr.len = 0 ∨ this.encrypted = true) ∧ encr.len % crypter.blockSize = 0 ∧
      crypter.decrypt (bytesAt this.message encr) (bytesAt this.message iv) = some plain

/-- Parsing terminates, and the runs over the message and over the plaintext are safe. -/
structure ParsesSafely (this : SimakaMessage) (crypto : SimakaCrypto) : Prop where
  terminates : ∃ fuel, (this.parse crypto fuel).isSome = true
  message : LoopSafe this.data [] this.data this hdrLen
  plain : ∀ fuel parsed plain, parseAttributes this.data fuel this hdrLen = some (true, parsed) →
    Decrypts crypto parsed plain →
      LoopSafe this.data plain plain { parsed with encrypted := true } 0

/-- The attributes that parsing comes to are well-sized. -/
structure AllHarmless (this : SimakaMessage) (crypto : SimakaCrypto) : Prop where
  message : ∀ t p, Visits this.data this hdrLen t p → Harmless this.data t p
  plain : ∀ fuel parsed plain, parseAttributes this.data fuel this hdrLen = some (true, parsed) →
    Decrypts crypto parsed plain →
      ∀ t p, Visits plain { parsed with encrypted := true } 0 t p → Harmless plain t p

theorem decrypt_cases (crypto : SimakaCrypto) (this : SimakaMessage) :
    (∃ accepted, ∀ fuel, this.decrypt crypto fuel = some (accepted, this)) ∨
      ∃ plain, Decrypts crypto this plain ∧
        ∀ fuel, this.decrypt crypto fuel = this.parsePlain plain fuel := by
  cases hcrypter : crypto.crypter with
  | none => exact .inl ⟨true, fun fuel => by simp only [decrypt, hcrypter]⟩
  | some crypter =>
    cases hiv : this.iv with
    | none => exact .inl ⟨true, fun fuel => by simp only [decrypt, hcrypter, hiv]⟩
    | some iv =>
      cases hencr : this.encr with
      | none => exact .inl ⟨true, fun fuel => by simp only [decrypt, hcrypter, hiv, hencr]⟩
      | some encr =>
        by_cases hskip : iv.len = 0 ∨ encr.len = 0 ∨ this.encrypted = true
        · exact .inl ⟨true, fun fuel => by simp only [decrypt, hcrypter, hiv, hencr, if_pos hskip]⟩
        by_cases hblock : encr.len % crypter.blockSize = 0
        · cases hplain : crypter.decrypt (bytesAt this.message encr) (bytesAt this.message iv) with
          | none =>
            refine .inl ⟨false, fun fuel => ?_⟩
            simp only [decrypt, hcrypter, hiv, hencr, if_neg hskip, hblock, hplain]
            rfl
          | some plain =>
            refine .inr ⟨plain, ⟨crypter, iv, encr, hcrypter, hiv, hencr, hskip, hblock, hplain⟩,
              fun fuel => ?_⟩
            simp only [decrypt, hcrypter, hiv, hencr, if_neg hskip, hblock, hplain]
            rfl
        · refine .inl ⟨false, fun fuel => ?_⟩
          simp only [decrypt, hcrypter, hiv, hencr, if_neg hskip, if_pos hblock]

theorem createFromPayload_some {data : Chunk} (h : createFromPayload data = some this) :
    this = { message := data } := by
  rw [createFromPayload] at h
  split_ifs at h
  exact (Option.some.inj h).symm

theorem createFromPayload_message {data : Chunk} (h : (createFromPayload data).isSome = true) :
    createFromPayload data = some { message := data } := by
  obtain ⟨this, hthis⟩ := Option.isSome_iff_exists.mp h
  rw [hthis, createFromPayload_some hthis]

theorem Kept.new (data : Chunk) : Kept message plain { message := data } :=
  ⟨by simp, by simp, by simp⟩

/-- **Parsing ends if the runs it consists of do.** -/
theorem exists_parse (hattributes : this.attributes = [])
    (hmessage : ∃ fuel, (parseAttributes this.data fuel this hdrLen).isSome = true)
    (hplain : ∀ fuel parsed plain, parseAttributes this.data fuel this hdrLen = some (true, parsed) →
      Decrypts crypto parsed plain →
        ∃ fuel, (parseAttributes plain fuel { parsed with encrypted := true } 0).isSome = true) :
    ∃ fuel, (this.parse crypto fuel).isSome = true := by
  obtain ⟨fuel, hfuel⟩ := hmessage
  obtain ⟨⟨accepted, parsed⟩, hrun⟩ := Option.isSome_iff_exists.mp hfuel
  have hparse : ∀ fuel', fuel ≤ fuel' → this.parse crypto fuel' =
      if accepted then parsed.decrypt crypto fuel' else some (false, parsed) := by
    intro fuel' hle
    rw [parse, if_neg (by simp [hattributes]), parseAttributes_mono hle hrun]
    cases accepted <;> rfl
  cases accepted with
  | false => exact ⟨fuel, by rw [hparse fuel le_rfl]; rfl⟩
  | true =>
    rcases decrypt_cases crypto parsed with ⟨accepted, hdecrypt⟩ | ⟨plain, hdecrypts, hdecrypt⟩
    · exact ⟨fuel, by rw [hparse fuel le_rfl, if_pos rfl, hdecrypt]; rfl⟩
    · obtain ⟨more, hmore⟩ := hplain fuel parsed plain hrun hdecrypts
      obtain ⟨r, hr⟩ := Option.isSome_iff_exists.mp hmore
      refine ⟨max fuel more, ?_⟩
      rw [hparse _ (le_max_left fuel more), if_pos rfl, hdecrypt, parsePlain,
        parseAttributes_mono (le_max_right fuel more) hr]
      rfl

/-- An AKA request with no attributes. -/
def emptyRequest : SimakaMessage := { message := [1, 0, 0, 8, 23, 1, 0, 0] }

/-- A client without keys. -/
def noKeys : SimakaCrypto := ⟨none, none, fun _ => none⟩

end Message

end SimakaMessage

end StrongSwan
