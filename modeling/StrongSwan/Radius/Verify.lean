import StrongSwan.Radius.Enumerators

/-!
# Verifying RADIUS messages

* `getElem?_writeAt`: bytes that are written, and the rest.
* `checkAttributes_passed`: what the loop over the attributes has checked.
* `verify_true`: when a message verifies.
* `Holders`, `Authentic`: responses produced by a holder of the secret for the authenticator of a request.
* `Sound`: the checks that are left out would have succeeded.
* **`verifiesSafely_iff`**: messages are enumerated safely and verify only if they are authentic, if and
  only if they are sound.
-/

namespace StrongSwan.Radius

open BioReader Enumeration

section bytes

variable {msg bytes bytes' : Chunk} {pos : ℕ}

theorem getElem?_writeAt (h : pos + bytes.length ≤ msg.length) (i : ℕ) :
    (writeAt msg pos bytes)[i]? =
      if pos ≤ i ∧ i < pos + bytes.length then bytes[i - pos]? else msg[i]? := by
  have htake : (msg.take pos).length = pos := List.length_take_of_le (by omega)
  rw [writeAt]
  by_cases hfront : i < pos
  · rw [if_neg (by omega), List.getElem?_append_left (by omega), List.getElem?_take_of_lt hfront]
  · rw [List.getElem?_append_right (by omega), htake]
    by_cases hback : i < pos + bytes.length
    · rw [if_pos ⟨by omega, hback⟩, List.getElem?_append_left (by omega)]
    · rw [if_neg (by omega), List.getElem?_append_right (by omega), List.getElem?_drop]
      congr 1
      omega

theorem length_writeAt (h : pos + bytes.length ≤ msg.length) :
    (writeAt msg pos bytes).length = msg.length := by
  rw [writeAt, List.length_append, List.length_append, List.length_take, List.length_drop]
  omega

theorem writeAt_writeAt (h : pos + bytes.length ≤ msg.length) (hlen : bytes'.length = bytes.length) :
    writeAt (writeAt msg pos bytes) pos bytes' = writeAt msg pos bytes' := by
  refine List.ext_getElem? fun i => ?_
  rw [getElem?_writeAt (by rw [length_writeAt h]; omega), getElem?_writeAt h,
    getElem?_writeAt (by omega)]
  split_ifs
  · rfl
  · omega
  · rfl

theorem writeAt_self (h : pos + n ≤ msg.length) : writeAt msg pos ((msg.drop pos).take n) = msg := by
  have hlen : ((msg.drop pos).take n).length = n := by
    rw [List.length_take, List.length_drop]
    omega
  refine List.ext_getElem? fun i => ?_
  rw [getElem?_writeAt (by omega), hlen]
  split_ifs with hin
  · rw [List.getElem?_take_of_lt (by omega), List.getElem?_drop]
    congr 1
    omega
  · rfl

theorem getD_writeAt (h : pos + bytes.length ≤ msg.length) {i : ℕ}
    (hi : i < pos ∨ pos + bytes.length ≤ i) : (writeAt msg pos bytes).getD i 0 = msg.getD i 0 := by
  rw [List.getD_eq_getElem?_getD, getElem?_writeAt h, if_neg (by omega),
    List.getD_eq_getElem?_getD]

end bytes

section authenticator

variable {msg : Chunk}

theorem length_authenticator (h : RMSG_SIZE ≤ msg.length) :
    (authenticator msg).length = HASH_SIZE_MD5 := by
  have hsize : RMSG_SIZE = 20 := rfl
  have hhash : HASH_SIZE_MD5 = 16 := rfl
  rw [authenticator, List.length_take, List.length_drop]
  omega

theorem length_reqAuthBytes (reqAuth : Option Digest) :
    (reqAuthBytes reqAuth).length = HASH_SIZE_MD5 := by
  cases reqAuth with
  | none => exact List.length_replicate
  | some auth => exact auth.length_eq

variable {auth : Chunk} (h : RMSG_SIZE ≤ msg.length) (hauth : auth.length = HASH_SIZE_MD5)

include h hauth

theorem authenticator_fits : 4 + auth.length ≤ msg.length := by
  have hsize : RMSG_SIZE = 20 := rfl
  have hhash : HASH_SIZE_MD5 = 16 := rfl
  omega

theorem length_setAuthenticator : (setAuthenticator msg auth).length = msg.length :=
  length_writeAt (authenticator_fits h hauth)

theorem setAuthenticator_setAuthenticator :
    setAuthenticator (setAuthenticator msg auth) (authenticator msg) = msg := by
  rw [setAuthenticator, setAuthenticator, writeAt_writeAt (authenticator_fits h hauth)
    (by rw [length_authenticator h, hauth])]
  exact writeAt_self (by
    have hsize : RMSG_SIZE = 20 := rfl
    have hhash : HASH_SIZE_MD5 = 16 := rfl
    omega)

theorem authenticator_setAuthenticator : authenticator (setAuthenticator msg auth) = auth := by
  have hfits := authenticator_fits h hauth
  refine List.ext_getElem? fun i => ?_
  rw [authenticator, setAuthenticator, List.getElem?_take]
  split_ifs with hi
  · rw [List.getElem?_drop, getElem?_writeAt hfits, if_pos (by omega), Nat.add_sub_cancel_left]
  · exact (List.getElem?_eq_none_iff.mpr (by omega)).symm

theorem code_setAuthenticator : code (setAuthenticator msg auth) = code msg :=
  getD_writeAt (authenticator_fits h hauth) (.inl (by omega))

theorem getD_setAuthenticator {i : ℕ} (hi : RMSG_SIZE ≤ i) :
    (setAuthenticator msg auth).getD i 0 = msg.getD i 0 := by
  have hsize : RMSG_SIZE = 20 := rfl
  have hhash : HASH_SIZE_MD5 = 16 := rfl
  exact getD_writeAt (authenticator_fits h hauth) (.inr (by omega))

theorem msgLength_setAuthenticator : msgLength (setAuthenticator msg auth) = msgLength msg := by
  have hfits := authenticator_fits h hauth
  have htwo : ((setAuthenticator msg auth).drop 2).take 2 = (msg.drop 2).take 2 := by
    refine List.ext_getElem? fun i => ?_
    rw [List.getElem?_take, List.getElem?_take]
    split_ifs with hi
    · rw [List.getElem?_drop, List.getElem?_drop, setAuthenticator, getElem?_writeAt hfits,
        if_neg (by omega)]
    · rfl
  rw [msgLength, msgLength, untoh16, untoh16, htwo]

theorem createEnumerator_setAuthenticator :
    createEnumerator (setAuthenticator msg auth) = createEnumerator msg := by
  rw [createEnumerator, createEnumerator, msgLength_setAuthenticator h hauth]

end authenticator

section congr

variable {m msg : Chunk} (h : ∀ i, RMSG_SIZE ≤ i → m.getD i 0 = msg.getD i 0)

include h

theorem attributeEnumerate_congr {e : AttributeEnumerator} (he : RMSG_SIZE ≤ e.next) :
    attributeEnumerate m e = attributeEnumerate msg e := by
  have hlength : e.length m = e.length msg := by
    rw [AttributeEnumerator.length, AttributeEnumerator.length, h _ (by omega)]
  rw [attributeEnumerate, attributeEnumerate, hlength, h _ he]

theorem reached_congr {e e' : AttributeEnumerator} (he : RMSG_SIZE ≤ e.next)
    (hreached : Reached (attributeTurn m) e e') :
    Reached (attributeTurn msg) e e' ∧ RMSG_SIZE ≤ e'.next := by
  induction hreached with
  | refl => exact ⟨.refl, he⟩
  | tail _ hnext ih =>
    obtain ⟨hreached, hle⟩ := ih
    obtain ⟨a, hcall⟩ := next_attributeTurn.mp hnext
    rw [attributeEnumerate_congr h hle] at hcall
    refine ⟨hreached.tail (next_attributeTurn.mpr ⟨a, hcall⟩), ?_⟩
    obtain ⟨-, -, -, rfl⟩ := attributeEnumerate_some hcall
    exact hle.trans (Nat.le_add_right _ _)

theorem yields_congr {e : AttributeEnumerator} {a : Attribute} (he : RMSG_SIZE ≤ e.next)
    (hyields : Yields (attributeTurn m) e a) : Yields (attributeTurn msg) e a := by
  obtain ⟨last, next, hreached, hyield⟩ := hyields
  obtain ⟨hreached', hle⟩ := reached_congr h he hreached
  refine ⟨last, next, hreached', ?_⟩
  rw [attributeTurn_yield, ← attributeEnumerate_congr h hle]
  exact attributeTurn_yield.mp hyield

end congr

/-! ## The loop over the attributes -/

section loop

variable {p : Primitives} {m out : Chunk} {e : AttributeEnumerator} {hasEap eap auth : Bool}

/-- The value of a Message-Authenticator is the signature of the message without it. -/
def MacRight (p : Primitives) (m : Chunk) (a : Attribute) : Prop :=
  a.data.len = HASH_SIZE_MD5 ∧
    p.verifySignature (writeAt m a.data.ptr (List.replicate HASH_SIZE_MD5 0)) (slice m a.data)

theorem le_ptr_of_yields {b : Attribute} (h : Yields (attributeTurn m) e b) :
    e.next + RATTR_SIZE ≤ b.data.ptr := by
  obtain ⟨last, next, hreached, hyield⟩ := h
  have hle : e.next ≤ last.next := by
    refine reached_invariant (P := fun e' => e.next ≤ e'.next) (fun e' e'' hle hnext => ?_)
      (le_refl _) hreached
    obtain ⟨a, hcall⟩ := next_attributeTurn.mp hnext
    obtain ⟨-, -, -, rfl⟩ := attributeEnumerate_some hcall
    exact hle.trans (Nat.le_add_right _ _)
  obtain ⟨-, -, rfl, -⟩ := attributeEnumerate_some (attributeTurn_yield.mp hyield)
  exact Nat.add_le_add_right hle _

theorem checkAttributes_passed {fuel : ℕ} (hwithin : Within m e)
    (h : checkAttributes p fuel m e hasEap = some (.passed eap auth out)) :
    out = m ∧
      (auth = true ∧ (∃ a, Yields (attributeTurn m) e a ∧ a.type = RAT_MESSAGE_AUTHENTICATOR ∧
          MacRight p m a ∧ ∀ b, Yields (attributeTurn m) e b → b.type = RAT_MESSAGE_AUTHENTICATOR →
            b = a ∨ a.data.ptr < b.data.ptr) ∨
        auth = false ∧ (∀ b, Yields (attributeTurn m) e b → b.type ≠ RAT_MESSAGE_AUTHENTICATOR) ∧
          ((hasEap = true ∨ ∃ b, Yields (attributeTurn m) e b ∧ b.type = RAT_EAP_MESSAGE) →
            eap = true)) := by
  induction fuel generalizing e hasEap with
  | zero => cases h
  | succ fuel ih =>
    rw [checkAttributes] at h
    cases hcall : attributeEnumerate m e with
    | none =>
      rw [hcall] at h
      injection h with h
      injection h with heap hauth hout
      have hstop : attributeTurn m e = .stop := by
        rw [attributeTurn, hcall]
        rfl
      refine ⟨hout.symm, .inr ⟨hauth.symm, fun b hb => absurd hb (not_yields_of_stop hstop), ?_⟩⟩
      rintro (hseen | ⟨b, hb, -⟩)
      · exact heap.symm.trans hseen
      · exact absurd hb (not_yields_of_stop hstop)
    | some value =>
      obtain ⟨a, next⟩ := value
      have hyield := attributeTurn_yield.mpr hcall
      have hnext := within_next hwithin (next_attributeTurn.mpr ⟨a, hcall⟩)
      obtain ⟨hleft, hle, ha, hn⟩ := attributeEnumerate_some hcall
      rw [hcall] at h
      dsimp only at h
      by_cases htype : a.type = RAT_MESSAGE_AUTHENTICATOR
      · rw [if_pos htype] at h
        have hlen' : a.data.len = HASH_SIZE_MD5 := by
          by_contra hne
          rw [if_pos hne] at h
          cases h
        rw [if_neg (not_not_intro hlen')] at h
        have hmac : p.verifySignature (writeAt m a.data.ptr (List.replicate HASH_SIZE_MD5 0))
            (slice m a.data) = true := by
          by_contra hne
          rw [if_neg hne] at h
          cases h
        rw [if_pos hmac] at h
        injection h with h
        injection h with heap hauth hout
        have hhash : HASH_SIZE_MD5 = 16 := rfl
        have hsize : RATTR_SIZE = 2 := rfl
        have hlength : e.length m = 18 := by
          have hlt := length_lt m e
          rw [ha] at hlen'
          dsimp only at hlen'
          omega
        have hptr : a.data.ptr = e.next + 2 := congrArg (·.data.ptr) ha
        have hin : a.data.ptr + HASH_SIZE_MD5 ≤ m.length := by
          have := hwithin.2
          omega
        have hbuf : (slice m a.data).length = HASH_SIZE_MD5 := by
          rw [slice, List.length_take, List.length_drop]
          omega
        refine ⟨?_, .inl ⟨hauth.symm, a, ⟨e, next, .refl, hyield⟩, htype, ⟨hlen', hmac⟩, ?_⟩⟩
        · rw [← hout, writeAt_writeAt (by rw [List.length_replicate]; exact hin)
            (by rw [hbuf, List.length_replicate]), slice, hlen']
          exact writeAt_self hin
        · intro b hb hbtype
          rcases (yields_iff_of_yield hyield).mp hb with hfirst | hlater
          · exact .inl hfirst
          · have hbptr := le_ptr_of_yields hlater
            rw [hn] at hbptr
            dsimp only at hbptr
            exact .inr (by omega)
      · rw [if_neg htype] at h
        obtain ⟨hout, hrest⟩ := ih hnext h
        refine ⟨hout, ?_⟩
        rcases hrest with ⟨hauth, b, hb, hbtype, hmac, hfirst⟩ | ⟨hauth, hnone, heap⟩
        · refine .inl ⟨hauth, b, (yields_iff_of_yield hyield).mpr (.inr hb), hbtype, hmac, ?_⟩
          intro c hc hctype
          rcases (yields_iff_of_yield hyield).mp hc with rfl | hlater
          · exact absurd hctype htype
          · exact hfirst c hlater hctype
        · refine .inr ⟨hauth, fun c hc => ?_, fun hseen => heap ?_⟩
          · rcases (yields_iff_of_yield hyield).mp hc with rfl | hlater
            · exact htype
            · exact hnone c hlater
          · rcases hseen with hseen | ⟨c, hc, hctype⟩
            · exact .inl (by rw [hseen]; rfl)
            · rcases (yields_iff_of_yield hyield).mp hc with rfl | hlater
              · exact .inl (by rw [hctype]; exact Bool.or_true _)
              · exact .inr ⟨c, hlater, hctype⟩

theorem checkAttributes_ne_none {fuel : ℕ}
    (hvalid : ∀ e' a next, Reached (attributeTurn m) e e' →
      attributeEnumerate m e' = some (a, next) → RATTR_SIZE ≤ e'.length m) (hfuel : e.left < fuel) :
    checkAttributes p fuel m e hasEap ≠ none := by
  induction fuel generalizing e hasEap with
  | zero => exact absurd hfuel (Nat.not_lt_zero _)
  | succ fuel ih =>
    rw [checkAttributes]
    cases hcall : attributeEnumerate m e with
    | none => exact nofun
    | some value =>
      obtain ⟨a, next⟩ := value
      have hlen := hvalid e a next .refl hcall
      obtain ⟨hleft, hle, -, hn⟩ := attributeEnumerate_some hcall
      have hsize : RATTR_SIZE = 2 := rfl
      have hless : next.left = e.left - e.length m := congrArg (·.left) hn
      have hrest : checkAttributes p fuel m next (hasEap || a.type == RAT_EAP_MESSAGE) ≠ none :=
        ih (fun e' b last hreached => hvalid e' b last
          (.head (next_attributeTurn.mpr ⟨a, hcall⟩) hreached)) (by omega)
      dsimp only
      split_ifs
      · exact nofun
      · exact nofun
      · exact nofun
      · exact hrest

end loop

/-! ## Responses -/

/-- The message that Message-Authenticators are calculated over. -/
def macInput (reqAuth : Option Digest) (msg : Chunk) : Chunk :=
  if code msg ≠ RMC_ACCESS_REQUEST then setAuthenticator msg (reqAuthBytes reqAuth) else msg

/-- The message carries the Response-Authenticator for the authenticator of a request. -/
def ResponseRight (p : Primitives) (reqAuth : Option Digest) (secret msg : Chunk) : Prop :=
  (p.getHash (setAuthenticator msg (reqAuthBytes reqAuth) ++ secret)).map Digest.bytes =
    some (authenticator msg)

instance (p : Primitives) (reqAuth : Option Digest) (secret msg : Chunk) :
    Decidable (ResponseRight p reqAuth secret msg) :=
  inferInstanceAs (Decidable (_ = _))

/-- The loop accepts a message: by its first Message-Authenticator, or as it needs none. -/
def MacAccepted (p : Primitives) (reqAuth : Option Digest) (msg : Chunk) : Prop :=
  ∃ eap auth out, checkAttributes p (msg.length + 1) (macInput reqAuth msg) (createEnumerator msg) false =
    some (.passed eap auth out) ∧ (eap = true → auth = true)

structure Holders (p : Primitives) (secret : Chunk) where
  produced : Set (Chunk × Chunk)
  sound : ∀ x ∈ produced, (p.getHash (x.1 ++ secret)).map Digest.bytes = some x.2

/-- The digest in a message is not guessed: if it is right, a holder of the secret has calculated it. -/
def Holders.Unforgeable {p : Primitives} {secret : Chunk} (holders : Holders p secret) (msg : Chunk) :
    Prop :=
  ∀ x, (p.getHash (x ++ secret)).map Digest.bytes = some (authenticator msg) →
    (x, authenticator msg) ∈ holders.produced

variable {p : Primitives} {secret : Chunk}

/-- A holder of the secret produced the response, and its Message-Authenticators are right. -/
structure Authentic (holders : Holders p secret) (reqAuth : Option Digest) (msg : Chunk) : Prop where
  produced : (setAuthenticator msg (reqAuthBytes reqAuth), authenticator msg) ∈ holders.produced
  macs : ∀ a, Contains msg a → a.type = RAT_MESSAGE_AUTHENTICATOR → MacRight p (macInput reqAuth msg) a
  eap : (∃ a, Contains msg a ∧ a.type = RAT_EAP_MESSAGE) →
    ∃ a, Contains msg a ∧ a.type = RAT_MESSAGE_AUTHENTICATOR

/-- Attributes are enumerated safely, and a message verifies only if it is authentic, and as it was. -/
structure VerifiesSafely (holders : Holders p secret) (reqAuth : Option Digest) (msg : Chunk) : Prop where
  attributes : AttributesSafe msg
  vendor : VendorSafe msg
  returns : verify p reqAuth secret msg ≠ none
  authentic : ∀ out, verify p reqAuth secret msg = some (true, out) →
    out = msg ∧ Authentic holders reqAuth msg

/-- The checks that are left out would have succeeded. -/
structure Sound (p : Primitives) (secret : Chunk) (reqAuth : Option Digest) (msg : Chunk) : Prop where
  /-- attributes have a length of two or more -/
  lengths : LengthsValid msg
  /-- the Response-Authenticator is not looked at in a message with the code of a request -/
  skipped : code msg = RMC_ACCESS_REQUEST → MacAccepted p reqAuth msg →
    ResponseRight p reqAuth secret msg
  /-- no Message-Authenticator is looked at behind another one -/
  unread : MacAccepted p reqAuth msg → ResponseRight p reqAuth secret msg → ∀ a b, Contains msg a →
    Contains msg b → a.type = RAT_MESSAGE_AUTHENTICATOR → b.type = RAT_MESSAGE_AUTHENTICATOR →
      a.data.ptr < b.data.ptr → MacRight p (macInput reqAuth msg) b

section input

variable (this : RadiusMessage) (reqAuth : Option Digest)

theorem length_macInput : (macInput reqAuth this.msg).length = this.msg.length := by
  rw [macInput]
  split_ifs
  · exact length_setAuthenticator this.size (length_reqAuthBytes _)
  · rfl

theorem createEnumerator_macInput :
    createEnumerator (macInput reqAuth this.msg) = createEnumerator this.msg := by
  rw [macInput]
  split_ifs
  · exact createEnumerator_setAuthenticator this.size (length_reqAuthBytes _)
  · rfl

theorem getD_macInput (i : ℕ) (hi : RMSG_SIZE ≤ i) :
    (macInput reqAuth this.msg).getD i 0 = this.msg.getD i 0 := by
  rw [macInput]
  split_ifs
  · exact getD_setAuthenticator this.size (length_reqAuthBytes _) hi
  · rfl

theorem within_macInput : Within (macInput reqAuth this.msg) (createEnumerator this.msg) := by
  have h := within_createEnumerator this
  rw [Within, length_macInput]
  exact h

theorem yields_macInput {a : Attribute} :
    Yields (attributeTurn (macInput reqAuth this.msg)) (createEnumerator this.msg) a ↔
      Contains this.msg a := by
  have hfront := (within_createEnumerator this).1
  have hsame := getD_macInput this reqAuth
  exact ⟨yields_congr hsame hfront, yields_congr (fun i hi => (hsame i hi).symm) hfront⟩

theorem verifyAttributes_eq : verifyAttributes p (authenticator this.msg) (macInput reqAuth this.msg) =
    match checkAttributes p (this.msg.length + 1) (macInput reqAuth this.msg)
      (createEnumerator this.msg) false with
    | none => none
    | some (.rejected msg) => some (false, msg)
    | some (.passed eap auth _) => some (!(eap && !auth), this.msg) := by
  rw [verifyAttributes, length_macInput, createEnumerator_macInput]
  cases hcheck : checkAttributes p (this.msg.length + 1) (macInput reqAuth this.msg)
      (createEnumerator this.msg) false with
  | none => rfl
  | some check =>
    cases check with
    | rejected msg => rfl
    | passed eap auth out =>
      obtain ⟨rfl, -⟩ := checkAttributes_passed (within_macInput this reqAuth) hcheck
      have hrestored : (if code (macInput reqAuth this.msg) ≠ RMC_ACCESS_REQUEST then
          setAuthenticator (macInput reqAuth this.msg) (authenticator this.msg)
          else macInput reqAuth this.msg) = this.msg := by
        rw [macInput]
        by_cases hcode : code this.msg ≠ RMC_ACCESS_REQUEST
        · rw [if_pos hcode, code_setAuthenticator this.size (length_reqAuthBytes _), if_pos hcode,
            setAuthenticator_setAuthenticator this.size (length_reqAuthBytes _)]
        · rw [if_neg hcode, if_neg hcode]
      dsimp only
      rw [hrestored]

theorem verify_eq : verify p reqAuth secret this.msg =
    if code this.msg ≠ RMC_ACCESS_REQUEST ∧ ¬ ResponseRight p reqAuth secret this.msg then
      some (false, setAuthenticator this.msg (reqAuthBytes reqAuth))
    else verifyAttributes p (authenticator this.msg) (macInput reqAuth this.msg) := by
  rw [verify, macInput]
  dsimp only
  by_cases hcode : code this.msg ≠ RMC_ACCESS_REQUEST
  · rw [if_pos hcode, if_pos hcode]
    by_cases hright : ResponseRight p reqAuth secret this.msg
    · exact (if_pos hright).trans (if_neg fun h => h.2 hright).symm
    · exact (if_neg hright).trans (if_pos ⟨hcode, hright⟩).symm
  · rw [if_neg hcode, if_neg hcode, if_neg (fun h => hcode h.1)]

/-- A message verifies with the Response-Authenticator, unless it has the code of a request, and if the
loop accepts it; it is as it was then. -/
theorem verify_true {out : Chunk} : verify p reqAuth secret this.msg = some (true, out) ↔
    (code this.msg ≠ RMC_ACCESS_REQUEST → ResponseRight p reqAuth secret this.msg) ∧
      MacAccepted p reqAuth this.msg ∧ out = this.msg := by
  rw [verify_eq]
  by_cases hskip : code this.msg ≠ RMC_ACCESS_REQUEST ∧ ¬ ResponseRight p reqAuth secret this.msg
  · rw [if_pos hskip]
    constructor
    · intro h
      injection h with h
      injection h with h _
      cases h
    · rintro ⟨hright, -⟩
      exact absurd (hright hskip.1) hskip.2
  · rw [if_neg hskip, verifyAttributes_eq, MacAccepted]
    have hright : code this.msg ≠ RMC_ACCESS_REQUEST → ResponseRight p reqAuth secret this.msg :=
      fun hcode => by_contra fun hwrong => hskip ⟨hcode, hwrong⟩
    cases checkAttributes p (this.msg.length + 1) (macInput reqAuth this.msg)
        (createEnumerator this.msg) false with
    | none =>
      constructor
      · exact nofun
      · rintro ⟨-, ⟨eap, auth, last, hcheck, -⟩, -⟩
        cases hcheck
    | some check =>
      cases check with
      | rejected msg =>
        constructor
        · intro h
          injection h with h
          injection h with h _
          cases h
        · rintro ⟨-, ⟨eap, auth, last, hcheck, -⟩, -⟩
          injection hcheck with hcheck
          cases hcheck
      | passed eap auth last =>
        constructor
        · intro h
          injection h with h
          injection h with hpassed hout
          refine ⟨hright, ⟨eap, auth, last, rfl, fun heap => ?_⟩, hout.symm⟩
          cases auth with
          | true => rfl
          | false =>
            rw [heap] at hpassed
            cases hpassed
        · rintro ⟨-, ⟨eap', auth', last', hcheck, hmac⟩, rfl⟩
          injection hcheck with hcheck
          injection hcheck with heap hauth _
          rw [← heap, ← hauth] at hmac
          have hpassed : (!(eap && !auth)) = true := by
            cases eap with
            | false => rfl
            | true =>
              rw [hmac rfl]
              rfl
          dsimp only
          rw [hpassed]

theorem verify_ne_none (hvalid : LengthsValid this.msg) : verify p reqAuth secret this.msg ≠ none := by
  rw [verify_eq]
  split_ifs
  · exact nofun
  · have hfront := (within_createEnumerator this).1
    have hback := (within_createEnumerator this).2
    have hsame := getD_macInput this reqAuth
    have hreturns : checkAttributes p (this.msg.length + 1) (macInput reqAuth this.msg)
        (createEnumerator this.msg) false ≠ none := by
      refine checkAttributes_ne_none (fun e' a next hreached hcall => ?_) (by omega)
      obtain ⟨hreached', hle⟩ := reached_congr hsame hfront hreached
      rw [attributeEnumerate_congr hsame hle] at hcall
      have hlen := hvalid e' a next hreached' hcall
      rw [AttributeEnumerator.length, hsame _ (by omega)]
      exact hlen
    rw [verifyAttributes_eq]
    cases hcheck : checkAttributes p (this.msg.length + 1) (macInput reqAuth this.msg)
        (createEnumerator this.msg) false with
    | none => exact absurd hcheck hreturns
    | some check => cases check <;> exact nofun

theorem macs_of_accepted (h : MacAccepted p reqAuth this.msg) :
    (∀ a, Contains this.msg a → a.type = RAT_MESSAGE_AUTHENTICATOR →
      MacRight p (macInput reqAuth this.msg) a ∨
        ∃ b, Contains this.msg b ∧ b.type = RAT_MESSAGE_AUTHENTICATOR ∧ b.data.ptr < a.data.ptr) ∧
      ((∃ a, Contains this.msg a ∧ a.type = RAT_EAP_MESSAGE) →
        ∃ a, Contains this.msg a ∧ a.type = RAT_MESSAGE_AUTHENTICATOR) := by
  obtain ⟨eap, auth, out, hcheck, hmac⟩ := h
  obtain ⟨-, hrest⟩ := checkAttributes_passed (within_macInput this reqAuth) hcheck
  simp only [yields_macInput] at hrest
  rcases hrest with ⟨-, first, hcontains, htype, hright, hfirst⟩ | ⟨hauth, hnone, heap⟩
  · refine ⟨fun a ha hatype => ?_, fun _ => ⟨first, hcontains, htype⟩⟩
    rcases hfirst a ha hatype with rfl | hlt
    · exact .inl hright
    · exact .inr ⟨first, hcontains, htype, hlt⟩
  · refine ⟨fun a ha hatype => absurd hatype (hnone a ha), fun hseen => ?_⟩
    rw [hauth] at hmac
    exact absurd (hmac (heap (.inr hseen))) (by decide)

/-- **A message verifies safely if and only if it is sound.** -/
theorem verifiesSafely_iff (holders : Holders p secret) (hunforgeable : holders.Unforgeable this.msg) :
    VerifiesSafely holders reqAuth this.msg ↔ Sound p secret reqAuth this.msg := by
  constructor
  · rintro ⟨hattributes, -, -, hauthentic⟩
    refine ⟨(attributesSafe_iff this).mp hattributes, fun hcode haccepted => ?_,
      fun haccepted hright a b _ hb _ hbtype _ => ?_⟩
    · have htrue : verify p reqAuth secret this.msg = some (true, this.msg) :=
        (verify_true this reqAuth).mpr ⟨fun hne => absurd hcode hne, haccepted, rfl⟩
      exact holders.sound _ (hauthentic _ htrue).2.produced
    · have htrue : verify p reqAuth secret this.msg = some (true, this.msg) :=
        (verify_true this reqAuth).mpr ⟨fun _ => hright, haccepted, rfl⟩
      exact (hauthentic _ htrue).2.macs b hb hbtype
  · intro hsound
    refine ⟨(attributesSafe_iff this).mpr hsound.lengths, vendorSafe_of_lengthsValid hsound.lengths,
      verify_ne_none this reqAuth hsound.lengths, fun out hverify => ?_⟩
    obtain ⟨hchecked, haccepted, rfl⟩ := (verify_true this reqAuth).mp hverify
    have hright : ResponseRight p reqAuth secret this.msg := by
      by_cases hcode : code this.msg = RMC_ACCESS_REQUEST
      · exact hsound.skipped hcode haccepted
      · exact hchecked hcode
    obtain ⟨hmacs, heap⟩ := macs_of_accepted this reqAuth haccepted
    refine ⟨rfl, hunforgeable _ hright, fun a ha htype => ?_, heap⟩
    rcases hmacs a ha htype with hmac | ⟨b, hb, hbtype, hlt⟩
    · exact hmac
    · exact hsound.unread haccepted hright b a hb ha hbtype htype hlt

end input

end StrongSwan.Radius
