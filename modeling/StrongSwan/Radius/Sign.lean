import StrongSwan.Radius.Verify

/-!
# Signing RADIUS messages

* `encodeMessage`: a header, and attributes one behind the other.
* `Built`: messages that are created and added to.
* `checkAttributes_encode`: the loop of `verify` walks over the attributes.
* **`verify_sign`**: a signed message verifies.
-/

namespace StrongSwan.Radius

open BioReader

/-- The type, the length and the value of an attribute. -/
def encodeAttribute (a : U8 × Chunk) : Chunk := [a.1, BitVec.ofNat 8 (a.2.length + RATTR_SIZE)] ++ a.2

def encodeAttributes (attrs : List (U8 × Chunk)) : Chunk := attrs.flatMap encodeAttribute

def encodeMessage (code id : U8) (auth : Chunk) (attrs : List (U8 × Chunk)) : Chunk :=
  [code, id] ++ (htoun16 (BitVec.ofNat 16 (RMSG_SIZE + (encodeAttributes attrs).length)) ++
    (auth ++ encodeAttributes attrs))

section encode

variable {code' id : U8} {auth : Chunk} {attrs : List (U8 × Chunk)}

theorem length_encodeAttribute (a : U8 × Chunk) :
    (encodeAttribute a).length = a.2.length + RATTR_SIZE := by
  rw [encodeAttribute, List.length_append, Nat.add_comm]
  rfl

theorem encodeAttributes_cons (a : U8 × Chunk) (attrs : List (U8 × Chunk)) :
    encodeAttributes (a :: attrs) = encodeAttribute a ++ encodeAttributes attrs :=
  List.flatMap_cons

theorem encodeAttributes_snoc (attrs : List (U8 × Chunk)) (a : U8 × Chunk) :
    encodeAttributes (attrs ++ [a]) = encodeAttributes attrs ++ encodeAttribute a := by
  rw [encodeAttributes, List.flatMap_append, List.flatMap_singleton]
  rfl

theorem length_encodeAttributes_snoc (attrs : List (U8 × Chunk)) (a : U8 × Chunk) :
    (encodeAttributes (attrs ++ [a])).length =
      (encodeAttributes attrs).length + (a.2.length + RATTR_SIZE) := by
  rw [encodeAttributes_snoc, List.length_append, length_encodeAttribute]

/-- An attribute has two bytes at least. -/
theorem length_le_encodeAttributes (attrs : List (U8 × Chunk)) :
    RATTR_SIZE * attrs.length ≤ (encodeAttributes attrs).length := by
  induction attrs with
  | nil => exact Nat.zero_le _
  | cons a attrs ih =>
    rw [encodeAttributes_cons, List.length_append, length_encodeAttribute, List.length_cons,
      Nat.mul_succ]
    omega

theorem length_encodeMessage (hauth : auth.length = HASH_SIZE_MD5) :
    (encodeMessage code' id auth attrs).length = RMSG_SIZE + (encodeAttributes attrs).length := by
  have hsize : RMSG_SIZE = 20 := rfl
  have hhash : HASH_SIZE_MD5 = 16 := rfl
  rw [encodeMessage, List.length_append, List.length_append, List.length_append, length_htoun16,
    hauth, List.length_cons, List.length_singleton]
  omega

theorem msgLength_encodeMessage (hfits : RMSG_SIZE + (encodeAttributes attrs).length < 2 ^ 16) :
    msgLength (encodeMessage code' id auth attrs) = RMSG_SIZE + (encodeAttributes attrs).length := by
  have hdrop : (encodeMessage code' id auth attrs).drop 2 =
      htoun16 (BitVec.ofNat 16 (RMSG_SIZE + (encodeAttributes attrs).length)) ++
        (auth ++ encodeAttributes attrs) := rfl
  rw [msgLength, hdrop, untoh16_htoun16_append, BitVec.toNat_ofNat, Nat.mod_eq_of_lt hfits]

theorem setAuthenticator_encodeMessage {auth' : Chunk} (hauth : auth.length = HASH_SIZE_MD5)
    (hauth' : auth'.length = HASH_SIZE_MD5) :
    setAuthenticator (encodeMessage code' id auth attrs) auth' =
      encodeMessage code' id auth' attrs := by
  have hsplit : encodeMessage code' id auth attrs =
      ([code', id] ++ htoun16 (BitVec.ofNat 16 (RMSG_SIZE + (encodeAttributes attrs).length))) ++
        (auth ++ encodeAttributes attrs) := by
    rw [encodeMessage, List.append_assoc]
  have hfour : ([code', id] ++
      htoun16 (BitVec.ofNat 16 (RMSG_SIZE + (encodeAttributes attrs).length))).length = 4 := by
    rw [List.length_append, length_htoun16]
    rfl
  rw [setAuthenticator, writeAt, hsplit, List.take_left' hfour, ← List.drop_drop,
    List.drop_left' hfour, List.drop_left' (hauth.trans hauth'.symm), encodeMessage,
    List.append_assoc]

theorem addAttribute_encodeMessage (type : U8) (data : Chunk) (hauth : auth.length = HASH_SIZE_MD5)
    (hfits : RMSG_SIZE + (encodeAttributes attrs).length < 2 ^ 16) :
    addAttribute (encodeMessage code' id auth attrs) type data =
      encodeMessage code' id auth (attrs ++ [(type, data.take MAX_RADIUS_ATTRIBUTE_SIZE)]) := by
  have hall : (encodeMessage code' id auth attrs).take
      (RMSG_SIZE + (encodeAttributes attrs).length) = encodeMessage code' id auth attrs :=
    List.take_of_length_le (length_encodeMessage hauth).le
  have hdrop : ∀ (n : U16) (rest : Chunk),
      ([code', id] ++ rest).drop (2 + (htoun16 n).length) = rest.drop 2 := by
    intro n rest
    rw [length_htoun16]
    rfl
  rw [addAttribute, msgLength_encodeMessage hfits, hall, encodeMessage, encodeMessage,
    length_encodeAttributes_snoc, encodeAttributes_snoc, ← Nat.add_assoc, writeAt,
    List.append_assoc, List.append_assoc, hdrop, List.drop_left' (length_htoun16 _),
    List.append_assoc, Nat.add_assoc, Nat.add_assoc]
  rfl

end encode

/-! ## Messages that are built -/

/-- A message with a code, an identifier and attributes. -/
def Built (this : SignedMessage) (code id : U8) (attrs : List (U8 × Chunk)) : Prop :=
  (∃ auth, auth.length = HASH_SIZE_MD5 ∧ this.msg = encodeMessage code id auth attrs) ∧
    ∀ a ∈ attrs, a.2.length ≤ MAX_RADIUS_ATTRIBUTE_SIZE

theorem built_radiusMessageCreate (code : U8) : Built (radiusMessageCreate code) code 0 [] :=
  ⟨⟨List.replicate HASH_SIZE_MD5 0, List.length_replicate, rfl⟩, nofun⟩

section built

variable {this : SignedMessage} {code' id : U8} {attrs : List (U8 × Chunk)}

end built

/-! ## The loop over encoded attributes -/

section walk

variable {p : Primitives}

theorem attributeEnumerate_encode (front rest : Chunk) {a : U8 × Chunk}
    (ha : a.2.length ≤ MAX_RADIUS_ATTRIBUTE_SIZE) :
    attributeEnumerate (front ++ (encodeAttribute a ++ rest))
        ⟨front.length, (encodeAttribute a ++ rest).length⟩ =
      some (⟨a.1, ⟨front.length + RATTR_SIZE, a.2.length⟩⟩,
        ⟨front.length + (encodeAttribute a).length, rest.length⟩) := by
  have hmax : MAX_RADIUS_ATTRIBUTE_SIZE = 253 := rfl
  have hsize : RATTR_SIZE = 2 := rfl
  have hget : ∀ i : ℕ, (front ++ (encodeAttribute a ++ rest)).getD (front.length + i) 0 =
      (encodeAttribute a ++ rest).getD i 0 := by
    intro i
    rw [List.getD_eq_getElem?_getD, List.getD_eq_getElem?_getD,
      List.getElem?_append_right (Nat.le_add_right _ _), Nat.add_sub_cancel_left]
  have hlength : AttributeEnumerator.length (front ++ (encodeAttribute a ++ rest))
      ⟨front.length, (encodeAttribute a ++ rest).length⟩ = a.2.length + RATTR_SIZE := by
    rw [AttributeEnumerator.length, hget]
    show (BitVec.ofNat 8 (a.2.length + RATTR_SIZE)).toNat = _
    rw [BitVec.toNat_ofNat]
    omega
  have htype : (front ++ (encodeAttribute a ++ rest)).getD front.length 0 = a.1 := hget 0
  have hleft : (encodeAttribute a ++ rest).length = a.2.length + RATTR_SIZE + rest.length := by
    rw [List.length_append, length_encodeAttribute]
  have hdata : (2 ^ 64 + (a.2.length + RATTR_SIZE) - RATTR_SIZE) % 2 ^ 64 = a.2.length := by
    omega
  rw [attributeEnumerate, hlength]
  dsimp only
  rw [hleft, length_encodeAttribute, if_neg (by omega), if_neg (by omega), htype, hdata,
    Nat.add_sub_cancel_left]

theorem checkAttributes_encode (front rest : Chunk) (attrs : List (U8 × Chunk)) (hasEap : Bool)
    (fuel : ℕ) (hlen : ∀ a ∈ attrs, a.2.length ≤ MAX_RADIUS_ATTRIBUTE_SIZE)
    (hmac : ∀ a ∈ attrs, a.1 ≠ RAT_MESSAGE_AUTHENTICATOR) :
    checkAttributes p (fuel + attrs.length) (front ++ (encodeAttributes attrs ++ rest))
        ⟨front.length, (encodeAttributes attrs ++ rest).length⟩ hasEap =
      checkAttributes p fuel (front ++ (encodeAttributes attrs ++ rest))
        ⟨front.length + (encodeAttributes attrs).length, rest.length⟩
        (hasEap || attrs.any fun a => a.1 == RAT_EAP_MESSAGE) := by
  induction attrs generalizing front hasEap with
  | nil =>
    rw [List.any_nil, Bool.or_false]
    rfl
  | cons a attrs ih =>
    have hstep := attributeEnumerate_encode front (encodeAttributes attrs ++ rest)
      (hlen a List.mem_cons_self)
    have hrest := ih (front ++ encodeAttribute a) (hasEap || a.1 == RAT_EAP_MESSAGE)
      (fun b hb => hlen b (List.mem_cons_of_mem _ hb)) (fun b hb => hmac b (List.mem_cons_of_mem _ hb))
    rw [List.append_assoc, List.length_append] at hrest
    rw [encodeAttributes_cons, List.append_assoc, List.length_cons, ← Nat.add_assoc, checkAttributes,
      hstep]
    dsimp only
    rw [if_neg (hmac a List.mem_cons_self), hrest, List.any_cons, List.length_append, Nat.add_assoc,
      Bool.or_assoc]

end walk

/-! ## Signed messages verify -/

theorem length_memxor_le (a b : Chunk) : (memxor a b).length ≤ b.length := by
  rw [memxor, List.length_zipWith]
  exact Nat.min_le_right _ _

theorem length_cryptRounds {p : Primitives} {secret seed out crypted : Chunk} {blocks : ℕ}
    (h : cryptRounds p secret blocks seed out = some crypted) :
    crypted.length ≤ blocks * HASH_SIZE_MD5 := by
  induction blocks generalizing seed out crypted with
  | zero =>
    injection h with h
    rw [← h]
    exact Nat.zero_le _
  | succ blocks ih =>
    rw [cryptRounds] at h
    cases hhash : p.getHash (secret ++ seed) with
    | none =>
      rw [hhash] at h
      cases h
    | some b =>
      rw [hhash] at h
      obtain ⟨rest, hrest, rfl⟩ := Option.map_eq_some_iff.mp h
      have hblock := length_memxor_le (out.take HASH_SIZE_MD5) b.bytes
      rw [b.length_eq] at hblock
      have hle := ih hrest
      rw [List.length_append, Nat.succ_mul]
      omega

theorem length_crypt {p : Primitives} {msg salt data secret crypted : Chunk}
    (h : crypt p msg salt data secret = some crypted) : crypted.length ≤ data.length := by
  rw [crypt] at h
  split_ifs at h
  exact (length_cryptRounds h).trans (Nat.div_mul_le_self _ _)

section sign

variable {p : Primitives} {secret : Chunk} {this signed : SignedMessage} {code' id : U8}
  {auth : Chunk} {attrs : List (U8 × Chunk)}

/-- The size of a message once it is signed. -/
def signedSize (attrs : List (U8 × Chunk)) (password : Chunk) (msgAuth : Bool) : ℕ :=
  RMSG_SIZE + (encodeAttributes attrs).length +
    (if password.length ≠ 0 then RATTR_SIZE + min password.length MAX_RADIUS_ATTRIBUTE_SIZE else 0) +
    (if msgAuth then RATTR_SIZE + HASH_SIZE_MD5 else 0)

theorem addPassword_encode (hauth : auth.length = HASH_SIZE_MD5)
    (hmsg : this.msg = encodeMessage code' id auth attrs)
    (hfits : RMSG_SIZE + (encodeAttributes attrs).length < 2 ^ 16)
    (h : addPassword p secret this = some signed) :
    ∃ added, signed.msg = encodeMessage code' id auth (attrs ++ added) ∧
      (∀ a ∈ added, a.2.length ≤ MAX_RADIUS_ATTRIBUTE_SIZE ∧ a.1 = RAT_USER_PASSWORD) ∧
      (encodeAttributes added).length ≤
        if this.password.length ≠ 0 then
          RATTR_SIZE + min this.password.length MAX_RADIUS_ATTRIBUTE_SIZE else 0 := by
  rw [addPassword] at h
  split_ifs at h ⊢ with hpassword
  · obtain ⟨encrypted, hcrypt, h⟩ := Option.bind_eq_some_iff.mp h
    injection h with h
    have hle := length_crypt hcrypt
    refine ⟨[(RAT_USER_PASSWORD, encrypted.take MAX_RADIUS_ATTRIBUTE_SIZE)], ?_, ?_, ?_⟩
    · rw [← h, hmsg]
      exact addAttribute_encodeMessage _ _ hauth hfits
    · intro a ha
      rw [List.mem_singleton.mp ha]
      exact ⟨List.length_take_le _ _, rfl⟩
    · rw [encodeAttributes, List.flatMap_singleton, length_encodeAttribute, List.length_take]
      omega
  · injection h with h
    exact ⟨[], by rw [← h, hmsg, List.append_nil], nofun, le_refl _⟩

/-- The header of a message with `n` bytes of attributes. -/
def encodeHeader (code id : U8) (auth : Chunk) (n : ℕ) : Chunk :=
  [code, id] ++ (htoun16 (BitVec.ofNat 16 (RMSG_SIZE + n)) ++ auth)

theorem encodeMessage_eq : encodeMessage code' id auth attrs =
    encodeHeader code' id auth (encodeAttributes attrs).length ++ encodeAttributes attrs := by
  rw [encodeMessage, encodeHeader, List.append_assoc, List.append_assoc]

theorem length_encodeHeader (hauth : auth.length = HASH_SIZE_MD5) (n : ℕ) :
    (encodeHeader code' id auth n).length = RMSG_SIZE := by
  rw [encodeHeader, List.length_append, List.length_append, length_htoun16, hauth]
  rfl

theorem createEnumerator_encode
    (hfits : RMSG_SIZE + (encodeAttributes attrs).length < 2 ^ 16) :
    createEnumerator (encodeMessage code' id auth attrs) =
      ⟨RMSG_SIZE, (encodeAttributes attrs).length⟩ := by
  have htwo : 2 * attrs.length ≤ _ := length_le_encodeAttributes attrs
  have hsize : RATTR_SIZE = 2 := rfl
  rw [createEnumerator, msgLength_encodeMessage hfits]
  split_ifs with hshort
  · have hnil : attrs = [] := List.eq_nil_of_length_eq_zero (by omega)
    rw [hnil]
    rfl
  · rw [Nat.add_sub_cancel_left]

theorem writeAt_append (front mid rest : Chunk) {bytes : Chunk} (h : bytes.length = mid.length) :
    writeAt (front ++ (mid ++ rest)) front.length bytes = front ++ (bytes ++ rest) := by
  rw [writeAt, List.take_left, ← List.drop_drop, List.drop_left, List.drop_left' h.symm]

theorem checkAttributes_plain (hauth : auth.length = HASH_SIZE_MD5)
    (hlen : ∀ a ∈ attrs, a.2.length ≤ MAX_RADIUS_ATTRIBUTE_SIZE)
    (hmac : ∀ a ∈ attrs, a.1 ≠ RAT_MESSAGE_AUTHENTICATOR) (heap : ∀ a ∈ attrs, a.1 ≠ RAT_EAP_MESSAGE)
    (hfits : RMSG_SIZE + (encodeAttributes attrs).length < 2 ^ 16) {fuel : ℕ}
    (hfuel : attrs.length < fuel) :
    checkAttributes p fuel (encodeMessage code' id auth attrs)
        (createEnumerator (encodeMessage code' id auth attrs)) false =
      some (.passed false false (encodeMessage code' id auth attrs)) := by
  obtain ⟨rest, rfl⟩ : ∃ rest, fuel = rest + 1 + attrs.length := ⟨fuel - 1 - attrs.length, by omega⟩
  have hwalk := checkAttributes_encode (p := p)
    (encodeHeader code' id auth (encodeAttributes attrs).length) [] attrs false (rest + 1) hlen hmac
  have hnone : (attrs.any fun a => a.1 == RAT_EAP_MESSAGE) = false := by
    rw [List.any_eq_false]
    intro a ha
    rw [beq_iff_eq]
    exact heap a ha
  rw [List.append_nil, ← encodeMessage_eq, length_encodeHeader hauth, hnone] at hwalk
  rw [createEnumerator_encode hfits, hwalk, checkAttributes]
  rfl

theorem encodeMessage_snoc (type : U8) (data : Chunk) :
    encodeMessage code' id auth (attrs ++ [(type, data)]) =
      (encodeHeader code' id auth ((encodeAttributes attrs).length + (data.length + RATTR_SIZE)) ++
        (encodeAttributes attrs ++ [type, BitVec.ofNat 8 (data.length + RATTR_SIZE)])) ++
          (data ++ []) := by
  rw [encodeMessage_eq, length_encodeAttributes_snoc, encodeAttributes_snoc, encodeAttribute,
    List.append_nil, List.append_assoc, List.append_assoc]

theorem length_front (hauth : auth.length = HASH_SIZE_MD5) (type : U8) (data : Chunk) :
    (encodeHeader code' id auth ((encodeAttributes attrs).length + (data.length + RATTR_SIZE)) ++
      (encodeAttributes attrs ++ [type, BitVec.ofNat 8 (data.length + RATTR_SIZE)])).length =
        RMSG_SIZE + (encodeAttributes attrs).length + RATTR_SIZE := by
  rw [List.length_append, List.length_append, length_encodeHeader hauth, ← Nat.add_assoc]
  rfl

theorem writeAt_encodeMessage (hauth : auth.length = HASH_SIZE_MD5) (type : U8)
    {data bytes : Chunk} (hlen : bytes.length = data.length) :
    writeAt (encodeMessage code' id auth (attrs ++ [(type, data)]))
        (RMSG_SIZE + (encodeAttributes attrs).length + RATTR_SIZE) bytes =
      encodeMessage code' id auth (attrs ++ [(type, bytes)]) := by
  rw [encodeMessage_snoc, encodeMessage_snoc, ← length_front hauth type data, writeAt_append _ _ _ hlen,
    hlen]

theorem slice_encodeMessage (hauth : auth.length = HASH_SIZE_MD5) (type : U8) (data : Chunk) :
    slice (encodeMessage code' id auth (attrs ++ [(type, data)]))
        ⟨RMSG_SIZE + (encodeAttributes attrs).length + RATTR_SIZE, data.length⟩ = data := by
  rw [slice, encodeMessage_snoc, ← length_front hauth type data, List.drop_left, List.append_nil,
    List.take_length]

theorem checkAttributes_mac (hauth : auth.length = HASH_SIZE_MD5)
    (hlen : ∀ a ∈ attrs, a.2.length ≤ MAX_RADIUS_ATTRIBUTE_SIZE)
    (hmac : ∀ a ∈ attrs, a.1 ≠ RAT_MESSAGE_AUTHENTICATOR) {signature : Digest}
    (hsignature : p.getSignature (encodeMessage code' id auth (attrs ++
      [(RAT_MESSAGE_AUTHENTICATOR, List.replicate HASH_SIZE_MD5 0)])) = some signature)
    (hfits : RMSG_SIZE + (encodeAttributes (attrs ++
      [(RAT_MESSAGE_AUTHENTICATOR, signature.bytes)])).length < 2 ^ 16) (fuel : ℕ)
    (hfuel : attrs.length < fuel) :
    ∃ eap out, checkAttributes p fuel
        (encodeMessage code' id auth (attrs ++ [(RAT_MESSAGE_AUTHENTICATOR, signature.bytes)]))
        (createEnumerator
          (encodeMessage code' id auth (attrs ++ [(RAT_MESSAGE_AUTHENTICATOR, signature.bytes)])))
        false = some (.passed eap true out) := by
  obtain ⟨rest, rfl⟩ : ∃ rest, fuel = rest + 1 + attrs.length := ⟨fuel - 1 - attrs.length, by omega⟩
  have hsig := signature.length_eq
  have hhash : HASH_SIZE_MD5 = 16 := rfl
  have hmax : MAX_RADIUS_ATTRIBUTE_SIZE = 253 := rfl
  have hslice : slice (encodeMessage code' id auth
      (attrs ++ [(RAT_MESSAGE_AUTHENTICATOR, signature.bytes)]))
      ⟨RMSG_SIZE + (encodeAttributes attrs).length + RATTR_SIZE, signature.bytes.length⟩ =
        signature.bytes :=
    slice_encodeMessage hauth _ _
  have hcleared : writeAt (encodeMessage code' id auth
      (attrs ++ [(RAT_MESSAGE_AUTHENTICATOR, signature.bytes)]))
      (RMSG_SIZE + (encodeAttributes attrs).length + RATTR_SIZE) (List.replicate HASH_SIZE_MD5 0) =
        encodeMessage code' id auth
          (attrs ++ [(RAT_MESSAGE_AUTHENTICATOR, List.replicate HASH_SIZE_MD5 0)]) :=
    writeAt_encodeMessage hauth _ (by rw [List.length_replicate, hsig])
  have hverify : p.verifySignature (encodeMessage code' id auth
      (attrs ++ [(RAT_MESSAGE_AUTHENTICATOR, List.replicate HASH_SIZE_MD5 0)])) signature.bytes =
        true := by
    rw [Primitives.verifySignature, hsignature]
    exact beq_self_eq_true _
  have hwalk := checkAttributes_encode (p := p) (encodeHeader code' id auth (encodeAttributes (attrs ++
    [(RAT_MESSAGE_AUTHENTICATOR, signature.bytes)])).length)
    (encodeAttribute (RAT_MESSAGE_AUTHENTICATOR, signature.bytes) ++ []) attrs false (rest + 1) hlen hmac
  have hstep := attributeEnumerate_encode (encodeHeader code' id auth (encodeAttributes (attrs ++
    [(RAT_MESSAGE_AUTHENTICATOR, signature.bytes)])).length ++ encodeAttributes attrs) []
    (a := (RAT_MESSAGE_AUTHENTICATOR, signature.bytes))
    (show signature.bytes.length ≤ MAX_RADIUS_ATTRIBUTE_SIZE by omega)
  rw [List.append_assoc, List.length_append] at hstep
  rw [List.append_nil, ← encodeAttributes_snoc, ← encodeMessage_eq, length_encodeHeader hauth] at hwalk
  rw [List.append_nil, ← encodeAttributes_snoc, ← encodeMessage_eq, length_encodeHeader hauth] at hstep
  refine ⟨false || attrs.any fun a => a.1 == RAT_EAP_MESSAGE, writeAt (encodeMessage code' id auth
    (attrs ++ [(RAT_MESSAGE_AUTHENTICATOR, List.replicate HASH_SIZE_MD5 0)]))
    (RMSG_SIZE + (encodeAttributes attrs).length + RATTR_SIZE) signature.bytes, ?_⟩
  rw [createEnumerator_encode hfits, hwalk, checkAttributes, hstep]
  dsimp only
  rw [if_pos rfl, if_neg (by rw [hsig]; exact not_not_intro rfl), hslice, hcleared, if_pos hverify]

theorem checkAttributes_signed (hauth : auth.length = HASH_SIZE_MD5)
    (hlen : ∀ a ∈ attrs, a.2.length ≤ MAX_RADIUS_ATTRIBUTE_SIZE)
    (hmac : ∀ a ∈ attrs, a.1 ≠ RAT_MESSAGE_AUTHENTICATOR) {msgAuth : Bool}
    (heap : (∃ a ∈ attrs, a.1 = RAT_EAP_MESSAGE) → msgAuth = true)
    (hfits : RMSG_SIZE + (encodeAttributes attrs).length +
      (if msgAuth then RATTR_SIZE + HASH_SIZE_MD5 else 0) < 2 ^ 16) {m : Chunk}
    (h : (if msgAuth then addMessageAuthenticator p (encodeMessage code' id auth attrs)
      else some (encodeMessage code' id auth attrs)) = some m) :
    (∃ attrs', m = encodeMessage code' id auth attrs' ∧
      RMSG_SIZE + (encodeAttributes attrs').length < 2 ^ 16) ∧
      ∃ eap auth' out, checkAttributes p (m.length + 1) m (createEnumerator m) false =
        some (.passed eap auth' out) ∧ (eap = true → auth' = true) := by
  have htwo : 2 * attrs.length ≤ _ := length_le_encodeAttributes attrs
  have hsize : RATTR_SIZE = 2 := rfl
  have hhash : HASH_SIZE_MD5 = 16 := rfl
  cases msgAuth with
  | false =>
    injection h with h
    subst h
    have hnone : ∀ a ∈ attrs, a.1 ≠ RAT_EAP_MESSAGE := fun a ha htype =>
      absurd (heap ⟨a, ha, htype⟩) (by decide)
    refine ⟨⟨attrs, rfl, by omega⟩, false, false, _,
      checkAttributes_plain hauth hlen hmac hnone (by omega) ?_, fun h => h⟩
    rw [length_encodeMessage hauth]
    omega
  | true =>
    rw [if_pos rfl] at h hfits
    have hzeros : (List.replicate HASH_SIZE_MD5 (0 : U8)).take MAX_RADIUS_ATTRIBUTE_SIZE =
        List.replicate HASH_SIZE_MD5 0 := rfl
    rw [addMessageAuthenticator, addAttribute_encodeMessage _ _ hauth (by omega), hzeros] at h
    have hfits' : RMSG_SIZE + (encodeAttributes (attrs ++
        [(RAT_MESSAGE_AUTHENTICATOR, List.replicate HASH_SIZE_MD5 0)])).length < 2 ^ 16 := by
      rw [length_encodeAttributes_snoc, List.length_replicate]
      omega
    rw [msgLength_encodeMessage hfits', List.take_of_length_le (length_encodeMessage hauth).le] at h
    obtain ⟨signature, hsignature, h⟩ := Option.bind_eq_some_iff.mp h
    injection h with h
    have hsig := signature.length_eq
    have hpos : RMSG_SIZE + (encodeAttributes (attrs ++ [(RAT_MESSAGE_AUTHENTICATOR,
        List.replicate HASH_SIZE_MD5 0)])).length - HASH_SIZE_MD5 =
          RMSG_SIZE + (encodeAttributes attrs).length + RATTR_SIZE := by
      rw [length_encodeAttributes_snoc, List.length_replicate]
      omega
    rw [hpos, writeAt_encodeMessage hauth _ (by rw [hsig, List.length_replicate])] at h
    subst h
    have hfits'' : RMSG_SIZE + (encodeAttributes (attrs ++
        [(RAT_MESSAGE_AUTHENTICATOR, signature.bytes)])).length < 2 ^ 16 := by
      rw [length_encodeAttributes_snoc, hsig]
      omega
    obtain ⟨eap, out, hcheck⟩ := checkAttributes_mac hauth hlen hmac hsignature hfits''
      ((encodeMessage code' id auth (attrs ++
        [(RAT_MESSAGE_AUTHENTICATOR, signature.bytes)])).length + 1) (by
          rw [length_encodeMessage hauth, length_encodeAttributes_snoc]
          omega)
    exact ⟨⟨_, rfl, hfits''⟩, eap, true, out, hcheck, fun _ => rfl⟩

/-- What `sign` needs: a random authenticator goes with the code of a request, an EAP-Message with a
Message-Authenticator, and there is none yet. -/
structure Signable (code : U8) (attrs : List (U8 × Chunk)) (password : Chunk)
    (rng : Option (Option Digest)) (msgAuth : Bool) : Prop where
  random : rng.isSome ↔ code = RMC_ACCESS_REQUEST
  eap : (∃ a ∈ attrs, a.1 = RAT_EAP_MESSAGE) → msgAuth = true
  mac : ∀ a ∈ attrs, a.1 ≠ RAT_MESSAGE_AUTHENTICATOR
  fits : signedSize attrs password msgAuth < 2 ^ 16

/-- **A signed message verifies**, and is as it was then. -/
theorem verify_sign {reqAuth : Option Digest} {rng : Option (Option Digest)} {msgAuth : Bool}
    (hbuilt : Built this code' id attrs) (hsignable : Signable code' attrs this.password rng msgAuth)
    (hsign : sign p reqAuth secret rng msgAuth this = some signed) :
    verify p reqAuth secret signed.msg = some (true, signed.msg) := by
  obtain ⟨⟨auth, hauth, hmsg⟩, hlen⟩ := hbuilt
  obtain ⟨hrandom, heap, hmac, hfits⟩ := hsignable
  obtain ⟨auth', hinit, hrest⟩ := Option.bind_eq_some_iff.mp hsign
  obtain ⟨withPassword, hpassword, hrest'⟩ := Option.bind_eq_some_iff.mp hrest
  obtain ⟨m, hm, hrest''⟩ := Option.bind_eq_some_iff.mp hrest'
  obtain ⟨last, hlast, hlasts⟩ := Option.bind_eq_some_iff.mp hrest''
  injection hlasts with hsigned
  clear hrest hrest' hrest'' hsign
  have hauth' : auth'.length = HASH_SIZE_MD5 := by
    cases rng with
    | none =>
      injection hinit with hinit
      rw [← hinit]
      exact length_reqAuthBytes _
    | some bytes =>
      obtain ⟨digest, -, rfl⟩ := Option.map_eq_some_iff.mp hinit
      exact digest.length_eq
  rw [signedSize] at hfits
  have hset : setAuthenticator this.msg auth' = encodeMessage code' id auth' attrs := by
    rw [hmsg, setAuthenticator_encodeMessage hauth hauth']
  obtain ⟨added, hadded, hpasswords, hsize⟩ := addPassword_encode hauth' hset (by omega) hpassword
  have hall : (encodeAttributes (attrs ++ added)).length =
      (encodeAttributes attrs).length + (encodeAttributes added).length := by
    rw [encodeAttributes, List.flatMap_append, List.length_append]
    rfl
  rw [hadded] at hm
  have hlens : ∀ a ∈ attrs ++ added, a.2.length ≤ MAX_RADIUS_ATTRIBUTE_SIZE :=
    fun a ha => (List.mem_append.mp ha).elim (hlen a) fun ha => (hpasswords a ha).1
  have hmacs : ∀ a ∈ attrs ++ added, a.1 ≠ RAT_MESSAGE_AUTHENTICATOR := by
    intro a ha
    rcases List.mem_append.mp ha with ha | ha
    · exact hmac a ha
    · rw [(hpasswords a ha).2]
      decide
  have heaps : (∃ a ∈ attrs ++ added, a.1 = RAT_EAP_MESSAGE) → msgAuth = true := by
    rintro ⟨a, ha, htype⟩
    rcases List.mem_append.mp ha with ha | ha
    · exact heap ⟨a, ha, htype⟩
    · rw [(hpasswords a ha).2] at htype
      exact absurd htype (by decide)
  obtain ⟨⟨attrs', rfl, hfits'⟩, eap, auth'', out, hcheck, hpassed⟩ :=
    checkAttributes_signed hauth' hlens hmacs heaps (by
      rw [hall]
      dsimp only at hsize
      omega) hm
  have hsized : ∀ auth : Chunk, auth.length = HASH_SIZE_MD5 →
      RMSG_SIZE ≤ (encodeMessage code' id auth attrs').length ∧
        msgLength (encodeMessage code' id auth attrs') =
          (encodeMessage code' id auth attrs').length := by
    intro auth hauth
    rw [length_encodeMessage hauth, msgLength_encodeMessage hfits']
    exact ⟨Nat.le_add_right _ _, rfl⟩
  subst hsigned
  cases rng with
  | some bytes =>
    injection hlast with hlast
    subst hlast
    obtain ⟨hmin, hlength⟩ := hsized auth' hauth'
    have hcode : code' = RMC_ACCESS_REQUEST := hrandom.mp rfl
    have hinput : macInput reqAuth (encodeMessage code' id auth' attrs') =
        encodeMessage code' id auth' attrs' := if_neg (not_not_intro hcode)
    refine (verify_true ⟨_, hmin, hlength⟩ reqAuth).mpr ⟨fun hne => absurd hcode hne,
      ⟨eap, auth'', out, ?_, hpassed⟩, rfl⟩
    dsimp only
    rw [hinput]
    exact hcheck
  | none =>
    injection hinit with hinit
    obtain ⟨hash, hhash, hlast⟩ := Option.bind_eq_some_iff.mp hlast
    injection hlast with hlast
    subst hlast
    rw [setAuthenticator_encodeMessage hauth' hash.length_eq]
    obtain ⟨hmin, hlength⟩ := hsized auth' hauth'
    obtain ⟨hmin', hlength'⟩ := hsized hash.bytes hash.length_eq
    have hcode : code' ≠ RMC_ACCESS_REQUEST := fun h => absurd (hrandom.mpr h) (by decide)
    have hreplaced : setAuthenticator (encodeMessage code' id hash.bytes attrs')
        (reqAuthBytes reqAuth) = encodeMessage code' id auth' attrs' := by
      rw [hinit, setAuthenticator_encodeMessage hash.length_eq hauth']
    have hinput : macInput reqAuth (encodeMessage code' id hash.bytes attrs') =
        encodeMessage code' id auth' attrs' := (if_pos hcode).trans hreplaced
    rw [hlength, List.take_length] at hhash
    refine (verify_true ⟨_, hmin', hlength'⟩ reqAuth).mpr ⟨fun _ => ?_,
      ⟨eap, auth'', out, ?_, hpassed⟩, rfl⟩
    · dsimp only
      rw [ResponseRight, hreplaced, hhash, ← setAuthenticator_encodeMessage hauth' hash.length_eq,
        authenticator_setAuthenticator hmin hash.length_eq]
      rfl
    · have hsame : (encodeMessage code' id hash.bytes attrs').length =
          (encodeMessage code' id auth' attrs').length := by
        rw [length_encodeMessage hauth', length_encodeMessage hash.length_eq]
      have hstart : createEnumerator (encodeMessage code' id hash.bytes attrs') =
          createEnumerator (encodeMessage code' id auth' attrs') :=
        (createEnumerator_encode hfits').trans (createEnumerator_encode hfits').symm
      dsimp only
      rw [hinput, hsame, hstart]
      exact hcheck

end sign

end StrongSwan.Radius
