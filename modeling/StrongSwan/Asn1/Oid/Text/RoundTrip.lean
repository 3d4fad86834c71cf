import StrongSwan.Asn1.Oid.Text

/-!
# Object identifiers to text and back

* `tokens_printUnsigned`, `strtoul_printUnsigned`: the arcs are read from the text.
* `arcBytes_ofNat`: an arc is written as a number in base 128, `fromString_text`: the whole content.
* `toString_eq`: the text of any bytes.
* **`texts_iff`**: the text of an OID is made again if its second arc is below 40, and the end inside
  an arc is seen if the bytes of that arc are not zero.
-/

namespace StrongSwan

/-! ## Numbers in the text -/

section Print

variable {n : ℕ}

theorem isdigit_of_mem_printUnsigned {c : U8} (h : c ∈ printUnsigned n) : isdigit c = true := by
  obtain ⟨d, hd, rfl⟩ := List.mem_map.1 h
  have hlt := Numeral.lt_of_mem_digits (by decide) hd
  interval_cases d <;> decide

theorem printUnsigned_ne_nil (n : ℕ) : printUnsigned n ≠ [] := by
  simp [printUnsigned, Numeral.digits_ne_nil]

theorem foldl_decimal {ds : List ℕ} (h : ∀ d ∈ ds, d < 10) (before : ℕ) :
    (ds.map fun d => BitVec.ofNat 8 (0x30 + d)).foldl (fun n c => 10 * n + (c.toNat - 0x30)) before =
      Numeral.value 10 before ds := by
  induction ds generalizing before with
  | nil => rfl
  | cons d ds ih =>
    have hlt := h d List.mem_cons_self
    have hdigit : (BitVec.ofNat 8 (0x30 + d)).toNat - 0x30 = d := by
      rw [BitVec.toNat_ofNat, Nat.mod_eq_of_lt (by omega)]
      omega
    rw [List.map_cons, List.foldl_cons, hdigit, ih fun d hd => h d (List.mem_cons_of_mem _ hd)]
    rfl

theorem decimal_printUnsigned (n : ℕ) : decimal (printUnsigned n) = n := by
  rw [decimal, printUnsigned, foldl_decimal (fun _ => Numeral.lt_of_mem_digits (by decide)),
    Numeral.value_digits]

theorem class_of_isdigit : ∀ c : U8, isdigit c = true →
    isspace c = false ∧ c ≠ 0x2d ∧ c ≠ 0x2b ∧ c ≠ 0x2e ∧ c ≠ 0x22 ∧ c ≠ 0x27 := by decide

theorem strtoul_printUnsigned (h : n < 2 ^ 64) : strtoul (printUnsigned n) = some n := by
  have hdigits : ∀ c ∈ printUnsigned n, isdigit c = true := fun c => isdigit_of_mem_printUnsigned
  have hdecimal := decimal_printUnsigned n
  have hne := printUnsigned_ne_nil n
  generalize printUnsigned n = str at hdigits hdecimal hne
  cases str with
  | nil => exact absurd rfl hne
  | cons c str =>
    obtain ⟨hspace, hminus, hplus, -⟩ := class_of_isdigit c (hdigits c List.mem_cons_self)
    have hdrop : (c :: str).dropWhile isspace = c :: str :=
      List.dropWhile_cons_of_neg (by rw [hspace]; simp)
    have htake : (c :: str).takeWhile isdigit = c :: str := List.takeWhile_eq_self_iff.2 hdigits
    rw [strtoul, hdrop]
    simp only [List.head?_cons, Option.some.injEq, hminus, hplus, or_self, if_false, htake, hdecimal,
      reduceCtorEq]
    rw [if_neg (not_le.2 h)]

end Print

/-! ## Tokens -/

section Tokens

variable {word : Chunk} (hne : word ≠ []) (hdigits : ∀ c ∈ word, isdigit c = true)

include hne hdigits

theorem tokens_dot (fuel : ℕ) (string : Chunk) :
    tokens (fuel + 1) (word ++ 0x2e :: string) = word :: tokens fuel string := by
  have hdot : (0x2e : U8) ∉ word := fun hmem => (class_of_isdigit _ (hdigits _ hmem)).2.2.2.1 rfl
  have hchr := strchr_append hdot string
  cases word with
  | nil => exact absurd rfl hne
  | cons c word =>
    obtain ⟨-, -, -, hc, hquote, hquote'⟩ := class_of_isdigit c (hdigits c List.mem_cons_self)
    rw [List.cons_append] at hchr ⊢
    rw [tokens, List.dropWhile_cons_of_neg (by simpa using hc)]
    dsimp only
    rw [if_neg fun h => h.1.elim hquote hquote', hchr]

theorem tokens_last (fuel : ℕ) : tokens (fuel + 1) word = [word] := by
  have hdot : (0x2e : U8) ∉ word := fun hmem => (class_of_isdigit _ (hdigits _ hmem)).2.2.2.1 rfl
  have hchr : strchr 0x2e word = none := if_neg hdot
  cases word with
  | nil => exact absurd rfl hne
  | cons c word =>
    obtain ⟨-, -, -, hc, hquote, hquote'⟩ := class_of_isdigit c (hdigits c List.mem_cons_self)
    rw [tokens, List.dropWhile_cons_of_neg (by simpa using hc)]
    dsimp only
    rw [if_neg fun h => h.1.elim hquote hquote', hchr]

end Tokens

/-- **The arcs** are the tokens of a text. -/
theorem tokens_printUnsigned {fuel : ℕ} (arc : ℕ) (arcs : List ℕ) (hfuel : arcs.length < fuel) :
    tokens fuel (printUnsigned arc ++ arcs.flatMap fun arc => 0x2e :: printUnsigned arc) =
      (arc :: arcs).map printUnsigned := by
  have hne := printUnsigned_ne_nil arc
  have hdigits : ∀ c ∈ printUnsigned arc, isdigit c = true := fun c => isdigit_of_mem_printUnsigned
  obtain ⟨fuel, rfl⟩ := Nat.exists_eq_add_of_le' (Nat.one_le_of_lt hfuel)
  induction arcs generalizing arc fuel with
  | nil =>
    rw [List.flatMap_nil, List.append_nil, tokens_last hne hdigits]
    rfl
  | cons next arcs ih =>
    rw [List.flatMap_cons, List.cons_append, tokens_dot hne hdigits]
    obtain ⟨fuel, rfl⟩ := Nat.exists_eq_add_of_le' (show 1 ≤ fuel by simp at hfuel; omega)
    rw [ih next (printUnsigned_ne_nil next) (fun c => isdigit_of_mem_printUnsigned) fuel
      (by simp at hfuel; omega)]
    rfl

/-! ## Arcs as bytes -/

theorem bytesRequired_ofNat {n : ℕ} (h : n < 2 ^ 32) :
    bytesRequired (BitVec.ofNat 32 n) = (Numeral.digits 128 n).length := by
  have hlt {k : ℕ} := Numeral.lt_length_digits_iff (b := 128) (n := n) (k := k) (by decide)
  have hle := Numeral.length_digits_le (b := 128) (k := 5) (by decide) (by decide) (h.trans (by decide))
  have hshift {s k : ℕ} (hs : 2 ^ s = 128 ^ k) : BitVec.ofNat 32 n >>> s ≠ 0 ↔ 128 ^ k ≤ n := by
    rw [ne_eq, ← BitVec.toNat_inj, BitVec.toNat_ushiftRight, BitVec.toNat_ofNat, Nat.mod_eq_of_lt h,
      Nat.shiftRight_eq_div_pow, hs]
    simp
  have h0 := (@hlt 0).2 (.inl rfl)
  have h1 := @hlt 1
  have h2 := @hlt 2
  have h3 := @hlt 3
  have h4 := @hlt 4
  unfold bytesRequired
  simp only [List.foldl_cons, List.foldl_nil, hshift (show 2 ^ 28 = 128 ^ 4 by norm_num),
    hshift (show 2 ^ 21 = 128 ^ 3 by norm_num), hshift (show 2 ^ 14 = 128 ^ 2 by norm_num),
    hshift (show 2 ^ 7 = 128 ^ 1 by norm_num)]
  split_ifs <;> omega

theorem flagged_eq {n : ℕ} (h : n < 2 ^ 32) (i : ℕ) :
    ((0x80 : U32) ||| ((BitVec.ofNat 32 n >>> (7 * (i + 1))) &&& 0x7f)).setWidth 8 =
      BitVec.ofNat 8 (0x80 + n / 128 ^ (i + 1) % 128) := by
  have hmask := Nat.and_two_pow_sub_one_eq_mod (n / 128 ^ (i + 1)) 7
  have hor := Nat.two_pow_add_eq_or_of_lt (i := 7)
    (Nat.mod_lt (n / 128 ^ (i + 1)) (by decide : 0 < 128)) 1
  have hpow : 2 ^ (7 * (i + 1)) = 128 ^ (i + 1) := by rw [pow_mul]; norm_num
  refine BitVec.eq_of_toNat_eq ?_
  simp only [BitVec.toNat_setWidth, BitVec.toNat_or, BitVec.toNat_and, BitVec.toNat_ushiftRight,
    BitVec.toNat_ofNat, Nat.mod_eq_of_lt h, Nat.shiftRight_eq_div_pow, hpow]
  norm_num at hmask hor
  rw [show (0x80 : U32).toNat = 128 from rfl, show (0x7f : U32).toNat = 127 from rfl, hmask, ← hor]

/-- **An arc** is written in base 128. -/
theorem arcBytes_ofNat {n : ℕ} (h : n < 2 ^ 32) : arcBytes (BitVec.ofNat 32 n) = arcContent n := by
  have hlast : (BitVec.ofNat 32 n &&& 0x7f).setWidth 8 = BitVec.ofNat 8 (n % 128) := by
    have hmask := Nat.and_two_pow_sub_one_eq_mod n 7
    refine BitVec.eq_of_toNat_eq ?_
    simp only [BitVec.toNat_setWidth, BitVec.toNat_and, BitVec.toNat_ofNat, Nat.mod_eq_of_lt h]
    norm_num at hmask
    rw [show (0x7f : U32).toNat = 127 from rfl, hmask]
  rw [arcBytes, arcContent, bytesRequired_ofNat h, Numeral.front_eq_map (by decide), hlast,
    List.map_map]
  simp only [Function.comp_def, flagged_eq h]

theorem length_arcContent (n : ℕ) : (arcContent n).length = (Numeral.digits 128 n).length := by
  simp [arcContent, Numeral.digits]

theorem fromStringLoop_arcs {arcs : List ℕ} (harcs : ∀ arc ∈ arcs, arc < 2 ^ 32) (i : ℕ) (first : U32)
    {buf : Chunk} (hfit : buf.length + (arcs.flatMap arcContent).length ≤ 64) :
    fromStringLoop (arcs.map printUnsigned) (i + 2) first buf = buf ++ arcs.flatMap arcContent := by
  induction arcs generalizing i buf with
  | nil => simp [fromStringLoop]
  | cons arc arcs ih =>
    have hlt := harcs arc List.mem_cons_self
    rw [List.flatMap_cons, List.length_append, length_arcContent] at hfit
    have hrest : fromStringLoop (arcs.map printUnsigned) (i + 1 + 2) first (buf ++ arcContent arc) =
        buf ++ arcContent arc ++ arcs.flatMap arcContent := by
      refine ih (fun arc harc => harcs arc (List.mem_cons_of_mem _ harc)) (i + 1) ?_
      rw [List.length_append, length_arcContent]
      omega
    rw [List.map_cons, fromStringLoop, strtoul_printUnsigned (hlt.trans (by decide))]
    dsimp only
    rw [bytesRequired_ofNat hlt, if_neg (by omega), arcBytes_ofNat hlt, List.flatMap_cons,
      ← List.append_assoc]
    exact hrest

theorem length_le_length_dotted (arcs : List ℕ) :
    arcs.length ≤ (arcs.flatMap fun arc => 0x2e :: printUnsigned arc).length := by
  induction arcs with
  | nil => exact Nat.zero_le _
  | cons arc arcs ih =>
    rw [List.flatMap_cons, List.length_append, List.length_cons, List.length_cons]
    omega

/-- **The bytes of a text**: the first two arcs are one byte. -/
theorem fromString_text {o : Oid} (ho : o.Valid) : asn1OidFromString o.text =
    BitVec.ofNat 8 (40 * o.first + o.second) :: o.arcs.flatMap arcContent := by
  have hfirst : o.first < 2 ^ 32 := lt_of_le_of_lt ho.first (by decide)
  have hsecond := ho.second_lt
  have hfive {n : ℕ} (hn : n < 2 ^ 32) : bytesRequired (BitVec.ofNat 32 n) ≤ 5 := by
    rw [bytesRequired_ofNat hn]
    exact Numeral.length_digits_le (by decide) (by decide) (hn.trans (by decide))
  have hfit : 1 + (o.arcs.flatMap arcContent).length ≤ 64 := by
    have hcontent := ho.length_content
    rw [Oid.content, List.length_append] at hcontent
    have hpos : 0 < (arcContent (40 * o.first + o.second)).length := by simp [arcContent]
    omega
  have hfuel : (o.second :: o.arcs).length < o.text.length + 1 := by
    have hle := length_le_length_dotted (o.second :: o.arcs)
    rw [Oid.text, List.length_append]
    omega
  have hbyte : (BitVec.ofNat 32 o.first * 40 + BitVec.ofNat 32 o.second).setWidth 8 =
      BitVec.ofNat 8 (40 * o.first + o.second) := by
    refine BitVec.eq_of_toNat_eq ?_
    simp only [BitVec.toNat_setWidth, BitVec.toNat_add, BitVec.toNat_mul, BitVec.toNat_ofNat,
      show (40 : U32).toNat = 40 from rfl]
    omega
  have htokens : tokens (o.text.length + 1) o.text = _ := tokens_printUnsigned _ _ hfuel
  rw [asn1OidFromString, htokens, List.map_cons, List.map_cons, fromStringLoop,
    strtoul_printUnsigned (hfirst.trans (by decide))]
  dsimp only
  rw [if_neg (by have := hfive hfirst; simp only [List.length_nil]; omega), fromStringLoop,
    strtoul_printUnsigned (hsecond.trans (by decide))]
  dsimp only
  rw [if_neg (by have := hfive hsecond; simp only [List.length_nil]; omega), List.nil_append, hbyte,
    fromStringLoop_arcs ho.arcs_lt 0 _ (by simpa using hfit)]
  rfl

/-! ## Bytes as arcs -/

theorem arcValues_flagged {ds : List ℕ} (hds : ∀ d ∈ ds, d < 128) (before : ℕ) (oid : Chunk) :
    arcValues before ((ds.map fun d => BitVec.ofNat 8 (0x80 + d)) ++ oid) =
      arcValues (Numeral.value 128 before ds) oid := by
  induction ds generalizing before with
  | nil => rfl
  | cons d ds ih =>
    have hlt := hds d List.mem_cons_self
    have hbyte : (BitVec.ofNat 8 (0x80 + d)).toNat = 0x80 + d := by
      rw [BitVec.toNat_ofNat, Nat.mod_eq_of_lt (by omega)]
    have hflag : ¬BitVec.ofNat 8 (0x80 + d) < 128 := by
      rw [BitVec.lt_def, hbyte]
      simp
    rw [List.map_cons, List.cons_append, arcValues, if_neg hflag, hbyte,
      ih fun d hd => hds d (List.mem_cons_of_mem _ hd)]
    rw [show (0x80 + d) % 128 = d by omega]
    rfl

theorem arcValues_arcContent (n : ℕ) (oid : Chunk) :
    arcValues 0 (arcContent n ++ oid) = (n :: (arcValues 0 oid).1, (arcValues 0 oid).2) := by
  have hlt : n % 128 < 128 := Nat.mod_lt n (by decide)
  have hbyte : (BitVec.ofNat 8 (n % 128)).toNat = n % 128 := by
    rw [BitVec.toNat_ofNat, Nat.mod_eq_of_lt (by omega)]
  have hlast : BitVec.ofNat 8 (n % 128) < 128 := by
    rw [BitVec.lt_def, hbyte]
    exact hlt
  have hvalue : 128 * Numeral.value 128 0 (Nat.digits 128 (n / 128)).reverse + n % 128 = n := by
    have hall := Numeral.value_digits 128 n
    rwa [Numeral.digits, Numeral.value_append] at hall
  rw [arcContent, List.append_assoc,
    arcValues_flagged fun d hd => Nat.digits_lt_base (by decide) (List.mem_reverse.1 hd)]
  rw [List.singleton_append, arcValues, if_pos hlast, hbyte, Nat.mod_mod, hvalue]

theorem arcValues_flatMap (arcs : List ℕ) : arcValues 0 (arcs.flatMap arcContent) = (arcs, 0) := by
  induction arcs with
  | nil => rfl
  | cons arc arcs ih => rw [List.flatMap_cons, arcValues_arcContent, ih]

/-- The text of arcs, with 32 bits of each -/
def arcsText (arcs : List ℕ) : Chunk := arcs.flatMap fun arc => 0x2e :: printUnsigned (arc % 2 ^ 32)

/-- **The loop over the bytes** prints all complete arcs. -/
theorem toStringLoop_eq (oid : Chunk) (before : ℕ) {buf : Chunk} (hbuf : buf.length < 64) :
    toStringLoop oid (BitVec.ofNat 32 before) buf =
      if 64 ≤ (buf ++ arcsText (arcValues before oid).1).length ∨
          (arcValues before oid).2 % 2 ^ 32 ≠ 0 then none
      else some (buf ++ arcsText (arcValues before oid).1) := by
  induction oid generalizing before buf with
  | nil =>
    have hzero : BitVec.ofNat 32 before = 0 ↔ before % 2 ^ 32 = 0 := by
      rw [← BitVec.toNat_inj, BitVec.toNat_ofNat]
      rfl
    rw [toStringLoop, arcValues]
    simp only [arcsText, List.flatMap_nil, List.append_nil, hzero, not_le.2 hbuf, false_or]
    split_ifs <;> first | rfl | contradiction
  | cons byte oid ih =>
    have hval : (BitVec.ofNat 32 before <<< 7) + (byte &&& 0x7f).setWidth 32 =
        BitVec.ofNat 32 (128 * before + byte.toNat % 128) := by
      have hmask := Nat.and_two_pow_sub_one_eq_mod byte.toNat 7
      refine BitVec.eq_of_toNat_eq ?_
      simp only [BitVec.toNat_add, BitVec.toNat_shiftLeft, BitVec.toNat_setWidth, BitVec.toNat_and,
        BitVec.toNat_ofNat, Nat.shiftLeft_eq]
      norm_num at hmask
      rw [show (0x7f : U8).toNat = 127 from rfl, hmask]
      omega
    rw [toStringLoop, arcValues, hval]
    dsimp only
    by_cases hend : byte < 128
    · rw [if_pos hend, if_pos hend, BitVec.toNat_ofNat]
      have happend : buf ++ arcsText ((128 * before + byte.toNat % 128) :: (arcValues 0 oid).1) =
          buf ++ 0x2e :: printUnsigned ((128 * before + byte.toNat % 128) % 2 ^ 32) ++
            arcsText (arcValues 0 oid).1 := by
        simp [arcsText]
      rw [happend]
      generalize buf ++ 0x2e :: printUnsigned ((128 * before + byte.toNat % 128) % 2 ^ 32) = more
      by_cases hfull : more.length ≥ 64
      · have hlong : 64 ≤ (more ++ arcsText (arcValues 0 oid).1).length := by
          rw [List.length_append]
          omega
        rw [if_pos hfull, if_pos (.inl hlong)]
      · rw [if_neg hfull]
        exact ih 0 (not_le.1 hfull)
    · rw [if_neg hend, if_neg hend, ih _ hbuf]

/-- **The text of any bytes**, if it fits and the last arc is complete -/
theorem toString_eq {oid : Chunk} (hne : oid ≠ []) : asn1OidToString oid =
    if 64 ≤ (completeText oid).length ∨ incomplete oid % 2 ^ 32 ≠ 0 then none
    else some (completeText oid) := by
  cases oid with
  | nil => exact absurd rfl hne
  | cons byte oid =>
    have hmod : byte.toNat - byte.toNat / 40 * 40 = byte.toNat % 40 := by
      have := Nat.div_add_mod byte.toNat 40
      omega
    have hsmall : byte.toNat % 40 % 2 ^ 32 = byte.toNat % 40 :=
      Nat.mod_eq_of_lt ((Nat.mod_lt _ (by decide)).trans (by decide))
    have happend : completeText (byte :: oid) =
        printUnsigned (byte.toNat / 40) ++ 0x2e :: printUnsigned (byte.toNat % 40) ++
          arcsText (arcValues 0 oid).1 := by
      rw [completeText, List.flatMap_cons, hsmall]
      simp [arcsText]
    rw [asn1OidToString, happend, hmod]
    generalize printUnsigned (byte.toNat / 40) ++ 0x2e :: printUnsigned (byte.toNat % 40) = buf
    by_cases hfull : buf.length ≥ 64
    · have hlong : 64 ≤ (buf ++ arcsText (arcValues 0 oid).1).length := by
        rw [List.length_append]
        omega
      rw [if_pos hfull, if_pos (.inl hlong)]
    · rw [if_neg hfull]
      exact toStringLoop_eq oid 0 (not_le.1 hfull)

/-! ## Round trips -/

theorem completeText_fromString {o : Oid} (ho : o.Valid) (hsecond : o.second < 40) :
    completeText (asn1OidFromString o.text) = o.text ∧
      incomplete (asn1OidFromString o.text) = 0 := by
  have hfirst := ho.first
  have hbyte : (BitVec.ofNat 8 (40 * o.first + o.second)).toNat = 40 * o.first + o.second := by
    rw [BitVec.toNat_ofNat, Nat.mod_eq_of_lt (by omega)]
  have hdiv : (40 * o.first + o.second) / 40 = o.first := by omega
  have hmod : (40 * o.first + o.second) % 40 = o.second := by omega
  rw [fromString_text ho]
  refine ⟨?_, by simp [incomplete, arcValues_flatMap]⟩
  rw [completeText, hbyte, hdiv, hmod, arcValues_flatMap, Oid.text, List.flatMap_cons,
    List.flatMap_cons, Nat.mod_eq_of_lt ho.second_lt]
  congr 2
  refine List.flatMap_congr fun arc harc => ?_
  rw [Nat.mod_eq_of_lt (ho.arcs_lt arc harc)]

theorem arcContent_of_lt {n : ℕ} (h : n < 128) : arcContent n = [BitVec.ofNat 8 n] := by
  rw [arcContent, Nat.div_eq_of_lt h, Nat.mod_eq_of_lt h, Nat.digits_zero]
  rfl

theorem roundTrip_iff {o : Oid} (ho : o.Valid) :
    (asn1OidToString (asn1OidFromString o.text) = some o.text ∧
      asn1OidFromString o.text = o.content) ↔ o.second < 40 := by
  have hfirst := ho.first
  constructor
  · rintro ⟨htext, hcontent⟩
    by_contra hge
    obtain hone : o.first = 2 := by
      have := ho.second
      omega
    rw [fromString_text ho] at htext hcontent
    by_cases hlt : o.second < 48
    · -- the first arc is taken for 3
      rw [toString_eq (List.cons_ne_nil _ _)] at htext
      have hsome := (Option.ite_none_left_eq_some.1 htext).2
      have hbyte : (BitVec.ofNat 8 (40 * o.first + o.second)).toNat / 40 = 3 := by
        rw [BitVec.toNat_ofNat]
        omega
      have hthree : printUnsigned 3 = [0x33] := by decide
      have htwo : printUnsigned 2 = [0x32] := by decide
      rw [completeText, hbyte, Oid.text, hone, hthree, htwo] at hsome
      simp at hsome
    · -- the first two arcs take more than one byte
      rw [Oid.content, ← List.singleton_append] at hcontent
      have hone' := congrArg List.length (List.append_cancel_right hcontent)
      have htwo : 1 < (Numeral.digits 128 (40 * o.first + o.second)).length :=
        (Numeral.lt_length_digits_iff (by decide)).2 (.inr (by omega))
      rw [length_arcContent, List.length_singleton] at hone'
      omega
  · intro hlt
    obtain ⟨htext, hincomplete⟩ := completeText_fromString ho hlt
    have hne : asn1OidFromString o.text ≠ [] := by
      rw [fromString_text ho]
      exact List.cons_ne_nil _ _
    constructor
    · rw [toString_eq hne, htext, hincomplete, if_neg]
      have := ho.length_text
      simp only [Nat.zero_mod, ne_eq, not_true, or_false]
      omega
    · rw [fromString_text ho, Oid.content, arcContent_of_lt (by omega)]
      rfl

/-- **Texts of OIDs.** An OID is made again from its text, and has its DER content, iff its second arc
is below 40. Bytes that end inside an arc have no text iff the arc has not zero as the last 32 bits of
its number so far, or the text of those before it is too long. -/
theorem texts_iff (o : Oid) (ho : o.Valid) (oid : Chunk) (hinside : EndsInside oid) :
    ((asn1OidToString (asn1OidFromString o.text) = some o.text ∧
      asn1OidFromString o.text = o.content) ↔ o.second < 40) ∧
    (asn1OidToString oid = none ↔
      64 ≤ (completeText oid).length ∨ incomplete oid % 2 ^ 32 ≠ 0) := by
  refine ⟨roundTrip_iff ho, ?_⟩
  have hne : oid ≠ [] := by
    rintro rfl
    obtain ⟨byte, hbyte, -⟩ := hinside
    cases hbyte
  rw [toString_eq hne]
  refine ⟨fun hnone => ?_, fun hnot => if_pos hnot⟩
  by_contra hnot
  rw [if_neg hnot] at hnone
  cases hnone

/-- 1.2.840, and its bytes without the last one -/
theorem texts_iff_840 :
    ((asn1OidToString (asn1OidFromString (Oid.text ⟨1, 2, [840]⟩)) = some (Oid.text ⟨1, 2, [840]⟩) ∧
      asn1OidFromString (Oid.text ⟨1, 2, [840]⟩) = Oid.content ⟨1, 2, [840]⟩) ↔ 2 < 40) ∧
    (asn1OidToString [0x2a, 0x86] = none ↔
      64 ≤ (completeText [0x2a, 0x86]).length ∨ incomplete [0x2a, 0x86] % 2 ^ 32 ≠ 0) :=
  texts_iff ⟨1, 2, [840]⟩
    ⟨by decide, by decide, by decide, by decide, by decide, by decide⟩ _ ⟨0x86, by decide⟩

/-- 2.100 is read back as 4.20, and 2A 80 has the text 1.2. -/
theorem not_texts :
    asn1OidToString (asn1OidFromString (Oid.text ⟨2, 100, []⟩)) = some (Oid.text ⟨4, 20, []⟩) ∧
      Oid.text ⟨4, 20, []⟩ ≠ Oid.text ⟨2, 100, []⟩ ∧
      EndsInside [0x2a, 0x80] ∧ asn1OidToString [0x2a, 0x80] = some (Oid.text ⟨1, 2, []⟩) :=
  ⟨by decide, by decide, ⟨0x80, by decide⟩, by decide⟩

end StrongSwan
