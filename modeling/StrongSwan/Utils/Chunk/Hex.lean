import StrongSwan.Lib.Numeral
import StrongSwan.Utils.Chunk

/-!
# Hexadecimal digits

* `Digit`, `groupText`: digits in either case, and pairs of them with a separation character before each.
* `chunkToHex_eq`: a chunk is written as the pairs of its bytes.
* **`fromHexLoop_groups`**: pairs are read from the right, up to the digits before them.
* `chunkFromHex_long`, `chunkFromHex_odd_max`: lengths an `int` does not hold.
-/

namespace StrongSwan

/-- A hexadecimal digit: its value, and whether it is an upper case letter. -/
abbrev Digit := Fin 16 × Bool

/-- The digits of a case -/
def hexdig (uppercase : Bool) : Chunk := if uppercase then hexdigUpper else hexdigLower

def Digit.char (d : Digit) : U8 := (hexdig d.2).getD d.1 0

/-- The byte of two digits -/
def pairByte (p : Digit × Digit) : U8 := BitVec.ofNat 8 (p.1.1 * 16 + p.2.1)

/-- What separates bytes -/
def separator (separated : Bool) : Chunk := if separated then [colon] else []

/-- Pairs of digits, each behind what separates it from those before it -/
def groupText (separated : Bool) (pairs : List (Digit × Digit)) : Chunk :=
  pairs.flatMap fun p => separator separated ++ [p.1.char, p.2.char]

/-! ## Characters -/

theorem char_spec (d : Digit) :
    hex2bin d.char = BitVec.ofNat 8 d.1 ∧ d.char ≠ colon ∧ d.char ≠ 0x78 := by
  revert d
  decide +kernel

theorem or_pairByte (p : Digit × Digit) :
    hex2bin p.2.char ||| hex2bin p.1.char <<< 4 = pairByte p := by
  have hall : ∀ high low : Fin 16,
      BitVec.ofNat 8 low ||| BitVec.ofNat 8 high <<< 4 = BitVec.ofNat 8 (high * 16 + low) := by
    decide +kernel
  rw [(char_spec _).1, (char_spec _).1, pairByte]
  exact hall _ _

/-- The two digits of a byte -/
def byteDigits (uppercase : Bool) (b : U8) : Digit × Digit :=
  ((Fin.ofNat 16 (b.toNat / 16), uppercase), (Fin.ofNat 16 b.toNat, uppercase))

theorem byteDigits_spec (uppercase : Bool) (b : U8) : hexPair (hexdig uppercase) b =
    [(byteDigits uppercase b).1.char, (byteDigits uppercase b).2.char] ∧
      pairByte (byteDigits uppercase b) = b := by
  revert b
  revert uppercase
  decide +kernel

theorem hexPair_eq (uppercase : Bool) (b : U8) : hexPair (hexdig uppercase) b =
    [(byteDigits uppercase b).1.char, (byteDigits uppercase b).2.char] :=
  (byteDigits_spec uppercase b).1

theorem pairByte_byteDigits (uppercase : Bool) (b : U8) : pairByte (byteDigits uppercase b) = b :=
  (byteDigits_spec uppercase b).2

/-! ## Writing -/

/-- **The loop writes two digits for each byte.** -/
theorem hexLoop_eq (digits x done old rest : Chunk) (i : ℕ) (hi : done.length = i * 2)
    (hold : old.length = x.length * 2) :
    hexLoop digits x i (done ++ old ++ rest) =
      some (done ++ x.flatMap (hexPair digits) ++ rest) := by
  induction x generalizing done old i with
  | nil =>
    rw [List.length_eq_zero_iff.mp hold]
    rfl
  | cons b x ih =>
    rw [List.length_cons] at hold
    have htake : (old.take 2).length = (hexPair digits b).length := by
      rw [List.length_take, hexPair, List.length_cons, List.length_cons, List.length_nil]
      omega
    have hdrop : (old.drop 2).length = x.length * 2 := by
      rw [List.length_drop]
      omega
    have hstep := ih (done ++ hexPair digits b) (old.drop 2) (i + 1)
      (by rw [List.length_append, hi, hexPair]; simp; omega) hdrop
    rw [hexLoop, ← hi, ← List.take_append_drop 2 old, ← List.append_assoc, List.append_assoc,
      stores_append done _ (old.take 2) _ htake, ← List.append_assoc]
    simpa using hstep

/-- **A chunk is written as the pairs of its bytes.** -/
theorem chunkToHex_eq {x : Chunk} (h : x.length < 2 ^ 30) (uppercase : Bool) :
    chunkToHex x uppercase = some (x.flatMap (hexPair (hexdig uppercase))) := by
  have hlength : (x.flatMap (hexPair (hexdig uppercase))).length = x.length * 2 := by
    simp [List.length_flatMap, hexPair]
  have hlen : sizeToInt (x.length * 2) = (x.length * 2 : ℕ) := sizeToInt_of_lt (by omega)
  have hmalloc := malloc_natCast (x.length * 2 + 1)
  have hstore := store_append (List.replicate (x.length * 2) 0) 0 [] 0
  have hloop := hexLoop_eq (hexdig uppercase) x [] (List.replicate (x.length * 2) 0) [0] 0 rfl
    List.length_replicate
  rw [Nat.cast_add, Nat.cast_one, List.replicate_succ'] at hmalloc
  rw [List.length_replicate] at hstore
  rw [List.nil_append, List.nil_append] at hloop
  simp only [chunkToHex, hlen, hmalloc, Option.bind_eq_bind, Option.bind_some, hstore]
  rw [← hexdig, hloop, Option.bind_some, Int.toNat_natCast, ← hlength, List.take_left]

example : chunkToHex [0x0a, 0x1b] true = some [0x30, 0x41, 0x31, 0x42] := by decide +kernel

/-! ## Reading -/

theorem skipPrefix_prefix (text : Chunk) : skipPrefix (hexPrefix ++ text) = text := by
  rw [skipPrefix, if_pos (by simp [hexPrefix])]
  rfl

theorem skipPrefix_of_forall {text : Chunk} (h : ∀ c ∈ text, c ≠ 0x78) : skipPrefix text = text := by
  rw [skipPrefix, if_neg]
  rintro ⟨-, hx, -⟩
  exact h _ (List.mem_of_getElem? hx) rfl

theorem subtractColons_eq {text : Chunk} {i : ℕ} (h : i + text.length < 2 ^ 31) (len : ℤ) :
    subtractColons text i len = some (len - text.count colon) := by
  induction text generalizing i len with
  | nil => simp [subtractColons]
  | cons c text ih =>
    rw [List.length_cons] at h
    rw [subtractColons, if_pos (by omega), ih (by omega), List.count_cons]
    by_cases hc : c = colon
    · simp [hc]
      omega
    · simp [hc]

theorem subtractColons_long {text : Chunk} {i : ℕ} (hi : i < 2 ^ 31)
    (h : 2 ^ 31 ≤ i + text.length) (len : ℤ) : subtractColons text i len = none := by
  induction text generalizing i len with
  | nil => exact absurd h (by simpa using hi)
  | cons c text ih =>
    rw [List.length_cons] at h
    rw [subtractColons]
    by_cases hnext : i + 1 < 2 ^ 31
    · rw [if_pos hnext]
      exact ih hnext (by omega) _
    · rw [if_neg hnext]

theorem fromHexLoop_colon {c : U8} (hc : c ≠ colon) (odd : Bool) (i : ℕ) (before buf : Chunk) :
    fromHexLoop odd (i + 1) (colon :: c :: before) buf = fromHexLoop odd (i + 1) (c :: before) buf := by
  simp only [fromHexLoop, lowDigit, if_true, if_neg hc]

theorem fromHexLoop_pair {odd : Bool} {i : ℕ} (h : i > 0 ∨ odd = false) (p : Digit × Digit)
    (before done : Chunk) :
    fromHexLoop odd (i + 1) (p.2.char :: p.1.char :: before) (List.replicate (i + 1) 0 ++ done) =
      fromHexLoop odd i before (List.replicate i 0 ++ pairByte p :: done) := by
  have hstore := store_append (List.replicate i 0) 0 done (pairByte p)
  rw [List.length_replicate] at hstore
  rw [fromHexLoop, lowDigit, if_neg (char_spec p.2).2.1, List.replicate_succ', List.append_assoc,
    List.singleton_append]
  simp only [if_pos h, or_pairByte, hstore]

theorem head_groupText (separated : Bool) {first : List Digit} (h : first ≠ [])
    (pairs : List (Digit × Digit)) : ∃ d before,
      (groupText separated pairs).reverse ++ (first.map Digit.char).reverse = Digit.char d :: before := by
  induction pairs using List.reverseRecOn with
  | nil =>
    obtain ⟨front, d, rfl⟩ := (List.eq_nil_or_concat first).resolve_left h
    exact ⟨d, (front.map Digit.char).reverse, by simp [groupText]⟩
  | append_singleton pairs p _ =>
    refine ⟨p.2, p.1.char :: (separator separated).reverse ++ (groupText separated pairs).reverse ++
      (first.map Digit.char).reverse, ?_⟩
    simp [groupText]

/-- **Pairs are read from the right**, up to the digits before them. -/
theorem fromHexLoop_groups (odd separated : Bool) {first : List Digit} (h : first ≠ [])
    (pairs : List (Digit × Digit)) (done : Chunk) :
    fromHexLoop odd (pairs.length + 1)
      ((groupText separated pairs).reverse ++ (first.map Digit.char).reverse)
      (List.replicate (pairs.length + 1) 0 ++ done) =
    fromHexLoop odd 1 (first.map Digit.char).reverse (0 :: pairs.map pairByte ++ done) := by
  induction pairs using List.reverseRecOn generalizing done with
  | nil => rfl
  | append_singleton pairs p ih =>
    obtain ⟨d, before, hhead⟩ := head_groupText separated h pairs
    have hskip : fromHexLoop odd (pairs.length + 1) ((separator separated).reverse ++
        ((groupText separated pairs).reverse ++ (first.map Digit.char).reverse))
        (List.replicate (pairs.length + 1) 0 ++ pairByte p :: done) =
        fromHexLoop odd (pairs.length + 1)
          ((groupText separated pairs).reverse ++ (first.map Digit.char).reverse)
          (List.replicate (pairs.length + 1) 0 ++ pairByte p :: done) := by
      cases separated with
      | false => rfl
      | true =>
        rw [hhead]
        exact fromHexLoop_colon (char_spec d).2.1 _ _ _ _
    have htext : (groupText separated (pairs ++ [p])).reverse ++ (first.map Digit.char).reverse =
        p.2.char :: p.1.char :: ((separator separated).reverse ++
          ((groupText separated pairs).reverse ++ (first.map Digit.char).reverse)) := by
      simp [groupText]
    rw [htext, List.length_append, List.length_singleton,
      fromHexLoop_pair (Or.inl (Nat.succ_pos _)), hskip, ih]
    simp

/-! ## Whole texts -/

theorem forall_mem_text (separated : Bool) (first : List Digit) (pairs : List (Digit × Digit)) :
    ∀ c ∈ first.map Digit.char ++ groupText separated pairs, c ≠ 0x78 := by
  intro c hc
  rw [List.mem_append, List.mem_map, groupText, List.mem_flatMap] at hc
  obtain ⟨d, -, rfl⟩ | ⟨p, -, hp⟩ := hc
  · exact (char_spec d).2.2
  rw [List.mem_append, List.mem_cons, List.mem_singleton] at hp
  obtain hsep | rfl | rfl := hp
  · cases separated with
    | false => cases hsep
    | true =>
      rw [List.mem_singleton.mp hsep]
      decide
  · exact (char_spec _).2.2
  · exact (char_spec _).2.2

theorem length_groupText (separated : Bool) (pairs : List (Digit × Digit)) :
    (groupText separated pairs).length = pairs.length * 2 + (groupText separated pairs).count colon := by
  induction pairs with
  | nil => rfl
  | cons p pairs ih =>
    have hcons : groupText separated (p :: pairs) =
        separator separated ++ [p.1.char, p.2.char] ++ groupText separated pairs := rfl
    have hsep : (separator separated).length = (separator separated).count colon := by
      cases separated <;> rfl
    rw [hcons, List.length_append, List.length_append, List.count_append, List.count_append,
      List.count_cons_of_ne (char_spec p.1).2.1, List.count_cons_of_ne (char_spec p.2).2.1, hsep, ih,
      List.length_cons]
    simp
    omega

theorem count_first (first : List Digit) : (first.map Digit.char).count colon = 0 := by
  rw [List.count_eq_zero]
  intro hmem
  obtain ⟨d, -, hd⟩ := List.mem_map.mp hmem
  exact (char_spec d).2.1 hd

/-- The text with its optional prefix -/
def prefixed (withPrefix : Bool) (text : Chunk) : Chunk :=
  if withPrefix then hexPrefix ++ text else text

theorem skipPrefix_prefixed (withPrefix separated : Bool) (first : List Digit)
    (pairs : List (Digit × Digit)) :
    skipPrefix (prefixed withPrefix (first.map Digit.char ++ groupText separated pairs)) =
      first.map Digit.char ++ groupText separated pairs := by
  cases withPrefix with
  | false => exact skipPrefix_of_forall (forall_mem_text separated first pairs)
  | true => exact skipPrefix_prefix _

theorem subtractColons_text (separated : Bool) (first : List Digit) (pairs : List (Digit × Digit))
    (h : (first.map Digit.char ++ groupText separated pairs).length < 2 ^ 31) :
    subtractColons (first.map Digit.char ++ groupText separated pairs) 0
        (sizeToInt (first.map Digit.char ++ groupText separated pairs).length) =
      some ((first.length + pairs.length * 2 : ℕ) : ℤ) := by
  have hlength := length_groupText separated pairs
  rw [subtractColons_eq (by omega), sizeToInt_of_lt h, List.count_append, count_first,
    List.length_append, List.length_map, hlength, Option.some.injEq]
  omega

/-- **An even number of digits is read as the bytes of its pairs.** -/
theorem chunkFromHex_even (withPrefix separated : Bool) (p : Digit × Digit)
    (pairs : List (Digit × Digit))
    (h : ([p.1, p.2].map Digit.char ++ groupText separated pairs).length < 2 ^ 31) :
    chunkFromHex (prefixed withPrefix ([p.1, p.2].map Digit.char ++ groupText separated pairs)) =
      some (pairByte p :: pairs.map pairByte) := by
  have hcount := subtractColons_text separated [p.1, p.2] pairs h
  have hlen : (([p.1, p.2].length + pairs.length * 2 : ℕ) : ℤ).tdiv 2 = (pairs.length + 1 : ℕ) := by
    rw [Int.tdiv_eq_ediv_of_nonneg (by positivity), List.length_cons, List.length_singleton]
    omega
  have hodd : decide ((([p.1, p.2].length + pairs.length * 2 : ℕ) : ℤ).tmod 2 ≠ 0) = false := by
    rw [decide_eq_false_iff_not, Int.tmod_eq_emod_of_nonneg (by positivity), List.length_cons,
      List.length_singleton]
    omega
  have hgroups := fromHexLoop_groups false separated (List.cons_ne_nil p.1 [p.2]) pairs []
  have hlast := fromHexLoop_pair (Or.inr rfl : 0 > 0 ∨ false = false) p [] (pairs.map pairByte)
  rw [List.append_nil] at hgroups
  simp only [chunkFromHex, skipPrefix_prefixed, hcount, Option.bind_eq_bind, Option.bind_some]
  rw [hodd, if_neg Bool.false_ne_true, hlen, malloc_natCast, Option.bind_some,
    Int.toNat_natCast, List.reverse_append, hgroups, List.append_nil]
  exact hlast

/-- **An odd number of digits is read as a digit of its own and the bytes of its pairs.** -/
theorem chunkFromHex_odd (withPrefix separated : Bool) (d : Digit) (pairs : List (Digit × Digit))
    (h : ([d].map Digit.char ++ groupText separated pairs).length < 2 ^ 31)
    (hmax : pairs.length * 2 + 2 < 2 ^ 31) :
    chunkFromHex (prefixed withPrefix ([d].map Digit.char ++ groupText separated pairs)) =
      some (BitVec.ofNat 8 d.1 :: pairs.map pairByte) := by
  have hcount := subtractColons_text separated [d] pairs h
  have hlen : (((1 + pairs.length * 2 : ℕ) : ℤ) + 1).tdiv 2 = (pairs.length + 1 : ℕ) := by
    rw [Int.tdiv_eq_ediv_of_nonneg (by positivity)]
    omega
  have hfits : intResult (((1 + pairs.length * 2 : ℕ) : ℤ) + 1) =
      some (((1 + pairs.length * 2 : ℕ) : ℤ) + 1) := intResult_eq_some.mpr ⟨by omega, rfl⟩
  have hodd : decide ((((1 + pairs.length * 2 : ℕ) : ℤ)).tmod 2 ≠ 0) = true := by
    rw [decide_eq_true_eq, Int.tmod_eq_emod_of_nonneg (by positivity)]
    omega
  have hgroups := fromHexLoop_groups true separated (List.cons_ne_nil d []) pairs []
  have hstore := store_append [] 0 (pairs.map pairByte) (BitVec.ofNat 8 d.1)
  rw [List.append_nil] at hgroups
  simp only [chunkFromHex, skipPrefix_prefixed, hcount, Option.bind_eq_bind, Option.bind_some]
  rw [List.length_singleton, hodd, if_pos rfl, hfits, Option.bind_some, hlen, malloc_natCast,
    Option.bind_some, Int.toNat_natCast, List.reverse_append, hgroups, List.map_singleton,
    List.reverse_singleton, fromHexLoop, lowDigit, if_neg (char_spec d).2.1, (char_spec d).1, List.append_nil]
  simp only [List.nil_append, List.length_nil] at hstore
  simp only [gt_iff_lt, lt_self_iff_false, reduceCtorEq, or_self, if_false, hstore, fromHexLoop]

theorem chunkFromHex_long (withPrefix separated : Bool) (first : List Digit)
    (pairs : List (Digit × Digit))
    (h : 2 ^ 31 ≤ (first.map Digit.char ++ groupText separated pairs).length) :
    chunkFromHex (prefixed withPrefix (first.map Digit.char ++ groupText separated pairs)) = none := by
  rw [← Nat.zero_add (_ : Chunk).length] at h
  simp only [chunkFromHex, skipPrefix_prefixed, Option.bind_eq_bind,
    subtractColons_long (show 0 < 2 ^ 31 by norm_num) h, Option.bind_none]

/-- The greatest odd number of digits an `int` holds is not made even. -/
theorem chunkFromHex_odd_max (withPrefix separated : Bool) (d : Digit)
    (pairs : List (Digit × Digit))
    (h : ([d].map Digit.char ++ groupText separated pairs).length < 2 ^ 31)
    (hmax : 2 ^ 31 ≤ pairs.length * 2 + 2) :
    chunkFromHex (prefixed withPrefix ([d].map Digit.char ++ groupText separated pairs)) = none := by
  have hcount := subtractColons_text separated [d] pairs h
  have hfits : intResult (((1 + pairs.length * 2 : ℕ) : ℤ) + 1) = none := by
    rw [intResult, if_neg (by omega)]
  have hodd : decide ((((1 + pairs.length * 2 : ℕ) : ℤ)).tmod 2 ≠ 0) = true := by
    rw [decide_eq_true_eq, Int.tmod_eq_emod_of_nonneg (by positivity)]
    omega
  simp only [chunkFromHex, skipPrefix_prefixed, hcount, Option.bind_eq_bind, Option.bind_some]
  rw [List.length_singleton, hodd, if_pos rfl, hfits, Option.bind_none]

end StrongSwan
