import StrongSwan.Utils.Chunk.Base64
import StrongSwan.Utils.Chunk.Hex

/-!
# Text that is read back

* `Inverts`: a chunk is read back from its texts; `ReadsOdd`: an odd number of digits is read as their
  value.
* **`inverts_and_readsOdd_iff`**: both hold unless an `int` on the way overflows.
-/

namespace StrongSwan

/-- A chunk is read back from base 64 and from hexadecimal digits, in either case, with or without the
prefix, and with or without a separation character between the bytes. -/
structure Inverts (x : Chunk) : Prop where
  base64 : (chunkToBase64 x).bind chunkFromBase64 = some x
  hex : ∀ uppercase withPrefix,
    (chunkToHex x uppercase).bind (fun text => chunkFromHex (prefixed withPrefix text)) = some x
  separated : ∀ uppercase withPrefix, chunkFromHex (prefixed withPrefix
    (List.intercalate [colon] (x.map (hexPair (hexdig uppercase))))) = some x

def oddDigits (d : Digit) (pairs : List (Digit × Digit)) : List Digit :=
  d :: pairs.flatMap fun p => [p.1, p.2]

/-- The big-endian value of an odd number of digits is read, with a leading zero nibble. -/
def ReadsOdd (withPrefix separated : Bool) (d : Digit) (pairs : List (Digit × Digit)) : Prop :=
  chunkFromHex (prefixed withPrefix (d.char :: groupText separated pairs)) =
    some (Bytes.ofNat (pairs.length + 1)
      (Numeral.value 16 0 ((oddDigits d pairs).map fun digit => digit.1)))

/-! ## Hexadecimal digits -/

theorem intercalate_hexPair (uppercase : Bool) (b : U8) (x : Chunk) :
    List.intercalate [colon] ((b :: x).map (hexPair (hexdig uppercase))) =
      [(byteDigits uppercase b).1, (byteDigits uppercase b).2].map Digit.char ++
        groupText true (x.map (byteDigits uppercase)) := by
  induction x generalizing b with
  | nil =>
    rw [List.map_singleton, hexPair_eq]
    rfl
  | cons c x ih =>
    have htail := ih c
    rw [List.map_cons] at htail
    rw [List.map_cons, List.map_cons, List.intercalate_cons_cons, htail, hexPair_eq]
    rfl

theorem flatMap_hexPair (uppercase : Bool) (b : U8) (x : Chunk) :
    (b :: x).flatMap (hexPair (hexdig uppercase)) =
      [(byteDigits uppercase b).1, (byteDigits uppercase b).2].map Digit.char ++
        groupText false (x.map (byteDigits uppercase)) := by
  rw [List.flatMap_cons, hexPair_eq, groupText, List.flatMap_map]
  congr 1
  exact List.flatMap_congr fun c _ => hexPair_eq uppercase c

theorem map_pairByte (uppercase : Bool) (x : Chunk) :
    (x.map (byteDigits uppercase)).map pairByte = x := by
  rw [List.map_map]
  exact (List.map_congr_left fun b _ => pairByte_byteDigits uppercase b).trans x.map_id

theorem chunkFromHex_nil (withPrefix : Bool) : chunkFromHex (prefixed withPrefix []) = some [] := by
  cases withPrefix <;> decide +kernel

/-- **The digits of a chunk are read back**, if its text is no longer than an `int`. -/
theorem chunkFromHex_digits (uppercase withPrefix separated : Bool) (b : U8) (x : Chunk)
    (h : x.length < 2 ^ 29) :
    chunkFromHex (prefixed withPrefix
      ([(byteDigits uppercase b).1, (byteDigits uppercase b).2].map Digit.char ++
        groupText separated (x.map (byteDigits uppercase)))) = some (b :: x) := by
  have hcount : (groupText separated (x.map (byteDigits uppercase))).length ≤ x.length * 3 := by
    cases separated with
    | false =>
      simp [groupText, List.length_flatMap, separator, Function.comp_def]
      omega
    | true => simp [groupText, List.length_flatMap, separator, Function.comp_def]
  rw [chunkFromHex_even, pairByte_byteDigits, map_pairByte]
  rw [List.length_append]
  simp
  omega

/-- **An `int` is enough for the texts of a chunk exactly up to this length.** -/
theorem inverts_iff_length (x : Chunk) : Inverts x ↔ x.length ≤ 536870910 := by
  constructor
  · intro h
    exact length_of_base64 h.base64
  · intro h
    refine ⟨base64_of_length h, fun uppercase withPrefix => ?_, fun uppercase withPrefix => ?_⟩
    · rw [chunkToHex_eq (by omega), Option.bind_some]
      cases x with
      | nil => exact chunkFromHex_nil withPrefix
      | cons b x =>
        rw [flatMap_hexPair]
        exact chunkFromHex_digits uppercase withPrefix false b x (by simp at h; omega)
    · cases x with
      | nil => exact chunkFromHex_nil withPrefix
      | cons b x =>
        rw [intercalate_hexPair]
        exact chunkFromHex_digits uppercase withPrefix true b x (by simp at h; omega)

/-! ## An odd number of digits -/

theorem value_oddDigits (d : Digit) (pairs : List (Digit × Digit)) :
    Bytes.value (BitVec.ofNat 8 d.1 :: pairs.map pairByte) =
      Numeral.value 16 0 ((oddDigits d pairs).map fun digit => digit.1) := by
  induction pairs using List.reverseRecOn with
  | nil =>
    have hd := d.1.isLt
    rw [List.map_nil, Bytes.value_cons, BitVec.toNat_ofNat, Nat.mod_eq_of_lt (by omega)]
    simp [oddDigits, Numeral.value]
  | append_singleton pairs p ih =>
    have hhigh := p.1.1.isLt
    have hlow := p.2.1.isLt
    have hdigits : oddDigits d (pairs ++ [p]) = oddDigits d pairs ++ [p.1, p.2] := by
      simp [oddDigits]
    rw [List.map_append, List.map_singleton, ← List.cons_append, Bytes.value_snoc, ih, hdigits,
      List.map_append, Numeral.value_append, pairByte, BitVec.toNat_ofNat,
      Nat.mod_eq_of_lt (by omega)]
    simp only [List.map_cons, List.map_nil, Numeral.value, List.foldl_cons, List.foldl_nil]
    ring

theorem readsOdd_iff_length (withPrefix separated : Bool) (d : Digit)
    (pairs : List (Digit × Digit)) :
    ReadsOdd withPrefix separated d pairs ↔
      (d.char :: groupText separated pairs).length < 2 ^ 31 ∧ pairs.length * 2 + 2 < 2 ^ 31 := by
  have htext : d.char :: groupText separated pairs = [d].map Digit.char ++ groupText separated pairs :=
    rfl
  rw [ReadsOdd, htext]
  constructor
  · intro h
    by_contra hfits
    by_cases hlong : ([d].map Digit.char ++ groupText separated pairs).length < 2 ^ 31
    · rw [chunkFromHex_odd_max _ _ _ _ hlong (by omega)] at h
      cases h
    · rw [chunkFromHex_long _ _ _ _ (by omega)] at h
      cases h
  · rintro ⟨hlong, hmax⟩
    have hbytes := Bytes.ofNat_value (BitVec.ofNat 8 d.1 :: pairs.map pairByte)
    rw [value_oddDigits, List.length_cons, List.length_map] at hbytes
    rw [chunkFromHex_odd _ _ _ _ hlong hmax, hbytes]

/-! ## All texts -/

/-- **Texts are read back as what they stand for** exactly if no length overflows an `int`: of a chunk,
that of its text in base 64; of an odd number of digits, that of their text, and the number with the
leading zero. -/
theorem inverts_and_readsOdd_iff (x : Chunk) (withPrefix separated : Bool) (d : Digit)
    (pairs : List (Digit × Digit)) :
    (Inverts x ↔ x.length ≤ 536870910) ∧ (ReadsOdd withPrefix separated d pairs ↔
      (d.char :: groupText separated pairs).length < 2 ^ 31 ∧ pairs.length * 2 + 2 < 2 ^ 31) :=
  ⟨inverts_iff_length x, readsOdd_iff_length withPrefix separated d pairs⟩

/-- The text of 536870911 bytes overflows. -/
theorem not_inverts_replicate :
    ¬ ((∀ x, Inverts x) ∧
      ∀ withPrefix separated d pairs, ReadsOdd withPrefix separated d pairs) := by
  intro h
  have hlength := (inverts_iff_length _).mp (h.1 (List.replicate 536870911 0))
  rw [List.length_replicate] at hlength
  omega

end StrongSwan
