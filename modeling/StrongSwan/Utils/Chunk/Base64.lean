import StrongSwan.Utils.Chunk

/-!
# Base 64

* `base64Text`: the text of a chunk.
* **`chunkToBase64_eq`**, **`chunkFromBase64_base64Text`**: it is written and read back.
* `length_of_base64`: a chunk that is read back is not too long for the `int`s on the way.
-/

namespace StrongSwan

/-- The length of a chunk with its padding -/
def paddedLength (n : ℕ) : ℕ := n + (3 - n % 3) % 3

/-- The characters a chunk is written as -/
def base64Text : Chunk → Chunk
  | [] => []
  | [a] => [b64digit (a >>> 2), b64digit ((a &&& 0x03) <<< 4), equalsSign, equalsSign]
  | [a, b] =>
    [b64digit (a >>> 2), b64digit ((a &&& 0x03) <<< 4 ||| b >>> 4), b64digit ((b &&& 0x0F) <<< 2),
      equalsSign]
  | a :: b :: c :: rest =>
    [b64digit (a >>> 2), b64digit ((a &&& 0x03) <<< 4 ||| b >>> 4),
      b64digit ((b &&& 0x0F) <<< 2 ||| c >>> 6), b64digit (c &&& 0x3F)] ++ base64Text rest

theorem length_base64Text (x : Chunk) : (base64Text x).length * 3 = paddedLength x.length * 4 := by
  unfold paddedLength
  fun_induction base64Text x with
  | case1 => rfl
  | case2 => rfl
  | case3 => rfl
  | case4 a b c rest ih =>
    simp only [List.length_append, List.length_cons, List.length_nil]
    omega

/-! ## Digits -/

theorem b64digit_spec {i : U8} (h : i < 64) :
    b642bin (b64digit i) = i ∧ b64digit i ≠ equalsSign := by
  revert i
  decide +kernel

/-! ## Writing -/

theorem paddedLength_pos (x : Chunk) (h : x ≠ []) : 0 < paddedLength x.length := by
  have hpos := List.length_pos_iff.mpr h
  unfold paddedLength
  omega

/-- **The loop writes the text behind what is there.** -/
theorem base64Loop_eq (x done old rest : Chunk) (i : ℕ) (len : ℤ)
    (hlen : len = i + paddedLength x.length) (hold : old.length = (base64Text x).length) :
    base64Loop len i done.length x (done ++ old ++ rest) =
      some (done ++ base64Text x ++ rest, done.length + (base64Text x).length) := by
  induction x using base64Text.induct generalizing done old i with
  | case1 =>
    rw [base64Loop, if_pos (by rw [hlen]; simp [paddedLength]), List.length_eq_zero_iff.mp hold]
    rfl
  | case2 a =>
    rw [base64Loop, if_neg (by rw [hlen]; simp [paddedLength]), stores_append _ [_, _, _, _] _ _ hold]
    rfl
  | case3 a b =>
    rw [base64Loop, if_neg (by rw [hlen]; simp [paddedLength]), stores_append _ [_, _, _, _] _ _ hold]
    rfl
  | case4 a b c x ih =>
    have hpos := paddedLength_pos (a :: b :: c :: x) (by simp)
    rw [base64Text, List.length_append] at hold
    have hsplit := List.take_append_drop 4 old
    have htake : (old.take 4).length = 4 := by rw [List.length_take]; simp at hold; omega
    have hdrop : (old.drop 4).length = (base64Text x).length := by
      rw [List.length_drop]; simp at hold; omega
    rw [base64Loop, if_neg (by rw [hlen]; omega), ← hsplit, ← List.append_assoc,
      List.append_assoc, stores_append done _ (old.take 4) _ (htake.trans rfl), ← List.append_assoc]
    have hstep := ih (done ++ [b64digit (a >>> 2), b64digit ((a &&& 0x03) <<< 4 ||| b >>> 4),
      b64digit ((b &&& 0x0F) <<< 2 ||| c >>> 6), b64digit (c &&& 0x3F)]) (old.drop 4) (i + 3)
      (by rw [hlen]; simp only [paddedLength, List.length_cons]; omega) hdrop
    rw [List.length_append] at hstep
    rw [base64Text, List.length_append, ← Nat.add_assoc, ← List.append_assoc done]
    exact hstep

/-- **A chunk is written as its text**, unless the length does not fit. -/
theorem chunkToBase64_eq {x : Chunk} (h : paddedLength x.length < 2 ^ 29) :
    chunkToBase64 x = some (base64Text x) := by
  have hlength := length_base64Text x
  have hlen : sizeToInt (x.length + (3 - x.length % 3) % 3) = (paddedLength x.length : ℕ) :=
    sizeToInt_of_lt (lt_trans h (by norm_num))
  have hquads : intResult ((paddedLength x.length : ℕ) * 4) =
      some (((base64Text x).length : ℤ) * 3) := intResult_eq_some.mpr (by omega)
  have hsize : (((base64Text x).length : ℤ) * 3).tdiv 3 = (base64Text x).length := by
    rw [Int.mul_tdiv_cancel _ (by norm_num)]
  have hmalloc := malloc_natCast ((base64Text x).length + 1)
  have hloop := base64Loop_eq x [] (List.replicate (base64Text x).length 0) [0] 0
    (paddedLength x.length : ℕ) (by simp) List.length_replicate
  have hstore := store_append (base64Text x) 0 [] 0
  rw [Nat.cast_add, Nat.cast_one] at hmalloc
  simp only [List.nil_append, List.length_nil, Nat.zero_add] at hloop
  simp only [chunkToBase64, hlen, hquads, Option.bind_eq_bind, Option.bind_some, hsize, hmalloc,
    List.replicate_succ', hloop, hstore]
  simp

/-- "fooba" -/
example : chunkToBase64 [0x66, 0x6f, 0x6f, 0x62, 0x61] =
    some [0x5a, 0x6d, 0x39, 0x76, 0x59, 0x6d, 0x45, 0x3d] := by decide +kernel

/-! ## Reading -/

theorem sextet_lt (a : U8) : a >>> 2 < 64 ∧ (a &&& 0x03) <<< 4 < 64 ∧ a >>> 4 < 64 ∧
    (a &&& 0x0F) <<< 2 < 64 ∧ a >>> 6 < 64 ∧ a &&& 0x3F < 64 := by
  revert a
  decide +kernel

theorem or_lt {a b : U8} (ha : a < 64) (hb : b < 64) : a ||| b < 64 := by
  rw [BitVec.lt_def, BitVec.toNat_or]
  exact Nat.or_lt_two_pow (n := 6) (BitVec.lt_def.mp ha) (BitVec.lt_def.mp hb)

theorem sextet_high (a : U8) : a >>> 2 < 64 := (sextet_lt a).1

theorem sextet_middle (a b : U8) : (a &&& 0x03) <<< 4 ||| b >>> 4 < 64 :=
  or_lt (sextet_lt a).2.1 (sextet_lt b).2.2.1

theorem sextet_low (b c : U8) : (b &&& 0x0F) <<< 2 ||| c >>> 6 < 64 :=
  or_lt (sextet_lt b).2.2.2.1 (sextet_lt c).2.2.2.2.1

theorem sextet_last (c : U8) : c &&& 0x3F < 64 := (sextet_lt c).2.2.2.2.2

theorem sextets_first (a b : U8) :
    (a >>> 2) <<< 2 ||| ((a &&& 0x03) <<< 4 ||| b >>> 4) >>> 4 = a := by
  ext i hi
  have hcases : i = 0 ∨ i = 1 ∨ i = 2 ∨ i = 3 ∨ i = 4 ∨ i = 5 ∨ i = 6 ∨ i = 7 := by omega
  rcases hcases with rfl | rfl | rfl | rfl | rfl | rfl | rfl | rfl <;> simp

theorem sextets_second (a b c : U8) :
    ((a &&& 0x03) <<< 4 ||| b >>> 4) <<< 4 ||| ((b &&& 0x0F) <<< 2 ||| c >>> 6) >>> 2 = b := by
  ext i hi
  have hcases : i = 0 ∨ i = 1 ∨ i = 2 ∨ i = 3 ∨ i = 4 ∨ i = 5 ∨ i = 6 ∨ i = 7 := by omega
  rcases hcases with rfl | rfl | rfl | rfl | rfl | rfl | rfl | rfl <;> simp

theorem sextets_third (b c : U8) :
    ((b &&& 0x0F) <<< 2 ||| c >>> 6) <<< 6 ||| c &&& 0x3F = c := by
  ext i hi
  have hcases : i = 0 ∨ i = 1 ∨ i = 2 ∨ i = 3 ∨ i = 4 ∨ i = 5 ∨ i = 6 ∨ i = 7 := by omega
  rcases hcases with rfl | rfl | rfl | rfl | rfl | rfl | rfl | rfl <;> simp

theorem sextets_one (a : U8) : (a >>> 2) <<< 2 ||| ((a &&& 0x03) <<< 4) >>> 4 = a := by
  simpa using sextets_first a 0

theorem sextets_two (a b : U8) :
    ((a &&& 0x03) <<< 4 ||| b >>> 4) <<< 4 ||| ((b &&& 0x0F) <<< 2) >>> 2 = b := by
  ext i hi
  have hcases : i = 0 ∨ i = 1 ∨ i = 2 ∨ i = 3 ∨ i = 4 ∨ i = 5 ∨ i = 6 ∨ i = 7 := by omega
  rcases hcases with rfl | rfl | rfl | rfl | rfl | rfl | rfl | rfl <;> simp

theorem shorten_of_ne {outlen : ℕ} {c : U8} (h : c ≠ equalsSign) : shorten outlen c = outlen := by
  rw [shorten, if_neg (fun hc => h hc.1)]

theorem shorten_equalsSign (outlen : ℕ) : shorten (outlen + 1) equalsSign = outlen := by
  rw [shorten, if_pos ⟨rfl, outlen.succ_pos⟩, Nat.add_sub_cancel]

theorem fromBase64Loop_end {len : ℤ} {i : ℕ} (h : len = i) (outlen : ℕ) (rest buf : Chunk) :
    fromBase64Loop len i outlen rest buf = some (buf, outlen) := by
  rw [fromBase64Loop.eq_def, if_pos (by omega)]

theorem fromBase64Loop_quad (len : ℤ) (done old : Chunk) (h : (done.length : ℤ) < len)
    (hold : old.length = 3) (outlen : ℕ) (c₀ c₁ c₂ c₃ : U8) (rest back : Chunk) {out : Chunk}
    (hout : out = [b642bin c₀ <<< 2 ||| b642bin c₁ >>> 4, b642bin c₁ <<< 4 ||| b642bin c₂ >>> 2,
      b642bin c₂ <<< 6 ||| b642bin c₃]) :
    fromBase64Loop len done.length outlen (c₀ :: c₁ :: c₂ :: c₃ :: rest) (done ++ old ++ back) =
      fromBase64Loop len (done.length + 3) ([c₀, c₁, c₂, c₃].foldl shorten (outlen + 3)) rest
        (done ++ out ++ back) := by
  have hlength : old.length = out.length := by rw [hold, hout]; rfl
  rw [fromBase64Loop, if_neg (by omega)]
  simp only [← hout, stores_append _ _ _ _ hlength]

/-- **The loop reads the text back**, behind the bytes that are there; what is read for the padding is
left at the end. -/
theorem fromBase64Loop_eq (x done old : Chunk) (len : ℤ)
    (hlen : len = done.length + paddedLength x.length) (hold : old.length = paddedLength x.length) :
    ∃ rest, fromBase64Loop len done.length done.length (base64Text x) (done ++ old) =
      some (done ++ x ++ rest, done.length + x.length) := by
  induction x using base64Text.induct generalizing done old with
  | case1 =>
    rw [fromBase64Loop_end (by rw [hlen]; simp [paddedLength]), List.length_eq_zero_iff.mp hold]
    exact ⟨[], by simp⟩
  | case2 a =>
    have hmiddle := (sextet_lt a).2.1
    have hquad := fromBase64Loop_quad len done old
      (by rw [hlen]; simp [paddedLength]) (by simpa [paddedLength] using hold) done.length
      (b64digit (a >>> 2)) (b64digit ((a &&& 0x03) <<< 4)) equalsSign equalsSign [] [] rfl
    rw [(b64digit_spec (sextet_high a)).1, (b64digit_spec hmiddle).1, sextets_one, List.append_nil,
      List.append_nil] at hquad
    rw [base64Text, hquad, fromBase64Loop_end (by rw [hlen]; simp [paddedLength])]
    simp only [List.foldl_cons, List.foldl_nil, shorten_of_ne (b64digit_spec (sextet_high a)).2,
      shorten_of_ne (b64digit_spec hmiddle).2, shorten_equalsSign]
    exact ⟨_, by rw [List.append_assoc]; rfl⟩
  | case3 a b =>
    have hlow := (sextet_lt b).2.2.2.1
    have hquad := fromBase64Loop_quad len done old
      (by rw [hlen]; simp [paddedLength]) (by simpa [paddedLength] using hold) done.length
      (b64digit (a >>> 2)) (b64digit ((a &&& 0x03) <<< 4 ||| b >>> 4))
      (b64digit ((b &&& 0x0F) <<< 2)) equalsSign [] [] rfl
    rw [(b64digit_spec (sextet_high a)).1, (b64digit_spec (sextet_middle a b)).1,
      (b64digit_spec hlow).1, sextets_first, sextets_two, List.append_nil, List.append_nil] at hquad
    rw [base64Text, hquad, fromBase64Loop_end (by rw [hlen]; simp [paddedLength])]
    simp only [List.foldl_cons, List.foldl_nil, shorten_of_ne (b64digit_spec (sextet_high a)).2,
      shorten_of_ne (b64digit_spec (sextet_middle a b)).2, shorten_of_ne (b64digit_spec hlow).2,
      shorten_equalsSign]
    exact ⟨_, by rw [List.append_assoc]; rfl⟩
  | case4 a b c x ih =>
    have hpadded : paddedLength (a :: b :: c :: x).length = paddedLength x.length + 3 := by
      simp only [paddedLength, List.length_cons]
      omega
    rw [hpadded] at hlen hold
    have htake : (old.take 3).length = 3 := by rw [List.length_take]; omega
    have hdrop : (old.drop 3).length = paddedLength x.length := by rw [List.length_drop]; omega
    have hquad := fromBase64Loop_quad len done (old.take 3)
      (by rw [hlen]; omega) htake done.length
      (b64digit (a >>> 2)) (b64digit ((a &&& 0x03) <<< 4 ||| b >>> 4))
      (b64digit ((b &&& 0x0F) <<< 2 ||| c >>> 6)) (b64digit (c &&& 0x3F)) (base64Text x)
      (old.drop 3) rfl
    rw [(b64digit_spec (sextet_high a)).1, (b64digit_spec (sextet_middle a b)).1,
      (b64digit_spec (sextet_low b c)).1, (b64digit_spec (sextet_last c)).1, sextets_first,
      sextets_second, sextets_third, List.append_assoc, List.take_append_drop] at hquad
    simp only [List.foldl_cons, List.foldl_nil, shorten_of_ne (b64digit_spec (sextet_high a)).2,
      shorten_of_ne (b64digit_spec (sextet_middle a b)).2, shorten_of_ne (b64digit_spec (sextet_low b c)).2,
      shorten_of_ne (b64digit_spec (sextet_last c)).2] at hquad
    obtain ⟨rest, hrest⟩ := ih (done ++ [a, b, c]) (old.drop 3)
      (by rw [hlen, List.length_append]; push_cast; simp; omega) hdrop
    rw [List.length_append] at hrest
    refine ⟨rest, ?_⟩
    rw [base64Text, List.cons_append, List.cons_append, List.cons_append, List.cons_append,
      List.nil_append, hquad]
    refine hrest.trans ?_
    rw [List.append_assoc done]
    congr 2
    simp only [List.length_cons, List.length_nil]
    omega

/-- **The text of a chunk is read back.** -/
theorem chunkFromBase64_base64Text {x : Chunk} (h : paddedLength x.length < 2 ^ 31) :
    chunkFromBase64 (base64Text x) = some x := by
  have hlength := length_base64Text x
  have hquads : (base64Text x).length / 4 * 3 = paddedLength x.length := by omega
  obtain ⟨rest, hloop⟩ := fromBase64Loop_eq x [] (List.replicate (paddedLength x.length) 0)
    (paddedLength x.length : ℕ) (by simp) List.length_replicate
  simp only [List.nil_append, List.length_nil, Nat.zero_add] at hloop
  simp only [chunkFromBase64, hquads, sizeToInt_of_lt h, malloc_natCast, Option.bind_eq_bind,
    Option.bind_some, hloop, List.take_left']

/-! ## Lengths that do not fit -/

theorem length_chunkToBase64_le {x text : Chunk} (h : chunkToBase64 x = some text) :
    text.length ≤ 715827882 := by
  simp only [chunkToBase64, Option.bind_eq_bind, Option.bind_eq_some_iff] at h
  obtain ⟨quads, hquads, buf, -, out, -, buf', -, htake⟩ := h
  obtain ⟨⟨-, hhigh⟩, rfl⟩ := intResult_eq_some.mp hquads
  have hthird := Int.tdiv_le_tdiv (show (0 : ℤ) < 3 by norm_num) (Int.le_sub_one_of_lt hhigh)
  have hmax : Int.tdiv (2 ^ 31 - 1) 3 = 715827882 := rfl
  rw [hmax] at hthird
  rw [← Option.some.inj htake, List.length_take]
  omega

theorem length_fromBase64Loop {len : ℤ} {i outlen : ℕ} {text buf : Chunk} {out : Chunk × ℕ}
    (h : fromBase64Loop len i outlen text buf = some out) : out.1.length = buf.length := by
  fun_induction fromBase64Loop len i outlen text buf with
  | case1 => rw [← Option.some.inj h]
  | case2 => cases h
  | case3 _ _ _ _ _ _ _ _ _ _ _ hstores ih => rw [ih h, length_stores hstores]
  | case4 => cases h

theorem length_chunkFromBase64_le {text x : Chunk} (hfits : text.length < 2 ^ 31)
    (h : chunkFromBase64 text = some x) : x.length ≤ text.length / 4 * 3 := by
  simp only [chunkFromBase64, Option.bind_eq_bind, Option.bind_eq_some_iff] at h
  obtain ⟨buf, hbuf, out, hout, htake⟩ := h
  rw [sizeToInt_of_lt (by omega), malloc_natCast, Option.some.injEq] at hbuf
  rw [← Option.some.inj htake, List.length_take, length_fromBase64Loop hout, ← hbuf,
    List.length_replicate]
  exact min_le_right _ _

/-- **What is read back of a text is not longer than the `int`s allow.** -/
theorem length_of_base64 {x : Chunk} (h : (chunkToBase64 x).bind chunkFromBase64 = some x) :
    x.length ≤ 536870910 := by
  obtain ⟨text, htext, hx⟩ := Option.bind_eq_some_iff.mp h
  have hle := length_chunkToBase64_le htext
  have hlength := length_chunkFromBase64_le (by omega) hx
  omega

theorem base64_of_length {x : Chunk} (h : x.length ≤ 536870910) :
    (chunkToBase64 x).bind chunkFromBase64 = some x := by
  have hpadded : paddedLength x.length < 2 ^ 29 := by
    unfold paddedLength
    omega
  rw [chunkToBase64_eq hpadded, Option.bind_some,
    chunkFromBase64_base64Text (hpadded.trans (by norm_num))]

end StrongSwan
