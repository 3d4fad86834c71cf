import StrongSwan.Asn1.Oid.Text.RoundTrip
import StrongSwan.Asn1.Time

/-!
# ASN.1 times as seconds

* `scanInt_printPadded`: numbers are read from their text, `timeZone_text`: zones.
* `tmDays_eq`: the days of a date, but for the year 0.
* `asn1ToTime_text`: what a text means; `formatTime_eq`: which text a time has.
* **`times_iff`**: times are made again from their text, and texts are understood if the year is not 0.
-/

namespace StrongSwan

/-! ## Numbers -/

section Numbers

variable {width n : ℕ}

theorem decimal_replicate (k : ℕ) (digits : Chunk) :
    decimal (List.replicate k 0x30 ++ digits) = decimal digits := by
  induction k with
  | zero => rfl
  | succ k ih =>
    rw [← ih, List.replicate_succ, List.cons_append, decimal, List.foldl_cons]
    rfl

theorem printPadded_spec (hwidth : 0 < width) (h : n < 10 ^ width) :
    (printPadded width n).length = width ∧ (∀ c ∈ printPadded width n, isdigit c = true) ∧
      decimal (printPadded width n) = n := by
  have hlength : (printUnsigned n).length ≤ width := by
    rw [printUnsigned, List.length_map]
    exact Numeral.length_digits_le (by decide) hwidth h
  have hprint : printPadded width n =
      List.replicate (width - (printUnsigned n).length) 0x30 ++ printUnsigned n := by
    rw [printPadded, if_neg (by omega), Int.natAbs_natCast]
  rw [hprint]
  refine ⟨?_, fun c hc => ?_, ?_⟩
  · rw [List.length_append, List.length_replicate]
    omega
  · rcases List.mem_append.1 hc with hc | hc
    · rw [List.eq_of_mem_replicate hc]
      decide
    · exact isdigit_of_mem_printUnsigned hc
  · rw [decimal_replicate, decimal_printUnsigned]

/-- **A number is read** from its digits. -/
theorem scanInt_printPadded (hwidth : 0 < width) (h : n < 10 ^ width) (rest : Chunk) :
    scanInt width (printPadded width n ++ rest) = some ((n : ℤ), rest) := by
  obtain ⟨hlength, hdigits, hdecimal⟩ := printPadded_spec hwidth h
  generalize printPadded width (n : ℤ) = field at hlength hdigits hdecimal
  have htake : (field ++ rest).take width = field := by rw [← hlength, List.take_left]
  have hdrop : (field ++ rest).drop width = rest := by rw [← hlength, List.drop_left]
  cases field with
  | nil =>
    rw [← hlength] at hwidth
    exact absurd hwidth (Nat.lt_irrefl 0)
  | cons c field =>
    obtain ⟨hspace, hminus, hplus, -⟩ := class_of_isdigit c (hdigits c List.mem_cons_self)
    have hskip : (c :: field ++ rest).dropWhile isspace = c :: field ++ rest :=
      List.dropWhile_cons_of_neg (by rw [hspace]; simp)
    have hall : (c :: field).takeWhile isdigit = c :: field := List.takeWhile_eq_self_iff.2 hdigits
    rw [scanInt, hskip]
    simp only [htake, List.head?_cons, Option.some.injEq, hminus, hplus, or_self, if_false,
      List.drop_zero, hall, reduceCtorEq, hdecimal, Nat.zero_add, hlength, hdrop]

end Numbers

theorem scanInts_printPadded {width n : ℕ} (hwidth : 0 < width) (h : n < 10 ^ width)
    (widths : List ℕ) (rest : Chunk) : scanInts (width :: widths) (printPadded width n ++ rest) =
      (scanInts widths rest).map ((n : ℤ) :: ·) := by
  rw [scanInts, scanInt_printPadded hwidth h]
  cases hrest : scanInts widths rest <;> simp [hrest]

/-! ## Days -/

theorem days_eq (year : ℤ) {month : ℕ} (hmonth : month < 12) :
    days.getD month 0 + (if 1 < month ∧ Gregorian.isLeap year = true then 1 else 0) =
      Gregorian.monthStart year month := by
  interval_cases month <;>
    simp only [Gregorian.monthStart, Gregorian.monthLength] <;>
    cases Gregorian.isLeap year <;>
    decide

/-- **The days of a date** since 1970. Truncated division has one more leap year before the year 0. -/
theorem tmDays_eq (year : ℕ) {month : ℕ} (hmonth : month < 12) (day : ℕ) :
    tmDays year month day =
      (Gregorian.Date.mk year month day).dayNumber + (if year = 0 then 1 else 0) := by
  have hleap := Gregorian.isLeap_iff year
  have hdays := days_eq year hmonth
  have hmod {k : ℤ} : (year : ℤ).tmod k = year % k := Int.tmod_eq_emod_of_nonneg (by omega)
  have hcond : ((month : ℤ) > 1 ∧ (year : ℤ) % 4 = 0 ∧ ((year : ℤ) % 100 ≠ 0 ∨ (year : ℤ) % 400 = 0)) ↔
      1 < month ∧ Gregorian.isLeap year = true := by
    rw [hleap]
    exact and_congr_left fun _ => by omega
  unfold tmDays Gregorian.Date.dayNumber Gregorian.yearStart
  simp only [hmod, hcond, Int.toNat_natCast]
  rw [← hdays]
  by_cases hzero : year = 0
  · subst hzero
    rw [if_pos rfl]
    have hone : ((0 : ℕ) - 1 : ℤ).tdiv 4 = 0 := by decide
    rw [hone]
    simp only [tmLeap1970]
    split_ifs <;> norm_num <;> ring
  · have hfour : ((year : ℤ) - 1).tdiv 4 = (year - 1) / 4 := Int.tdiv_eq_ediv_of_nonneg (by omega)
    have hhundred : (((year : ℤ) - 1) / 4).tdiv 25 = (year - 1) / 100 := by
      rw [Int.tdiv_eq_ediv_of_nonneg (by omega)]
      omega
    have hfourhundred : (((year : ℤ) - 1) / 100).tdiv 4 = (year - 1) / 400 := by
      rw [Int.tdiv_eq_ediv_of_nonneg (by omega)]
      omega
    rw [if_neg hzero, hfour, hhundred, hfourhundred]
    simp only [tmLeap1970]
    split_ifs <;> ring

/-! ## Texts -/

section Texts

variable {width n : ℕ} {c : U8}

theorem not_mem_printPadded (hwidth : 0 < width) (h : n < 10 ^ width) (hc : isdigit c = false) :
    c ∉ printPadded width n := by
  intro hmem
  rw [(printPadded_spec hwidth h).2.1 c hmem] at hc
  cases hc

theorem scanInts_zone {hours minutes : ℕ} (hhours : hours < 100) (hminutes : minutes < 100) :
    scanInts [2, 2] (printPadded 2 hours ++ printPadded 2 minutes) =
      some [(hours : ℤ), (minutes : ℤ)] := by
  have hlast : scanInts [2] (printPadded 2 minutes ++ []) = _ :=
    scanInts_printPadded (by decide) hminutes [] []
  rw [List.append_nil] at hlast
  rw [scanInts_printPadded (by decide) hhours, hlast]
  rfl

/-- **The zone** behind numbers -/
theorem timeZone_text {fields : Chunk} (hfields : ∀ c ∈ fields, isdigit c = true) {zone : Zone}
    (hzone : zone.Valid) : timeZone (fields ++ zone.text) = some (fields.length, zone.seconds) := by
  have hnot {c : U8} (hc : isdigit c = false) : c ∉ fields := by
    intro hmem
    rw [hfields c hmem] at hc
    cases hc
  have hother {c sign : U8} {hours minutes : ℕ} (hvalid : hours < 100 ∧ minutes < 100)
      (hc : isdigit c = false) (hne : c ≠ sign) :
      c ∉ fields ++ sign :: (printPadded 2 hours ++ printPadded 2 minutes) := by
    simp only [List.mem_append, List.mem_cons, not_or]
    exact ⟨hnot hc, hne, not_mem_printPadded (by decide) hvalid.1 hc,
      not_mem_printPadded (by decide) hvalid.2 hc⟩
  cases zone with
  | utc =>
    rw [timeZone, Zone.text, strchr_append (hnot (by decide))]
    rfl
  | ahead hours minutes =>
    rw [timeZone, Zone.text, strchr, if_neg (hother hzone (by decide) (by decide))]
    dsimp only
    rw [strchr_append (hnot (by decide))]
    dsimp only
    rw [scanInts_zone hzone.1 hzone.2]
    rfl
  | behind hours minutes =>
    rw [timeZone, Zone.text, strchr, if_neg (hother hzone (by decide) (by decide))]
    dsimp only
    rw [strchr, if_neg (hother hzone (by decide) (by decide))]
    dsimp only
    rw [strchr_append (hnot (by decide))]
    dsimp only
    rw [scanInts_zone hzone.1 hzone.2]
    simp only [Zone.seconds, Option.some.injEq, Prod.mk.injEq, true_and]
    ring

end Texts

namespace TimeText

variable {this : TimeText}

/-- The digits before the zone -/
def fields (this : TimeText) : Chunk :=
  printPadded this.type.yearWidth this.year ++ printPadded 2 this.month ++ printPadded 2 this.day ++
    printPadded 2 this.hour ++ printPadded 2 this.minute ++
    ((this.second.map fun second : ℕ => printPadded 2 second).getD [])

theorem text_eq (this : TimeText) : this.text = this.fields ++ this.zone.text := rfl

theorem yearWidth_pos (type : TimeType) : 0 < type.yearWidth := by cases type <;> decide

theorem Valid.lt (h : this.Valid) : this.month < 10 ^ 2 ∧ this.day < 10 ^ 2 ∧ this.hour < 10 ^ 2 ∧
    this.minute < 10 ^ 2 ∧ ∀ second ∈ this.second, second < 10 ^ 2 := by
  have hmonth := h.date.month
  have hday := h.date.day
  have hle := (Gregorian.monthLength_mem this.date.year this.date.month).2
  have hhour := h.hour
  have hminute := h.minute
  have hone := h.month
  simp only [TimeText.date] at hmonth hday hle
  refine ⟨by omega, by omega, by omega, by omega, fun second hsecond => ?_⟩
  have := h.second second hsecond
  omega

theorem Valid.isdigit_fields (h : this.Valid) : ∀ c ∈ this.fields, isdigit c = true := by
  obtain ⟨hmonth, hday, hhour, hminute, hsecond⟩ := h.lt
  intro c hc
  simp only [fields, List.mem_append] at hc
  rcases hc with ((((hc | hc) | hc) | hc) | hc) | hc
  · exact (printPadded_spec (yearWidth_pos _) h.year).2.1 c hc
  · exact (printPadded_spec (by decide) hmonth).2.1 c hc
  · exact (printPadded_spec (by decide) hday).2.1 c hc
  · exact (printPadded_spec (by decide) hhour).2.1 c hc
  · exact (printPadded_spec (by decide) hminute).2.1 c hc
  · cases hs : this.second with
    | none => simp [hs] at hc
    | some second =>
      rw [hs] at hc
      exact (printPadded_spec (by decide) (hsecond second hs)).2.1 c hc

theorem Valid.length_fields (h : this.Valid) :
    this.fields.length = this.type.yearWidth + 8 + if this.second.isSome then 2 else 0 := by
  obtain ⟨hmonth, hday, hhour, hminute, hsecond⟩ := h.lt
  simp only [fields, List.length_append, (printPadded_spec (yearWidth_pos _) h.year).1,
    (printPadded_spec (by decide) hmonth).1, (printPadded_spec (by decide) hday).1,
    (printPadded_spec (by decide) hhour).1, (printPadded_spec (by decide) hminute).1]
  cases hs : this.second with
  | none => simp
  | some second => simp [(printPadded_spec (by decide) (hsecond second hs)).1]

theorem length_zone {zone : Zone} (h : zone.Valid) :
    zone.text.length ≤ 5 ∧ (0 : U8) ∉ zone.text := by
  cases zone with
  | utc => decide
  | ahead hours minutes | behind hours minutes =>
    constructor
    · have hhours := (printPadded_spec (show 0 < 2 by decide) h.1).1
      have hminutes := (printPadded_spec (show 0 < 2 by decide) h.2).1
      rw [Zone.text, List.length_cons, List.length_append, hhours, hminutes]
    · simp only [Zone.text, List.mem_cons, List.mem_append, not_or]
      exact ⟨by decide, not_mem_printPadded (by decide) h.1 (by decide),
        not_mem_printPadded (by decide) h.2 (by decide)⟩

theorem Valid.buf_eq (h : this.Valid) : (this.text.takeWhile (· ≠ 0)).take 511 = this.text := by
  obtain ⟨hlength, hzero⟩ := length_zone h.zone
  have hall : this.text.takeWhile (· ≠ 0) = this.text := by
    refine List.takeWhile_eq_self_iff.2 fun c hc => decide_eq_true ?_
    rintro rfl
    rw [text_eq] at hc
    rcases List.mem_append.1 hc with hc | hc
    · have hdigit := h.isdigit_fields _ hc
      revert hdigit
      decide
    · exact hzero hc
  have hfields := h.length_fields
  have hwidth : this.type.yearWidth ≤ 4 := by cases this.type <;> decide
  rw [hall, List.take_of_length_le]
  rw [text_eq, List.length_append, hfields]
  split_ifs <;> omega

theorem Valid.scanInts_text (h : this.Valid) : scanInts [this.type.yearWidth, 2, 2, 2, 2] this.text =
    some [(this.year : ℤ), (this.month : ℤ), (this.day : ℤ), (this.hour : ℤ), (this.minute : ℤ)] := by
  obtain ⟨hmonth, hday, hhour, hminute, -⟩ := h.lt
  rw [text]
  simp only [List.append_assoc]
  rw [scanInts_printPadded (yearWidth_pos _) h.year, scanInts_printPadded (by decide) hmonth,
    scanInts_printPadded (by decide) hday, scanInts_printPadded (by decide) hhour,
    scanInts_printPadded (by decide) hminute]
  rfl

theorem Valid.scanInts_second (h : this.Valid) {second : ℕ} (hsecond : this.second = some second) :
    scanInts [2] (this.text.drop (this.type.yearWidth + 10 - 2)) = some [(second : ℤ)] := by
  obtain ⟨hmonth, hday, hhour, hminute, hlt⟩ := h.lt
  have hdrop : this.text.drop (this.type.yearWidth + 10 - 2) =
      printPadded 2 second ++ this.zone.text := by
    have htext : this.text = (printPadded this.type.yearWidth this.year ++ printPadded 2 this.month ++
        printPadded 2 this.day ++ printPadded 2 this.hour ++ printPadded 2 this.minute) ++
        (printPadded 2 second ++ this.zone.text) := by
      rw [text, hsecond]
      simp only [Option.map_some, Option.getD_some, List.append_assoc]
    rw [htext, List.drop_left']
    simp only [List.length_append, (printPadded_spec (yearWidth_pos _) h.year).1,
      (printPadded_spec (by decide) hmonth).1, (printPadded_spec (by decide) hday).1,
      (printPadded_spec (by decide) hhour).1, (printPadded_spec (by decide) hminute).1]
    omega
  rw [hdrop, scanInts_printPadded (by decide) (hlt second hsecond)]
  rfl

theorem Valid.timeOfFields_eq (h : this.Valid) : timeOfFields this.type this.year this.month this.day
    this.hour this.minute (this.second.getD 0 : ℕ) this.zone.seconds =
      some (this.seconds + if this.fullYear = 0 then 86400 else 0) := by
  have hyear : (if this.type = .utctime then
      (this.year : ℤ) + (if (this.year : ℤ) < 50 then 2000 else 1900) else this.year) =
      (this.fullYear : ℕ) := by
    unfold fullYear
    cases this.type with
    | utctime =>
      simp only [if_true]
      split_ifs <;> omega
    | generalizedtime => simp
  have hmonth := h.month
  have hday := h.day
  have hlt := h.date.month
  have hlength := h.date.day
  have hle := (Gregorian.monthLength_mem this.date.year this.date.month).2
  have hhour := h.hour
  have hminute := h.minute
  have hsecond : this.second.getD 0 ≤ 60 := by
    cases hs : this.second with
    | none => exact Nat.zero_le _
    | some second => exact h.second second hs
  simp only [TimeText.date] at hlt hlength hle
  have hmon : (this.month : ℤ) - 1 = (this.month - 1 : ℕ) := by omega
  have hmday : (this.day : ℤ) - 1 = (this.day - 1 : ℕ) := by omega
  unfold timeOfFields
  rw [hyear, if_neg (by omega), if_neg (by omega), if_neg (by omega), hmon, hmday,
    tmDays_eq _ hlt]
  simp only [seconds, TimeText.date, Option.some.injEq]
  split_ifs <;> ring

/-- **What a text means**: its seconds, and a day more in the year 0 -/
theorem asn1ToTime_text (h : this.Valid) :
    asn1ToTime this.text this.type = this.seconds + if this.fullYear = 0 then 86400 else 0 := by
  have hfields := h.timeOfFields_eq
  unfold asn1ToTime asn1ToTime?
  dsimp only
  rw [h.buf_eq, h.scanInts_text]
  rw [text_eq, timeZone_text h.isdigit_fields h.zone, ← text_eq]
  have hlength := h.length_fields
  cases hs : this.second with
  | none =>
    rw [hs] at hlength hfields
    have hne : ¬this.fields.length = this.type.yearWidth + 10 := by
      rw [hlength]
      simp
    simp only [Option.bind_eq_bind, Option.bind_some, if_neg hne]
    rw [show (0 : ℤ) = ((none : Option ℕ).getD 0 : ℕ) from rfl, hfields]
    rfl
  | some second =>
    rw [hs] at hlength hfields
    have heq : this.fields.length = this.type.yearWidth + 10 := hlength
    simp only [Option.bind_eq_bind, Option.bind_some, heq, if_true, h.scanInts_second hs]
    rw [show (second : ℤ) = ((some second).getD 0 : ℕ) from rfl, hfields]
    rfl

end TimeText

/-! ## Times of seconds -/

/-- The year as it is written -/
def yearDigits : TimeType → ℤ → ℕ
  | .generalizedtime, year => year.toNat
  | .utctime, year => year.toNat % 100

/-- The fields of the text that `asn1_from_time` makes -/
def timeText (time : ℤ) (type : TimeType) : TimeText :=
  let date := Gregorian.ofDayNumber (time / 86400)
  let secs := (time % 86400).toNat
  let type := if date.year ≥ 2050 then .generalizedtime else type
  { type := type, year := yearDigits type date.year, month := date.month + 1, day := date.day + 1,
    hour := secs / 3600, minute := secs % 3600 / 60, second := some (secs % 60), zone := .utc }

section Seconds

variable {time : ℤ}

theorem year_mem (hlow : -631152000 ≤ time) (hhigh : time ≤ 253402300799) :
    1950 ≤ (Gregorian.ofDayNumber (time / 86400)).year ∧
      (Gregorian.ofDayNumber (time / 86400)).year ≤ 9999 := by
  obtain ⟨hvalid, hnumber⟩ := Gregorian.ofDayNumber_spec (time / 86400)
  obtain ⟨hstart, hend⟩ := Gregorian.dayNumber_mem hvalid
  rw [hnumber] at hstart hend
  unfold Gregorian.yearStart at hstart hend
  generalize (Gregorian.ofDayNumber (time / 86400)).year = year at hstart hend
  constructor <;> by_contra hout <;> omega

variable (hlow : -631152000 ≤ time) (hhigh : time ≤ 253402300799) (type : TimeType)

include hlow hhigh

theorem fullYear_timeText :
    ((timeText time type).fullYear : ℤ) = (Gregorian.ofDayNumber (time / 86400)).year ∧
      (timeText time type).year < 10 ^ (timeText time type).type.yearWidth := by
  obtain ⟨hmin, hmax⟩ := year_mem hlow hhigh
  rw [TimeText.fullYear, timeText]
  by_cases hlate : (Gregorian.ofDayNumber (time / 86400)).year ≥ 2050
  · simp only [if_pos hlate, TimeType.yearWidth, yearDigits]
    omega
  · simp only [if_neg hlate]
    cases type with
    | generalizedtime =>
      simp only [TimeType.yearWidth, yearDigits]
      omega
    | utctime =>
      have hdigits : yearDigits .utctime (Gregorian.ofDayNumber (time / 86400)).year =
        (Gregorian.ofDayNumber (time / 86400)).year.toNat % 100 := rfl
      generalize yearDigits .utctime (Gregorian.ofDayNumber (time / 86400)).year = digits at hdigits
      simp only [TimeType.yearWidth]
      split_ifs <;> omega

theorem date_timeText : (timeText time type).date = Gregorian.ofDayNumber (time / 86400) := by
  have hyear := (fullYear_timeText hlow hhigh type).1
  rw [TimeText.date, hyear]
  rfl

theorem valid_timeText : (timeText time type).Valid := by
  have hdate := date_timeText hlow hhigh type
  have hsecs : (time % 86400).toNat < 86400 := by omega
  have hlt : ∀ secs : ℕ, secs < 86400 → secs / 3600 < 24 ∧ secs % 3600 / 60 < 60 ∧ secs % 60 ≤ 60 := by
    intro secs hsecs
    omega
  obtain ⟨hhour, hminute, hsecond⟩ := hlt _ hsecs
  exact
    { year := (fullYear_timeText hlow hhigh type).2
      month := Nat.le_add_left 1 _
      day := Nat.le_add_left 1 _
      date := hdate ▸ (Gregorian.ofDayNumber_spec _).1
      hour := hhour
      minute := hminute
      second := fun second heq => by
        cases heq
        exact hsecond
      zone := trivial }

theorem seconds_timeText : (timeText time type).seconds = time := by
  have hnumber := (Gregorian.ofDayNumber_spec (time / 86400)).2
  rw [TimeText.seconds, date_timeText hlow hhigh type, hnumber]
  simp only [timeText, Zone.seconds, Option.getD_some]
  push_cast
  omega

/-- **The text of a time** -/
theorem formatTime_eq :
    formatTime time type = ((timeText time type).type, (timeText time type).text) := by
  obtain ⟨hmin, hmax⟩ := year_mem hlow hhigh
  have hhour : time % 86400 / 3600 = (((time % 86400).toNat / 3600 : ℕ) : ℤ) := by omega
  have hminute : time % 86400 % 3600 / 60 = (((time % 86400).toNat % 3600 / 60 : ℕ) : ℤ) := by omega
  have hsecond : time % 86400 % 60 = (((time % 86400).toNat % 60 : ℕ) : ℤ) := by omega
  have htext : ∀ type' year, (timeText time type).type = type' → (timeText time type).year = year →
      (timeText time type).text = printPadded type'.yearWidth year ++
        printPadded 2 ((Gregorian.ofDayNumber (time / 86400)).month + 1) ++
        printPadded 2 ((Gregorian.ofDayNumber (time / 86400)).day + 1) ++
        printPadded 2 (time % 86400 / 3600) ++ printPadded 2 (time % 86400 % 3600 / 60) ++
        printPadded 2 (time % 86400 % 60) ++ [0x5a] := by
    rintro _ _ rfl rfl
    rw [hhour, hminute, hsecond]
    rfl
  unfold formatTime gmtime
  dsimp only
  by_cases hlate : (Gregorian.ofDayNumber (time / 86400)).year ≥ 2050
  · have htype : (timeText time type).type = .generalizedtime := if_pos hlate
    have hyear : (timeText time type).year = (Gregorian.ofDayNumber (time / 86400)).year.toNat := by
      rw [timeText, if_pos hlate]
      rfl
    rw [if_pos (by omega), htype, htext _ _ htype hyear, Int.toNat_of_nonneg (by omega)]
    simp only [Int.sub_add_cancel]
  · have htype : (timeText time type).type = type := if_neg hlate
    rw [if_neg (by omega), htype, htext _ _ htype rfl, timeText, if_neg hlate]
    cases type with
    | generalizedtime =>
      simp only [yearDigits, Int.sub_add_cancel]
      rw [Int.toNat_of_nonneg (by omega)]
    | utctime =>
      have hyear : (Gregorian.ofDayNumber (time / 86400)).year - 1900 +
          (if (Gregorian.ofDayNumber (time / 86400)).year - 1900 < 100 then 0 else -100) =
            ((Gregorian.ofDayNumber (time / 86400)).year.toNat % 100 : ℕ) := by
        split_ifs <;> omega
      simp only [yearDigits, hyear]

end Seconds

/-- **Times invert.** A time from 1950 to 9999 is made again from its text, of any type that is asked
for. A text means the seconds of its date and zone iff its year is not 0. -/
theorem times_iff (time : ℤ) (hlow : -631152000 ≤ time) (hhigh : time ≤ 253402300799)
    (type : TimeType) (text : TimeText) (htext : text.Valid) :
    asn1ToTime (formatTime time type).2 (formatTime time type).1 = time ∧
      (asn1ToTime text.text text.type = text.seconds ↔ text.fullYear ≠ 0) := by
  constructor
  · have hvalid := valid_timeText hlow hhigh type
    have hyear := (fullYear_timeText hlow hhigh type).1
    have hmin := (year_mem hlow hhigh).1
    rw [formatTime_eq hlow hhigh, TimeText.asn1ToTime_text hvalid, seconds_timeText hlow hhigh,
      if_neg (by omega), Int.add_zero]
  · rw [TimeText.asn1ToTime_text htext]
    split_ifs with hzero
    · simp [hzero]
    · simp [hzero]

/-- The time 0, and a text with a zone -/
theorem times_iff_zone :
    asn1ToTime (formatTime 0 .utctime).2 (formatTime 0 .utctime).1 = 0 ∧
      (asn1ToTime (TimeText.text ⟨.generalizedtime, 2018, 5, 28, 14, 30, none, .ahead 2 0⟩)
          .generalizedtime =
        TimeText.seconds ⟨.generalizedtime, 2018, 5, 28, 14, 30, none, .ahead 2 0⟩ ↔
      TimeText.fullYear ⟨.generalizedtime, 2018, 5, 28, 14, 30, none, .ahead 2 0⟩ ≠ 0) :=
  times_iff 0 (by decide) (by decide) .utctime ⟨.generalizedtime, 2018, 5, 28, 14, 30, none, .ahead 2 0⟩
    ⟨by decide, by decide, by decide, ⟨by decide, by decide⟩, by decide, by decide, by decide,
      ⟨by decide, by decide⟩⟩

/-- The first second of the year 0 is a day late. -/
theorem not_times_zero :
    TimeText.Valid ⟨.generalizedtime, 0, 1, 1, 0, 0, some 0, .utc⟩ ∧
      asn1ToTime (TimeText.text ⟨.generalizedtime, 0, 1, 1, 0, 0, some 0, .utc⟩) .generalizedtime =
        TimeText.seconds ⟨.generalizedtime, 0, 1, 1, 0, 0, some 0, .utc⟩ + 86400 :=
  ⟨⟨by decide, by decide, by decide, ⟨by decide, by decide⟩, by decide, by decide, by decide, trivial⟩,
    by decide +kernel⟩

end StrongSwan
