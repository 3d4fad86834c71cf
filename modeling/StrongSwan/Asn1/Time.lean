import StrongSwan.Asn1.Asn1
import StrongSwan.Asn1.Oid.Text
import StrongSwan.Lib.Gregorian

/-!
# ASN.1 times

Conversions between a `time_t` of 64 bits and UTCTIME or GENERALIZEDTIME.

* `scanInts`, `printPadded`, `gmtime`: what the conversions use of the library.
* `asn1ToTime`, `asn1FromTime`: the conversions.
* `TimeText`: what a time says, with its text and its seconds since 1970.
-/

namespace StrongSwan

/-! ## Library functions -/

/-- "%2d" or "%4d" of `sscanf`, with the text behind the number -/
def scanInt (width : ℕ) (s : Chunk) : Option (ℤ × Chunk) :=
  let s := s.dropWhile isspace
  let field := s.take width
  let signed := field.head? = some 0x2d ∨ field.head? = some 0x2b
  let sign := if signed then 1 else 0
  let digits := (field.drop sign).takeWhile isdigit
  if digits = [] then none
  else
    let val : ℤ := decimal digits
    some (if field.head? = some 0x2d then -val else val, s.drop (sign + digits.length))

/-- `sscanf` with numbers only, if all are there -/
def scanInts : List ℕ → Chunk → Option (List ℤ)
  | [], _ => some []
  | width :: widths, s => do
    let (val, s) ← scanInt width s
    let vals ← scanInts widths s
    return val :: vals

/-- "%02d" or "%04d" -/
def printPadded (width : ℕ) (val : ℤ) : Chunk :=
  let digits := printUnsigned val.natAbs
  if val < 0 then 0x2d :: (List.replicate (width - 1 - digits.length) 0x30 ++ digits)
  else List.replicate (width - digits.length) 0x30 ++ digits

/-- `struct tm` -/
structure Tm where
  year : ℤ
  mon : ℤ
  mday : ℤ
  hour : ℤ
  min : ℤ
  sec : ℤ
  deriving DecidableEq, Repr

/-- `gmtime_r` -/
def gmtime (time : ℤ) : Tm :=
  let date := Gregorian.ofDayNumber (time / 86400)
  let secs := time % 86400
  { year := date.year - 1900, mon := date.month, mday := date.day + 1,
    hour := secs / 3600, min := secs % 3600 / 60, sec := secs % 60 }

/-! ## Conversions -/

/-- `ASN1_UTCTIME` and `ASN1_GENERALIZEDTIME` -/
inductive TimeType
  | utctime | generalizedtime
  deriving DecidableEq, Repr

namespace TimeType

def tag : TimeType → U8
  | utctime => asn1UtcTime
  | generalizedtime => asn1GeneralizedTime

/-- The digits of a year -/
def yearWidth : TimeType → ℕ
  | utctime => 2
  | generalizedtime => 4

end TimeType

def days : List ℤ := [0, 31, 59, 90, 120, 151, 181, 212, 243, 273, 304, 334]

def tmLeap1970 : ℤ := 477

/-- The position of the zone designator and the offset -/
def timeZone (buf : Chunk) : Option (ℕ × ℤ) :=
  match strchr 0x5a buf with
  | some (before, _) => some (before.length, 0)
  | none =>
    match strchr 0x2b buf with
    | some (before, behind) =>
      match scanInts [2, 2] behind with
      | some [tzHour, tzMin] => some (before.length, 3600 * tzHour + 60 * tzMin)
      | _ => none
    | none =>
      match strchr 0x2d buf with
      | some (before, behind) =>
        match scanInts [2, 2] behind with
        | some [tzHour, tzMin] => some (before.length, -3600 * tzHour - 60 * tzMin)
        | _ => none
      | none => none

/-- The days since 1970 of a date with the month and the day from 0 on. Divisions of C truncate. -/
def tmDays (tmYear tmMon tmDay : ℤ) : ℤ :=
  let tmLeap4 := (tmYear - 1).tdiv 4
  let tmLeap100 := tmLeap4.tdiv 25
  let tmLeap400 := tmLeap100.tdiv 4
  let tmLeap := tmLeap4 - tmLeap100 + tmLeap400 - tmLeap1970
  -- if date later then February, is the current year a leap year?
  let tmLeap :=
    if tmMon > 1 ∧ tmYear.tmod 4 = 0 ∧ (tmYear.tmod 100 ≠ 0 ∨ tmYear.tmod 400 = 0) then tmLeap + 1
    else tmLeap
  365 * (tmYear - 1970) + days.getD tmMon.toNat 0 + tmDay + tmLeap

/-- The time of the fields of a text, or nothing if one is out of range -/
def timeOfFields (type : TimeType) (tmYear tmMon tmDay tmHour tmMin tmSec tzOffset : ℤ) : Option ℤ :=
  -- representation of two-digit years
  let tmYear :=
    if type = .utctime then tmYear + (if tmYear < 50 then 2000 else 1900) else tmYear
  if tmMon < 1 ∨ tmMon > 12 then none
  else if tmDay < 1 ∨ tmDay > 31 then none
  else if tmHour < 0 ∨ tmHour > 23 ∨ tmMin < 0 ∨ tmMin > 59 ∨ tmSec < 0 ∨ tmSec > 60 then none
  else
    let tmDays := tmDays tmYear (tmMon - 1) (tmDay - 1)
    some (60 * (60 * (24 * tmDays + tmHour) + tmMin) + tmSec - tzOffset)

/-- `asn1_to_time`, or nothing where it returns 0 for an error -/
def asn1ToTime? (utctime : Chunk) (type : TimeType) : Option ℤ := do
  let buf := (utctime.takeWhile (· ≠ 0)).take 511
  let (eot, tzOffset) ← timeZone buf
  match ← scanInts [type.yearWidth, 2, 2, 2, 2] buf with
  | [tmYear, tmMon, tmDay, tmHour, tmMin] =>
    -- is there a seconds field?
    if eot = type.yearWidth + 10 then
      match ← scanInts [2] (buf.drop (eot - 2)) with
      | [tmSec] => timeOfFields type tmYear tmMon tmDay tmHour tmMin tmSec tzOffset
      | _ => none
    else timeOfFields type tmYear tmMon tmDay tmHour tmMin 0 tzOffset
  | _ => none

def asn1ToTime (utctime : Chunk) (type : TimeType) : ℤ := (asn1ToTime? utctime type).getD 0

/-- The type and content that `asn1_from_time` makes -/
def formatTime (time : ℤ) (type : TimeType) : TimeType × Chunk :=
  let t := gmtime time
  -- dates in 2050 or later must be encoded as GENERALIZEDTIME
  let type := if t.year ≥ 150 then .generalizedtime else type
  let offset :=
    match type with
    | .generalizedtime => 1900
    | .utctime => if t.year < 100 then 0 else -100
  (type, printPadded type.yearWidth (t.year + offset) ++ printPadded 2 (t.mon + 1) ++
    printPadded 2 t.mday ++ printPadded 2 t.hour ++ printPadded 2 t.min ++ printPadded 2 t.sec ++
    [0x5a])

def asn1FromTime (time : ℤ) (type : TimeType) : Chunk :=
  asn1SimpleObject (formatTime time type).1.tag (formatTime time type).2

/-! ## Times -/

inductive Zone
  | utc
  | ahead (hours minutes : ℕ)
  | behind (hours minutes : ℕ)
  deriving DecidableEq, Repr

namespace Zone

def text : Zone → Chunk
  | utc => [0x5a]
  | ahead hours minutes => 0x2b :: (printPadded 2 hours ++ printPadded 2 minutes)
  | behind hours minutes => 0x2d :: (printPadded 2 hours ++ printPadded 2 minutes)

/-- The seconds it is before UTC -/
def seconds : Zone → ℤ
  | utc => 0
  | ahead hours minutes => 3600 * hours + 60 * minutes
  | behind hours minutes => -(3600 * hours + 60 * minutes)

/-- Two digits each -/
def Valid : Zone → Prop
  | utc => True
  | ahead hours minutes | behind hours minutes => hours < 100 ∧ minutes < 100

end Zone

/-- The fields of a time, with seconds or without -/
structure TimeText where
  type : TimeType
  year : ℕ
  month : ℕ
  day : ℕ
  hour : ℕ
  minute : ℕ
  second : Option ℕ
  zone : Zone
  deriving DecidableEq, Repr

namespace TimeText

variable (this : TimeText)

/-- The text: [yy]yymmddhhmm[ss] and the zone -/
def text : Chunk :=
  printPadded this.type.yearWidth this.year ++ printPadded 2 this.month ++ printPadded 2 this.day ++
    printPadded 2 this.hour ++ printPadded 2 this.minute ++
    ((this.second.map fun second : ℕ => printPadded 2 second).getD []) ++ this.zone.text

/-- The year that is meant: two digits are from 1950 to 2049. -/
def fullYear : ℕ :=
  match this.type with
  | .utctime => if this.year < 50 then 2000 + this.year else 1900 + this.year
  | .generalizedtime => this.year

def date : Gregorian.Date := ⟨this.fullYear, this.month - 1, this.day - 1⟩

/-- A date of the calendar, and a time of day that may be a leap second -/
structure Valid : Prop where
  year : this.year < 10 ^ this.type.yearWidth
  month : 1 ≤ this.month
  day : 1 ≤ this.day
  date : this.date.Valid
  hour : this.hour < 24
  minute : this.minute < 60
  second : ∀ second ∈ this.second, second ≤ 60
  zone : this.zone.Valid

/-- The seconds since 1970-01-01 00:00:00 UTC -/
def seconds : ℤ :=
  86400 * this.date.dayNumber + 3600 * this.hour + 60 * this.minute + (this.second.getD 0 : ℕ) -
    this.zone.seconds

end TimeText

end StrongSwan
