import StrongSwan.Lib.Numeral
import StrongSwan.Utils.Identification.Address

/-!
# Object identifiers as text

* `tokens`, `strtoul`, `printUnsigned`: what the conversions use of the library.
* `asn1OidFromString`, `asn1OidToString`: the conversions.
* `Oid`: arcs, with their text and their DER content.
-/

namespace StrongSwan

/-! ## Library functions -/

/-- The tokens of `enumerator_create_token` with the separator "." and no characters to trim -/
def tokens : ℕ → Chunk → List Chunk
  | 0, _ => []
  | fuel + 1, string =>
    match string.dropWhile (· = 0x2e) with
    | [] => []
    | quote :: string =>
      if (quote = 0x22 ∨ quote = 0x27) ∧ quote ∈ string then
        -- a quoted token
        string.takeWhile (· ≠ quote) :: tokens fuel (string.dropWhile (· ≠ quote)).tail
      else
        match strchr 0x2e (quote :: string) with
        | some (token, string) => token :: tokens fuel string
        | none => [quote :: string]

/-- `strtoul` with base 10, or nothing if there are no digits -/
def strtoul (str : Chunk) : Option ℕ :=
  let str := str.dropWhile isspace
  let negative := str.head? = some 0x2d
  let str := if str.head? = some 0x2d ∨ str.head? = some 0x2b then str.tail else str
  let digits := str.takeWhile isdigit
  if digits = [] then none
  else if decimal digits ≥ 2 ^ 64 then some (2 ^ 64 - 1)
  else if negative then some ((2 ^ 64 - decimal digits) % 2 ^ 64)
  else some (decimal digits)

def printUnsigned (val : ℕ) : Chunk := (Numeral.digits 10 val).map fun d => BitVec.ofNat 8 (0x30 + d)

/-! ## Conversions -/

def bytesRequired (val : U32) : ℕ :=
  -- sufficient to handle 32 bit node numbers
  [28, 21, 14, 7].foldl
    (fun required shift => if val >>> shift ≠ 0 then required + 1 else required) 1

/-- The bytes of an arc from the third on -/
def arcBytes (val : U32) : Chunk :=
  (List.range (bytesRequired val - 1)).reverse.map
      (fun i => ((0x80 : U32) ||| ((val >>> (7 * (i + 1))) &&& 0x7f)).setWidth 8) ++
    [(val &&& 0x7f).setWidth 8]

/-- The loop of `asn1_oid_from_string` over the tokens, with how many came before, the first value and
the bytes -/
def fromStringLoop : List Chunk → ℕ → U32 → Chunk → Chunk
  | [], _, _, buf => buf
  | str :: strs, i, first, buf =>
    match strtoul str with
    | none => []
    | some val =>
      let val := BitVec.ofNat 32 val
      if buf.length + bytesRequired val > 64 then []
      else
        match i with
        | 0 => fromStringLoop strs 1 val buf
        | 1 => fromStringLoop strs 2 first (buf ++ [(first * 40 + val).setWidth 8])
        | i => fromStringLoop strs (i + 1) first (buf ++ arcBytes val)

def asn1OidFromString (str : Chunk) : Chunk :=
  fromStringLoop (tokens (str.length + 1) str) 0 0 []

/-- The loop of `asn1_oid_to_string` -/
def toStringLoop : Chunk → U32 → Chunk → Option Chunk
  | [], val, buf => if val = 0 then some buf else none
  | byte :: oid, val, buf =>
    let val := (val <<< 7) + (byte &&& 0x7f).setWidth 32
    if byte < 128 then
      let buf := buf ++ 0x2e :: printUnsigned val.toNat
      if buf.length ≥ 64 then none else toStringLoop oid 0 buf
    else toStringLoop oid val buf

def asn1OidToString : Chunk → Option Chunk
  | [] => none
  | byte :: oid =>
    let val := byte.toNat / 40
    let buf := printUnsigned val ++ 0x2e :: printUnsigned (byte.toNat - val * 40)
    if buf.length ≥ 64 then none else toStringLoop oid 0 buf

/-! ## Arcs -/

/-- The first two arcs of an OID, and the others -/
structure Oid where
  first : ℕ
  second : ℕ
  arcs : List ℕ
  deriving DecidableEq, Repr

/-- A number in base 128 without leading zeros, with a flag in each byte but the last -/
def arcContent (n : ℕ) : Chunk :=
  ((Nat.digits 128 (n / 128)).reverse.map fun d => BitVec.ofNat 8 (0x80 + d)) ++
    [BitVec.ofNat 8 (n % 128)]

namespace Oid

/-- The arcs, separated by dots -/
def text (o : Oid) : Chunk :=
  printUnsigned o.first ++ (o.second :: o.arcs).flatMap fun arc => 0x2e :: printUnsigned arc

/-- The DER content: the first two arcs are one number. -/
def content (o : Oid) : Chunk := arcContent (40 * o.first + o.second) ++ o.arcs.flatMap arcContent

/-- Arcs in range, with a text and an encoding that fit the buffers -/
structure Valid (o : Oid) : Prop where
  first : o.first ≤ 2
  second : o.first < 2 → o.second < 40
  second_lt : o.second < 2 ^ 32
  arcs_lt : ∀ arc ∈ o.arcs, arc < 2 ^ 32
  length_text : o.text.length < 64
  length_content : o.content.length ≤ 64

end Oid

/-- The numbers of complete arcs, and that of the bytes behind them, given the number of the bytes
before -/
def arcValues : ℕ → Chunk → List ℕ × ℕ
  | before, [] => ([], before)
  | before, byte :: oid =>
    let val := 128 * before + byte.toNat % 128
    if byte < 128 then (val :: (arcValues 0 oid).1, (arcValues 0 oid).2) else arcValues val oid

/-- The text of the complete arcs, with 32 bits of each -/
def completeText : Chunk → Chunk
  | [] => []
  | byte :: oid =>
    printUnsigned (byte.toNat / 40) ++ (byte.toNat % 40 :: (arcValues 0 oid).1).flatMap fun arc =>
      0x2e :: printUnsigned (arc % 2 ^ 32)

/-- The number of the bytes behind the complete arcs -/
def incomplete (oid : Chunk) : ℕ := (arcValues 0 oid.tail).2

def EndsInside (oid : Chunk) : Prop := ∃ byte ∈ oid.getLast?, ¬byte < 128

end StrongSwan
