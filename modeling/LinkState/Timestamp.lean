import LinkState.Text.Blank
import LinkState.Text.Decimal

/-!
# Points in time

A timestamp counts seconds and nanoseconds from the start of 1970 in universal time. It is written
as date and time with a final `Z` (`2024-01-01T00:00:00Z`), and read in any offset from universal
time. Reading is lenient about blanks in front of numbers and separators, and takes a small `t` or a
blank between date and time.
-/

namespace LinkState

/-- A point in time. Within a leap second the nanoseconds run past a thousand million. -/
structure Timestamp where
  seconds : Int
  nanos : Nat
deriving DecidableEq, Repr

namespace Timestamp

/-! ### Calendar -/

/-- Whether a year of the Gregorian calendar has a leap day. -/
def isLeapYear (year : Int) : Bool := year % 4 = 0 && (year % 100 ≠ 0 || year % 400 = 0)

/-- The number of days of a month. -/
def daysInMonth (year : Int) (month : Nat) : Nat :=
  if month = 2 then (if isLeapYear year then 29 else 28)
  else if month = 4 ∨ month = 6 ∨ month = 9 ∨ month = 11 then 30
  else 31

/-- The days from the start of 1970 to a date. Years are counted from March, so that a leap day ends
its year. -/
def daysOfDate (year : Int) (month day : Nat) : Int :=
  let year := if month ≤ 2 then year - 1 else year
  let month := if month ≤ 2 then month + 9 else month - 3
  365 * year + year / 4 - year / 100 + year / 400 + ((153 * month + 2) / 5 + day - 1 : Nat) - 719468

/-- The date that lies a number of days after the start of 1970. -/
def dateOfDays (days : Int) : Int × Nat × Nat :=
  let days := days + 719468
  let cycle := days / 146097
  -- A cycle of 400 years has 146097 days; its years start in March.
  let dayOfCycle := (days % 146097).toNat
  let yearOfCycle :=
    (dayOfCycle - dayOfCycle / 1460 + dayOfCycle / 36524 - dayOfCycle / 146096) / 365
  let dayOfYear := dayOfCycle - (365 * yearOfCycle + yearOfCycle / 4 - yearOfCycle / 100)
  let march := (5 * dayOfYear + 2) / 153
  let day := dayOfYear - (153 * march + 2) / 5 + 1
  let month := if march < 10 then march + 3 else march - 9
  (400 * cycle + yearOfCycle + (if month ≤ 2 then 1 else 0), month, day)

/-- The first year of the calendar. -/
def firstYear : Int := -262143

/-- The last year of the calendar. -/
def lastYear : Int := 262142

/-- Whether a number of seconds from the start of 1970 ends within the years of the calendar. -/
def isOnCalendar (seconds : Int) : Bool :=
  let days := seconds / 86400
  daysOfDate firstYear 1 1 ≤ days && days ≤ daysOfDate lastYear 12 31

/-! ### Writing -/

/-- A number with zeros in front up to a width. -/
def padded (width n : Nat) : String :=
  let digits := toString n
  String.ofList (List.replicate (width - digits.length) '0') ++ digits

/-- The text of a timestamp, in universal time. The fraction has as many groups of three digits as
it needs. -/
def text (time : Timestamp) : String :=
  let (year, month, day) := dateOfDays (time.seconds / 86400)
  let second := (time.seconds % 86400).toNat
  let years :=
    if 0 ≤ year ∧ year ≤ 9999 then padded 4 year.toNat
    else (if year < 0 then "-" else "+") ++ padded 4 year.natAbs
  let nanos := time.nanos % 1000000000
  let fraction :=
    if nanos = 0 then ""
    else if nanos % 1000000 = 0 then "." ++ padded 3 (nanos / 1000000)
    else if nanos % 1000 = 0 then "." ++ padded 6 (nanos / 1000)
    else "." ++ padded 9 nanos
  years ++ "-" ++ padded 2 month ++ "-" ++ padded 2 day ++ "T" ++ padded 2 (second / 3600) ++ ":" ++
    padded 2 (second / 60 % 60) ++ ":" ++ padded 2 (second % 60 + time.nanos / 1000000000) ++
    fraction ++ "Z"

/-! ### Reading -/

/-- A row of at most `most` digits at the front of a text. -/
def digits? (most : Nat) (chars : List Char) : Option (Nat × List Char) := do
  let digits := (chars.takeWhile fun c => (Decimal.value? c).isSome).take most
  return (← Decimal.nat? digits, chars.drop digits.length)

/-- Two digits or one, after blanks. -/
def field? (chars : List Char) : Option (Nat × List Char) := digits? 2 (Text.trimStart chars)

/-- A given character, after blanks. -/
def separator? (separator : Char) (chars : List Char) : Option (List Char) :=
  match Text.trimStart chars with
  | c :: rest => if c = separator then some rest else none
  | [] => none

/-- A year, after blanks: up to four digits, or any number of digits after a sign. -/
def year? (chars : List Char) : Option (Int × List Char) :=
  match Text.trimStart chars with
  | '-' :: rest => (digits? rest.length rest).map fun (n, rest) => (-n, rest)
  | '+' :: rest => (digits? rest.length rest).map fun (n, rest) => (n, rest)
  | chars => (digits? 4 chars).map fun (n, rest) => (n, rest)

/-- A fraction of a second in nanoseconds, if there is one; digits past the ninth are dropped. -/
def fraction? : List Char → Option (Nat × List Char)
  | '.' :: rest =>
    let digits := rest.takeWhile fun c => (Decimal.value? c).isSome
    if digits.isEmpty then none
    else (Decimal.nat? ((digits.take 9).rightpad 9 '0')).map (·, rest.drop digits.length)
  | chars => some (0, chars)

/-- An offset from universal time in seconds: `Z`, `UTC`, or a sign, two digits for the hours and,
after colons or blanks, two digits for the minutes. -/
def offset? (chars : List Char) : Option (Int × List Char) :=
  let signed (sign : Int) (chars : List Char) : Option (Int × List Char) :=
    match chars with
    | h :: h' :: rest =>
      match rest.dropWhile fun c => c = ':' || Text.isBlank c with
      | m :: m' :: rest => do
        let hours ← Decimal.nat? [h, h']
        let minutes ← (Decimal.nat? [m, m']).filter (· < 60)
        if hours < 24 then return (sign * (3600 * hours + 60 * minutes), rest) else none
      | _ => none
    | _ => none
  match chars with
  | 'Z' :: rest => some (0, rest)
  | 'z' :: rest => some (0, rest)
  | '+' :: rest => signed 1 rest
  | '-' :: rest => signed (-1) rest
  | '−' :: rest => signed (-1) rest
  | u :: t :: c :: rest =>
    if [u.toUpper, t.toUpper, c.toUpper] = ['U', 'T', 'C'] then some (0, rest) else none
  | _ => none

/-- Reads a date, a time and an offset. Both the local date and the one in universal time have to be
on the calendar. -/
def parse? (text : String) : Option Timestamp := do
  let (year, rest) ← year? text.toList
  let (month, rest) ← field? (← separator? '-' rest)
  let (day, rest) ← field? (← separator? '-' rest)
  let rest ← match rest with
    | 'T' :: rest => some rest
    | 't' :: rest => some rest
    | ' ' :: rest => some rest
    | _ => none
  let (hour, rest) ← field? rest
  let (minute, rest) ← field? (← separator? ':' rest)
  let (second, rest) ← field? (← separator? ':' rest)
  let (nanos, rest) ← fraction? rest
  let (offset, rest) ← offset? (Text.trimStart rest)
  if 1 ≤ month ∧ month ≤ 12 ∧ 1 ≤ day ∧ day ≤ daysInMonth year month ∧
      hour < 24 ∧ minute < 60 ∧ second ≤ 60 ∧ (Text.trimStart rest).isEmpty then
    -- A leap second counts as part of the second before it.
    let leap := if second = 60 then 1 else 0
    let localSeconds := 86400 * daysOfDate year month day +
      (3600 * hour + 60 * minute + second - leap : Nat)
    let seconds := localSeconds - offset
    if isOnCalendar localSeconds && isOnCalendar seconds then
      return ⟨seconds, nanos + leap * 1000000000⟩
    else none
  else none

end Timestamp

end LinkState
