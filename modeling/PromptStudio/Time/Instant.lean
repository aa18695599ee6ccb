import PromptStudio.Json.Decode
import PromptStudio.Text.Blank

/-!
# Points in time

An `Instant` is a date and a time of day in universal time. It is read from the form
`2025-01-31T12:30:00.5+01:00`: blanks may stand before each part, the date and the time may be
separated by a blank, the year may have a sign and more than four digits, and the offset may be
`Z`, `UTC` or hours and minutes. It is written with `Z` and with as many of 0, 3, 6 or 9 digits of
the second as are needed. A leap second is the second 59 with a fraction of one second or more.
-/

namespace PromptStudio

/-- A point in time: a date and a time of day in universal time. -/
structure Instant where
  year : Int
  month : Nat
  day : Nat
  hour : Nat
  minute : Nat
  second : Nat
  nanosecond : Nat
deriving DecidableEq, Repr, Inhabited

namespace Instant

/-! ## The calendar -/

/-- Has a 29th of February. -/
def isLeapYear (year : Int) : Bool :=
  year % 4 = 0 && (year % 100 != 0 || year % 400 = 0)

/-- The number of days of a month. -/
def daysIn (year : Int) (month : Nat) : Nat :=
  if month = 2 then if isLeapYear year then 29 else 28
  else if month = 4 || month = 6 || month = 9 || month = 11 then 30
  else 31

/-- The first and the last year. -/
def firstYear : Int := -262143

/-- The last year. -/
def lastYear : Int := 262142

/-- The date is one of the calendar. -/
def isDate (year : Int) (month day : Nat) : Bool :=
  firstYear ≤ year && year ≤ lastYear && 1 ≤ month && month ≤ 12 && 1 ≤ day &&
    day ≤ daysIn year month

/-- The day before. -/
def dayBefore (year : Int) (month day : Nat) : Int × Nat × Nat :=
  if 1 < day then (year, month, day - 1)
  else if 1 < month then (year, month - 1, daysIn year (month - 1))
  else (year - 1, 12, 31)

/-- The day after. -/
def dayAfter (year : Int) (month day : Nat) : Int × Nat × Nat :=
  if day < daysIn year month then (year, month, day + 1)
  else if month < 12 then (year, month + 1, 1)
  else (year + 1, 1, 1)

/-- The point in time at which clocks `offset` seconds ahead of universal time show this date and
time. The offset is less than a day. -/
def ofLocal? (shown : Instant) (offset : Int) : Option Instant :=
  let seconds : Int := (shown.hour * 60 + shown.minute) * 60 + shown.second - offset
  let (year, month, day) :=
    if seconds < 0 then dayBefore shown.year shown.month shown.day
    else if 86400 ≤ seconds then dayAfter shown.year shown.month shown.day
    else (shown.year, shown.month, shown.day)
  let left := (seconds % 86400).toNat
  if isDate year month day then
    some { year, month, day, hour := left / 3600, minute := left / 60 % 60, second := left % 60,
           nanosecond := shown.nanosecond }
  else none

/-! ## Reading -/

open Text

/-- A decimal digit. -/
def isDigit (c : Char) : Bool := '0' ≤ c && c ≤ '9'

/-- The number that digits write. -/
def digitsValue (ds : List Char) : Nat := ds.foldl (fun n d => n * 10 + (d.toNat - 0x30)) 0

/-- A number of one to `most` digits. -/
def number? (most : Nat) (cs : List Char) : Option (Nat × List Char) :=
  match (cs.take most).takeWhile isDigit with
  | [] => none
  | ds => some (digitsValue ds, cs.drop ds.length)

/-- A number of one or two digits behind blanks, within bounds. -/
def part? (least most : Nat) (cs : List Char) : Option (Nat × List Char) := do
  let (n, rest) ← number? 2 (dropBlanks cs)
  if least ≤ n && n ≤ most then some (n, rest) else none

/-- A year: four digits, or any number of them behind a sign. -/
def year? (cs : List Char) : Option (Int × List Char) :=
  match dropBlanks cs with
  | '-' :: rest => (number? rest.length rest).map fun r => (-(r.1 : Int), r.2)
  | '+' :: rest => (number? rest.length rest).map fun r => ((r.1 : Int), r.2)
  | rest => (number? 4 rest).map fun r => ((r.1 : Int), r.2)

/-- The mark `c` behind blanks. -/
def mark? (c : Char) (cs : List Char) : Option (List Char) :=
  match dropBlanks cs with
  | d :: rest => if c = d then some rest else none
  | [] => none

/-- The separator of date and time. -/
def separator? : List Char → Option (List Char)
  | c :: rest => if c = 't' || c = 'T' || c = ' ' then some rest else none
  | [] => none

/-- The nanoseconds of a fraction, if one is there; digits behind the ninth are dropped. -/
def fraction? : List Char → Option (Nat × List Char)
  | '.' :: rest =>
    match rest.takeWhile isDigit with
    | [] => none
    | ds =>
      let kept := ds.take 9
      some (digitsValue kept * Nat.pow 10 (9 - kept.length), rest.dropWhile isDigit)
  | rest => some (0, rest)

/-- Two digits. -/
def twoDigits? : List Char → Option (Nat × List Char)
  | a :: b :: rest => if isDigit a && isDigit b then some (digitsValue [a, b], rest) else none
  | _ => none

/-- The offset from universal time in seconds. -/
def offset? (cs : List Char) : Option (Int × List Char) :=
  match dropBlanks cs with
  | 'Z' :: rest | 'z' :: rest => some (0, rest)
  | c :: rest =>
    if (c :: rest.take 2).map Char.toLower == ['u', 't', 'c'] then some (0, rest.drop 2)
    else if c = '+' || c = '-' || c = '\u2212' then do
      let (hours, rest) ← twoDigits? rest
      let (minutes, rest) ← twoDigits? (rest.dropWhile fun c => c == ':' || isBlank c)
      if 60 ≤ minutes then none
      else
        let seconds : Int := (hours * 60 + minutes) * 60
        some (if c = '+' then seconds else -seconds, rest)
    else none
  | [] => none

/-- Reads a point in time. -/
def ofText? (text : String) : Option Instant := do
  let (year, rest) ← year? text.toList
  let rest ← mark? '-' rest
  let (month, rest) ← part? 1 12 rest
  let rest ← mark? '-' rest
  let (day, rest) ← part? 1 31 rest
  let rest ← separator? rest
  let (hour, rest) ← part? 0 23 rest
  let rest ← mark? ':' rest
  let (minute, rest) ← part? 0 59 rest
  let rest ← mark? ':' rest
  let (second, rest) ← part? 0 60 rest
  let (fraction, rest) ← fraction? rest
  let (offset, rest) ← offset? rest
  if !(dropBlanks rest).isEmpty || 86400 ≤ offset.natAbs || !isDate year month day then none
  else
    ofLocal?
      { year, month, day, hour, minute
        second := min second 59
        nanosecond := fraction + if second = 60 then 1000000000 else 0 }
      offset

/-! ## Writing -/

/-- A number with at least `width` digits. -/
def padded (width n : Nat) : String :=
  let digits := (toString n).toList
  String.ofList (List.replicate (width - digits.length) '0' ++ digits)

/-- A year: four digits, or a sign and at least four digits outside the years 0 to 9999. -/
def yearText (year : Int) : String :=
  if 0 ≤ year && year ≤ 9999 then padded 4 year.natAbs
  else (if year < 0 then "-" else "+") ++ padded 4 year.natAbs

/-- The fraction of a second. -/
def fractionText (nanos : Nat) : String :=
  if nanos = 0 then ""
  else if nanos % 1000000 = 0 then "." ++ padded 3 (nanos / 1000000)
  else if nanos % 1000 = 0 then "." ++ padded 6 (nanos / 1000)
  else "." ++ padded 9 nanos

/-- The date. -/
def dateText (i : Instant) : String :=
  yearText i.year ++ "-" ++ padded 2 i.month ++ "-" ++ padded 2 i.day

/-- Writes a point in time; a leap second is shown as second 60. -/
def text (i : Instant) : String :=
  let leap := 1000000000 ≤ i.nanosecond
  i.dateText ++ "T" ++ padded 2 i.hour ++ ":" ++ padded 2 i.minute ++ ":" ++
    padded 2 (if leap then i.second + 1 else i.second) ++
    fractionText (if leap then i.nanosecond - 1000000000 else i.nanosecond) ++ "Z"

/-- The date and the minute, as shown in listings. -/
def minuteText (i : Instant) : String :=
  i.dateText ++ " " ++ padded 2 i.hour ++ ":" ++ padded 2 i.minute

/-- Reads a point in time. -/
def decode (src : Source) : Option Instant := src.text?.bind ofText?

/-- Writes a point in time. -/
def encode (i : Instant) : Json := .str i.text

end Instant

end PromptStudio
