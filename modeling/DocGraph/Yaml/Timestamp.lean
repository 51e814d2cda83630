import DocGraph.Yaml.Schema
import DocGraph.Number.Integer

/-!
# Dates and times

A timestamp of YAML is a date, or a date with a time and perhaps the distance of its zone from
universal time. The calendar is the Gregorian one for the years 1 to 9999; a text of the right form
with a day or an hour that does not exist is no timestamp.
-/

namespace DocGraph.Yaml

/-- A day of the calendar. -/
structure Date where
  year : Nat
  month : Nat
  day : Nat
deriving DecidableEq, Repr

/-- A time on a day. The offset of the zone is in minutes east of universal time. -/
structure DateTime where
  date : Date
  hour : Nat
  minute : Nat
  second : Nat
  microsecond : Nat
  offset : Option Int
deriving DecidableEq, Repr

/-- A date, with or without a time. -/
inductive Timestamp
  | date (d : Date)
  | moment (t : DateTime)
deriving DecidableEq, Repr

namespace Date

/-- Whether a year has a leap day. -/
def isLeap (year : Nat) : Bool := year % 4 = 0 && (year % 100 ≠ 0 || year % 400 = 0)

/-- The number of days of a month. -/
def monthDays (year month : Nat) : Nat :=
  if month = 2 then (if isLeap year then 29 else 28)
  else if month ∈ [4, 6, 9, 11] then 30
  else 31

/-- Whether the day exists. -/
def isValid (d : Date) : Bool :=
  1 ≤ d.year && d.year ≤ 9999 && 1 ≤ d.month && d.month ≤ 12 && 1 ≤ d.day &&
    d.day ≤ monthDays d.year d.month

/-- The number of days of the first months of a year. -/
def daysOfMonths (year : Nat) : Nat → Nat
  | 0 => 0
  | months + 1 => daysOfMonths year months + monthDays year (months + 1)

/-- The number of days before a day, counted from the year 1. -/
def dayNumber (d : Date) : Nat :=
  let before := d.year - 1
  before * 365 + before / 4 - before / 100 + before / 400 + daysOfMonths d.year (d.month - 1) +
    (d.day - 1)

/-- A number with zeros in front up to a width. -/
def padded (width n : Nat) : Text :=
  let digits := writeNatural n
  List.replicate (width - digits.length) '0' ++ digits

def text (d : Date) : Text := padded 4 d.year ++ '-' :: padded 2 d.month ++ '-' :: padded 2 d.day

end Date

namespace DateTime

/-- Whether the time exists. A zone is less than a day away from universal time. -/
def isValid (t : DateTime) : Bool :=
  t.date.isValid && t.hour < 24 && t.minute < 60 && t.second < 60 &&
    t.offset.all fun minutes => minutes.natAbs < 24 * 60

/-- The offset of a zone as it is written. -/
def offsetText (minutes : Int) : Text :=
  (if minutes < 0 then '-' else '+') :: Date.padded 2 (minutes.natAbs / 60) ++
    ':' :: Date.padded 2 (minutes.natAbs % 60)

/-- A time as it is written, with a mark between date and time. -/
def text (mark : Char) (t : DateTime) : Text :=
  t.date.text ++ mark :: Date.padded 2 t.hour ++ ':' :: Date.padded 2 t.minute ++
    ':' :: Date.padded 2 t.second ++
    (if t.microsecond = 0 then [] else '.' :: Date.padded 6 t.microsecond) ++
    (t.offset.map offsetText).getD []

/-- The microseconds since the year 1, in universal time if the zone is known. -/
def instant (t : DateTime) : Int :=
  let minutes : Int := (t.date.dayNumber * 24 + t.hour : Nat) * 60 + t.minute - t.offset.getD 0
  (minutes * 60 + t.second) * 1000000 + t.microsecond

/-- Whether two times are the same instant. A time without a zone is never that of one with a zone.
-/
def isSame (a b : DateTime) : Bool :=
  a.offset.isSome == b.offset.isSome && a.instant = b.instant

end DateTime

/-- The value of ASCII digits. -/
def decimal (digits : Text) : Nat := Text.ofDigits 10 (digits.filterMap asciiDigit?)

/-- The microseconds that the digits of a fraction give. -/
def microseconds (fraction : Text) : Nat :=
  let digits := fraction.take 6
  decimal digits * tenTo (6 - digits.length)

/-- The offset of a written zone, in minutes. -/
def zoneOffset (zone : Text) : Option Int :=
  match zone with
  | [] => none
  | ['Z'] => some 0
  | sign :: rest =>
    let hours := decimal (rest.takeWhile isAsciiDigit)
    let minutes := decimal (rest.dropWhile isAsciiDigit)
    some (signed (sign = '-') (hours * 60 + minutes))

namespace Timestamp

/-- The timestamp that its parts describe, if it exists. -/
def ofParts? (parts : TimestampParts) : Option Timestamp :=
  let d : Date := ⟨decimal parts.year, decimal parts.month, decimal parts.day⟩
  if parts.hour.isEmpty then if d.isValid then some (date d) else none
  else
    let t : DateTime :=
      ⟨d, decimal parts.hour, decimal parts.minute, decimal parts.second,
        microseconds parts.fraction, zoneOffset parts.zone⟩
    if t.isValid then some (moment t) else none

/-- A timestamp as it is written, with a mark between date and time. -/
def text (mark : Char) : Timestamp → Text
  | date d => d.text
  | moment t => t.text mark

def isSame : Timestamp → Timestamp → Bool
  | date a, date b => a == b
  | moment a, moment b => a.isSame b
  | _, _ => false

end Timestamp

end DocGraph.Yaml
