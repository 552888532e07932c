import StumpGen.Text

/-!
# Points in time

An instant counts from the start of 1970 in universal time and is shown in a zone that is a
number of minutes ahead of it.
-/

namespace StumpGen

/-- A point in time. -/
structure Instant where
  /-- Whole seconds since the start of 1970. -/
  seconds : Int := 0
  /-- Nanoseconds on top of them. -/
  nanos : Int := 0
  /-- How many minutes the zone is ahead of universal time. -/
  zone : Int := 0
  deriving DecidableEq, Repr, Inhabited

namespace Instant

/-- Year, month and day of a day counted from the start of 1970.  Years are counted from March,
so that a leap day is the last one, and in eras of 400 years. -/
def date (day : Int) : Int × Nat × Nat :=
  let z := day + 719468
  let era := z / 146097
  let doe := (z % 146097).toNat
  let yoe := (doe - doe / 1460 + doe / 36524 - doe / 146096) / 365
  let doy := doe - (365 * yoe + yoe / 4 - yoe / 100)
  let mp := (5 * doy + 2) / 153
  let d := doy - (153 * mp + 2) / 5 + 1
  let m := if mp < 10 then mp + 3 else mp - 9
  let y := (yoe : Int) + era * 400
  (if m ≤ 2 then y + 1 else y, m, d)

/-- A number with at least `width` digits. -/
def digits (width : Nat) (n : Nat) : Text := Text.padZeros width (Text.ofNat n)

/-- A year with at least four digits. -/
def yearText (y : Int) : Text :=
  if y < 0 then "-" ++ digits 4 y.natAbs else digits 4 y.toNat

/-- The zone: `Z` for universal time, else its sign, hours and minutes. -/
def zoneText (minutes : Int) : Text :=
  if minutes = 0 then "Z"
  else (if minutes < 0 then "-" else "+") ++ digits 2 (minutes.natAbs / 60) ++ ":"
    ++ digits 2 (minutes.natAbs % 60)

/-- Date and time to the microsecond, with the zone. -/
def text (i : Instant) : Text :=
  let local' := i.seconds + i.nanos / 1000000000 + i.zone * 60
  let (y, m, d) := date (local' / 86400)
  let s := (local' % 86400).toNat
  yearText y ++ "-" ++ digits 2 m ++ "-" ++ digits 2 d ++ "T"
    ++ digits 2 (s / 3600) ++ ":" ++ digits 2 (s / 60 % 60) ++ ":" ++ digits 2 (s % 60)
    ++ "." ++ digits 6 ((i.nanos % 1000000000).toNat / 1000) ++ zoneText i.zone

end Instant

end StumpGen
