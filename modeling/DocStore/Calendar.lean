import DocStore.Text.Numeral

/-!
# Moments as text

A moment is counted in milliseconds from the start of 1970. `Moment.text` writes it by the calendar
in which every fourth year is a leap year, except for three of every four full centuries, extended
without end in both directions, as far as the year has four digits.

* `Moment.yearMonthDay` is the calendar date of a day; days are counted in cycles of 400 years that
  start on a first of March, so that a leap day is the last day of its cycle.
-/

namespace DocStore.Moment

/-- The number of milliseconds in a day. -/
def millisPerDay : Int := 86400000

/-- Year, month and day of a day, counted from the first of January 1970. -/
def yearMonthDay (days : Int) : Int × Nat × Nat :=
  let shifted := days + 719468
  let cycle := shifted / 146097
  let dayOfCycle := (shifted % 146097).toNat
  let yearOfCycle :=
    (dayOfCycle - dayOfCycle / 1460 + dayOfCycle / 36524 - dayOfCycle / 146096) / 365
  let dayOfYear := dayOfCycle - (365 * yearOfCycle + yearOfCycle / 4 - yearOfCycle / 100)
  let monthFromMarch := (5 * dayOfYear + 2) / 153
  let day := dayOfYear - (153 * monthFromMarch + 2) / 5 + 1
  let month := if monthFromMarch < 10 then monthFromMarch + 3 else monthFromMarch - 9
  let year := (yearOfCycle : Int) + 400 * cycle + (if month ≤ 2 then 1 else 0)
  (year, month, day)

/-- A year with a sign where it is negative and at least four digits. -/
def yearText (year : Int) : String :=
  if year < 0 then "-" ++ Text.padded 4 (-year).toNat else Text.padded 4 year.toNat

/-- Thousandths without trailing zeros, with one digit at least. -/
def fractionText (millis : Nat) : String :=
  if millis % 100 = 0 then toString (millis / 100)
  else if millis % 10 = 0 then Text.padded 2 (millis / 10)
  else Text.padded 3 millis

/-- A moment by the calendar when its year has at most four digits, as plain milliseconds
otherwise. -/
def text (millis : Int) : String :=
  let (year, month, day) := yearMonthDay (millis / millisPerDay)
  let ofDay := (millis % millisPerDay).toNat
  if -9999 ≤ year ∧ year ≤ 9999 then
    yearText year ++ "-" ++ Text.padded 2 month ++ "-" ++ Text.padded 2 day ++ " " ++
      toString (ofDay / 3600000) ++ ":" ++ Text.padded 2 (ofDay / 60000 % 60) ++ ":" ++
      Text.padded 2 (ofDay / 1000 % 60) ++ "." ++ fractionText (ofDay % 1000) ++ " +00:00:00"
  else toString millis

end DocStore.Moment
