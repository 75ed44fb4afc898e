import TyprCompanion.Js.Json

/-!
# Dates

* `toISOString` — `new Date(ms).toISOString()`, for times since 1970.
-/

namespace Typr

/-- A number with at least `width` digits. -/
def padded (width n : Nat) : JSString :=
  let digits := jsNat n
  List.replicate (width - digits.length) (unit '0') ++ digits

/-- A day of the calendar. -/
structure CalendarDay where
  year : Nat
  month : Nat
  day : Nat
  deriving DecidableEq

/-- The day so many days after 1970-01-01.  Years are counted from March, in eras of 400. -/
def calendarDay (days : Nat) : CalendarDay :=
  let z := days + 719468
  let dayOfEra := z % 146097
  let yearOfEra := (dayOfEra - dayOfEra / 1460 + dayOfEra / 36524 - dayOfEra / 146096) / 365
  let dayOfYear := dayOfEra - (365 * yearOfEra + yearOfEra / 4 - yearOfEra / 100)
  let marchMonth := (5 * dayOfYear + 2) / 153
  let month := if marchMonth < 10 then marchMonth + 3 else marchMonth - 9
  { year := yearOfEra + z / 146097 * 400 + (if month ≤ 2 then 1 else 0)
    month
    day := dayOfYear - (153 * marchMonth + 2) / 5 + 1 }

/-- `toISOString` -/
def toISOString (ms : Nat) : JSString :=
  let date := calendarDay (ms / 86400000)
  let year := if 9999 < date.year then js "+" ++ padded 6 date.year else padded 4 date.year
  year ++ js "-" ++ padded 2 date.month ++ js "-" ++ padded 2 date.day ++ js "T" ++
    padded 2 (ms / 3600000 % 24) ++ js ":" ++ padded 2 (ms / 60000 % 60) ++ js ":" ++
    padded 2 (ms / 1000 % 60) ++ js "." ++ padded 3 (ms % 1000) ++ js "Z"

/-- A date has a text. -/
theorem toISOString_ne_nil (ms : Nat) : toISOString ms ≠ [] :=
  List.append_ne_nil_of_right_ne_nil _ (by decide)

example : toISOString 1582934400123 = js "2020-02-29T00:00:00.123Z" := by decide +kernel

end Typr
