import SignOn.Text.Search

/-! # Timestamps

Milliseconds since 1970 as date and time of day in the calendar that is used everywhere. -/

namespace SignOn.Timestamp

/-- A date of the calendar. -/
structure Date where
  year : Int
  month : Nat
  day : Nat
deriving DecidableEq, Repr

/-- The date of a day, counted from the first of January 1970.  Years are taken to begin in March,
so that the leap day is their last. -/
def dateOf (days : Int) : Date :=
  let z := days + 719468
  let era := z.fdiv 146097
  let dayOfEra : Nat := (z.fmod 146097).toNat
  let yearOfEra := (dayOfEra - dayOfEra / 1460 + dayOfEra / 36524 - dayOfEra / 146096) / 365
  let dayOfYear := dayOfEra - (365 * yearOfEra + yearOfEra / 4 - yearOfEra / 100)
  let m := (5 * dayOfYear + 2) / 153
  let month := if m < 10 then m + 3 else m - 9
  { year := yearOfEra + era * 400 + (if month ≤ 2 then 1 else 0)
    month
    day := dayOfYear - (153 * m + 2) / 5 + 1 }

/-- A year: four digits, and a sign if they do not suffice. -/
def yearText (y : Int) : String :=
  if 0 ≤ y ∧ y ≤ 9999 then Text.padNat 4 y.toNat
  else (if y < 0 then "-" else "+") ++ Text.padNat 4 y.natAbs

/-- Date and time of day with `between` in between them. -/
def text (between : String) (millis : Int) : String :=
  let seconds := millis.fdiv 1000
  let date := dateOf (seconds.fdiv 86400)
  let rest : Nat := (seconds.fmod 86400).toNat
  yearText date.year ++ "-" ++ Text.padNat 2 date.month ++ "-" ++ Text.padNat 2 date.day
    ++ between ++ Text.padNat 2 (rest / 3600) ++ ":" ++ Text.padNat 2 (rest / 60 % 60) ++ ":"
    ++ Text.padNat 2 (rest % 60)

/-- The form of documents: a `T` in between, milliseconds unless there are none, and a `Z`. -/
def inDocument (millis : Int) : String :=
  let fraction := (millis.fmod 1000).toNat
  text "T" millis ++ (if fraction = 0 then "" else "." ++ Text.padNat 3 fraction) ++ "Z"

end SignOn.Timestamp
