/-!
# Timestamps

Points in time as texts in the form of RFC 3339: date, time of day with milliseconds, and the offset
of universal time.
-/

namespace EcosystemSetup.Timestamp

/-- A calendar date. -/
structure Date where
  year : Nat
  month : Nat
  day : Nat
  deriving DecidableEq, Repr

/-- The date of a day, counted from the first of January 1970. Years are taken to begin in March, so
that the leap day is the last of its year; 146097 days make 400 years. -/
def Date.ofDay (day : Nat) : Date :=
  let shifted := day + 719468
  let era := shifted / 146097
  let dayOfEra := shifted % 146097
  let yearOfEra := (dayOfEra - dayOfEra / 1460 + dayOfEra / 36524 - dayOfEra / 146096) / 365
  let dayOfYear := dayOfEra - (365 * yearOfEra + yearOfEra / 4 - yearOfEra / 100)
  let monthFromMarch := (5 * dayOfYear + 2) / 153
  let month := if monthFromMarch < 10 then monthFromMarch + 3 else monthFromMarch - 9
  { year := yearOfEra + era * 400 + (if month ≤ 2 then 1 else 0)
    month
    day := dayOfYear - (153 * monthFromMarch + 2) / 5 + 1 }

/-- A number with leading zeros to a width. -/
def padded (width n : Nat) : String :=
  let digits := toString n
  String.ofList (List.replicate (width - digits.length) '0') ++ digits

/-- The timestamp of a time in milliseconds from the beginning of 1970. -/
def ofMillis (millis : Nat) : String :=
  let date := Date.ofDay (millis / 86400000)
  let rest := millis % 86400000
  padded 4 date.year ++ "-" ++ padded 2 date.month ++ "-" ++ padded 2 date.day ++ "T" ++
    padded 2 (rest / 3600000) ++ ":" ++ padded 2 (rest / 60000 % 60) ++ ":" ++
    padded 2 (rest / 1000 % 60) ++ "." ++ padded 3 (rest % 1000) ++ "+00:00"

example : ofMillis 0 = "1970-01-01T00:00:00.000+00:00" := by decide +kernel

example : ofMillis 1709211600123 = "2024-02-29T13:00:00.123+00:00" := by decide +kernel

end EcosystemSetup.Timestamp
