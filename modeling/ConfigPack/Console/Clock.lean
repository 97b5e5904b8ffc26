/-!
# Clocks

The date and the time of day of a number of seconds since the beginning of 1970, without leap
seconds. Years are counted from March, so that the leap day is the last day of a year.
-/

namespace ConfigPack.Console

/-- A date of the calendar. -/
structure Date where
  year : Nat
  month : Nat
  day : Nat
deriving DecidableEq, Repr

/-- The date of a number of days since the beginning of 1970. -/
def Date.ofDays (days : Nat) : Date :=
  let shifted := days + 719468
  let era := shifted / 146097
  let inEra := shifted % 146097
  let yearOfEra := (inEra - inEra / 1460 + inEra / 36524 - inEra / 146096) / 365
  let inYear := inEra - (365 * yearOfEra + yearOfEra / 4 - yearOfEra / 100)
  let fromMarch := (5 * inYear + 2) / 153
  let day := inYear - (153 * fromMarch + 2) / 5 + 1
  let month := if fromMarch < 10 then fromMarch + 3 else fromMarch - 9
  ⟨yearOfEra + 400 * era + (if month ≤ 2 then 1 else 0), month, day⟩

/-- A number with at least some digits. -/
def padded (width n : Nat) : String :=
  let digits := toString n
  String.ofList (List.replicate (width - digits.length) '0') ++ digits

/-- The text of a date. -/
def Date.text (date : Date) : String :=
  padded 4 date.year ++ "-" ++ padded 2 date.month ++ "-" ++ padded 2 date.day

/-- The time of day at a number of seconds. -/
def timeOfDay (seconds : Nat) : String :=
  let inDay := seconds % 86400
  padded 2 (inDay / 3600) ++ ":" ++ padded 2 (inDay / 60 % 60) ++ ":" ++ padded 2 (inDay % 60)

/-- The date and the time of day at a number of seconds. -/
def moment (seconds : Nat) : String :=
  (Date.ofDays (seconds / 86400)).text ++ " " ++ timeOfDay seconds

end ConfigPack.Console
