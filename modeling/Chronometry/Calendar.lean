/-! Civil dates and times of day in UTC. -/
namespace Chronometry.Calendar

structure Date where
  year : Nat
  month : Nat
  day : Nat
deriving DecidableEq

/-- The date of a day counted from 1970-01-01. Years are counted from March, so that the leap day is
the last day of its year, in cycles of 400 years. -/
def Date.ofDays (days : Nat) : Date :=
  let shifted := days + 719468
  let cycle := shifted / 146097
  let dayOfCycle := shifted % 146097
  let yearOfCycle := (dayOfCycle - dayOfCycle / 1460 + dayOfCycle / 36524 - dayOfCycle / 146096) / 365
  let dayOfYear := dayOfCycle - (365 * yearOfCycle + yearOfCycle / 4 - yearOfCycle / 100)
  let month := (5 * dayOfYear + 2) / 153
  let day := dayOfYear - (153 * month + 2) / 5 + 1
  let year := yearOfCycle + cycle * 400
  if month < 10 then ⟨year, month + 3, day⟩ else ⟨year + 1, month - 9, day⟩

def padded (width n : Nat) : String := "".pushn '0' (width - n.repr.length) ++ n.repr

/-- An instant in milliseconds since 1970-01-01, as date, time of day and milliseconds. -/
def instantText (ms : Nat) : String :=
  let date := Date.ofDays (ms / 86400000)
  let day := padded 4 date.year ++ "-" ++ padded 2 date.month ++ "-" ++ padded 2 date.day
  let time := padded 2 (ms / 3600000 % 24) ++ ":" ++ padded 2 (ms / 60000 % 60) ++ ":" ++
    padded 2 (ms / 1000 % 60) ++ "." ++ padded 3 (ms % 1000)
  day ++ " " ++ time

end Chronometry.Calendar
