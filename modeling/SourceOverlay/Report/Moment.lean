/-!
# Moments in time

A moment is a number of seconds since the beginning of 1970 and a fraction in nanoseconds. It is
written as a date and a time of day in Coordinated Universal Time, with as many groups of three
decimals as the fraction needs. A fraction of a whole second or more belongs to a leap second.
-/

set_option autoImplicit false

namespace SourceOverlay.Report

structure Moment where
  seconds : Int
  nanos : Nat := 0
  deriving Repr, DecidableEq

structure Date where
  year : Int
  month : Nat
  day : Nat
  deriving Repr, DecidableEq

/-- The date a number of days after the beginning of 1970. Years are counted from March, so that
a leap day is the last day of its year. -/
def Date.ofDays (days : Int) : Date :=
  let shifted := days + 719468
  let era := shifted.fdiv 146097
  let dayOfEra := shifted - era * 146097
  let yearOfEra := (dayOfEra - dayOfEra / 1460 + dayOfEra / 36524 - dayOfEra / 146096) / 365
  let dayOfYear := dayOfEra - (365 * yearOfEra + yearOfEra / 4 - yearOfEra / 100)
  let shiftedMonth := (5 * dayOfYear + 2) / 153
  let day := dayOfYear - (153 * shiftedMonth + 2) / 5 + 1
  let month := if shiftedMonth < 10 then shiftedMonth + 3 else shiftedMonth - 9
  let year := yearOfEra + era * 400 + (if month ≤ 2 then 1 else 0)
  ⟨year, month.toNat, day.toNat⟩

def padded (width n : Nat) : String :=
  let digits := toString n
  String.ofList (List.replicate (width - digits.length) '0') ++ digits

def Date.render (d : Date) : String :=
  let year :=
    if 0 ≤ d.year && d.year ≤ 9999 then padded 4 d.year.toNat
    else (if d.year < 0 then "-" else "+") ++ padded 4 d.year.natAbs
  year ++ "-" ++ padded 2 d.month ++ "-" ++ padded 2 d.day

def renderFraction (nanos : Nat) : String :=
  if nanos = 0 then ""
  else if nanos % 1000000 = 0 then "." ++ padded 3 (nanos / 1000000)
  else if nanos % 1000 = 0 then "." ++ padded 6 (nanos / 1000)
  else "." ++ padded 9 nanos

def Moment.render (m : Moment) : String :=
  let days := m.seconds.fdiv 86400
  let rest := (m.seconds - days * 86400).toNat
  let second := rest % 60 + m.nanos / 1000000000
  (Date.ofDays days).render ++ "T" ++ padded 2 (rest / 3600) ++ ":" ++ padded 2 (rest / 60 % 60) ++
    ":" ++ padded 2 second ++ renderFraction (m.nanos % 1000000000) ++ "+00:00"

end SourceOverlay.Report
