import WorkloadIdentity.Number.Written

/-! Instants as milliseconds since the start of 1970, and their calendar text.
Days are turned into a date of the proleptic Gregorian calendar by counting from
the first of March, so that a leap day is the last day of its year. Years outside
`0 .. 9999` carry a sign and six digits. -/

namespace WorkloadIdentity.Clock

structure Date where
  year : Int
  month : Nat
  day : Nat

def Date.ofDays (days : Int) : Date :=
  let shifted := days + 719468
  let era := shifted.fdiv 146097
  let dayOfEra := (shifted.fmod 146097).toNat
  let yearOfEra := (dayOfEra - dayOfEra / 1460 + dayOfEra / 36524 - dayOfEra / 146096) / 365
  let dayOfYear := dayOfEra - (365 * yearOfEra + yearOfEra / 4 - yearOfEra / 100)
  let fromMarch := (5 * dayOfYear + 2) / 153
  let month := if fromMarch < 10 then fromMarch + 3 else fromMarch - 9
  { year := yearOfEra + era * 400 + (if month ≤ 2 then 1 else 0)
    month := month
    day := dayOfYear - (153 * fromMarch + 2) / 5 + 1 }

def padded (width n : Nat) : List Char :=
  let digits := Number.decimalDigits n
  List.replicate (width - digits.length) '0' ++ digits

def yearText (year : Int) : List Char :=
  if 0 ≤ year ∧ year ≤ 9999 then padded 4 year.toNat
  else (if year < 0 then '-' else '+') :: padded 6 year.natAbs

def instantText (ms : Int) : String :=
  let date := Date.ofDays (ms.fdiv 86400000)
  let time := (ms.fmod 86400000).toNat
  String.ofList (yearText date.year ++ '-' :: padded 2 date.month ++ '-' :: padded 2 date.day
    ++ 'T' :: padded 2 (time / 3600000) ++ ':' :: padded 2 (time / 60000 % 60)
    ++ ':' :: padded 2 (time / 1000 % 60) ++ '.' :: padded 3 (time % 1000) ++ ['Z'])

def instant? (reading : Float) : Option Int :=
  (Number.truncate? reading).bind fun ms =>
    if reading.abs ≤ 8640000000000000 then some ms else none

end WorkloadIdentity.Clock
