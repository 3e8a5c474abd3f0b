/-!
# Dates and times

A moment as it is seen at some offset from universal time, in the calendar of our days extended to
all years, and two texts that tell when something happened.
-/

namespace WireBench.Clock

/-- A moment: seconds since the start of 1970, whether it lies in the leap second that follows that
second, and by how many seconds local time is ahead. -/
structure Moment where
  seconds : Int
  inLeap : Bool
  offset : Int
  deriving DecidableEq, Repr

structure Date where
  year : Int
  month : Nat
  day : Nat
  deriving DecidableEq, Repr

structure TimeOfDay where
  hour : Nat
  minute : Nat
  second : Nat
  deriving DecidableEq, Repr

/-- The day so many days after the start of 1970. Years are counted from March, so that the leap day
comes last, in eras of 400 years, all of which have 146097 days. -/
def dateOfDay (days : Int) : Date :=
  let fromMarch := days + 719468
  let era := fromMarch.fdiv 146097
  let dayOfEra := (fromMarch.fmod 146097).toNat
  let yearOfEra := (dayOfEra - dayOfEra / 1460 + dayOfEra / 36524 - dayOfEra / 146096) / 365
  let dayOfYear := dayOfEra - (365 * yearOfEra + yearOfEra / 4 - yearOfEra / 100)
  let monthFromMarch := (5 * dayOfYear + 2) / 153
  let day := dayOfYear - (153 * monthFromMarch + 2) / 5 + 1
  let month := if monthFromMarch < 10 then monthFromMarch + 3 else monthFromMarch - 9
  let year : Int := yearOfEra + era * 400
  ⟨if month ≤ 2 then year + 1 else year, month, day⟩

namespace Moment

def localSeconds (moment : Moment) : Int :=
  moment.seconds + moment.offset

def date (moment : Moment) : Date :=
  dateOfDay (moment.localSeconds.fdiv 86400)

/-- The local time of the day. A leap second counts one more than the second before it. -/
def time (moment : Moment) : TimeOfDay :=
  let ofDay := (moment.localSeconds.fmod 86400).toNat
  ⟨ofDay / 3600, ofDay / 60 % 60, ofDay % 60 + if moment.inLeap then 1 else 0⟩

end Moment

def padded (width n : Nat) : String :=
  let digits := Nat.toDigits 10 n
  String.ofList (List.replicate (width - digits.length) '0' ++ digits)

/-- A year in four digits; one before the year 0 or after 9999 has a sign. -/
def yearText (year : Int) : String :=
  if 0 ≤ year ∧ year ≤ 9999 then padded 4 year.toNat
  else if year < 0 then "-" ++ padded 4 year.natAbs
  else "+" ++ padded 4 year.natAbs

def Date.toText (date : Date) : String :=
  yearText date.year ++ "-" ++ padded 2 date.month ++ "-" ++ padded 2 date.day

def TimeOfDay.toText (time : TimeOfDay) : String :=
  padded 2 time.hour ++ ":" ++ padded 2 time.minute ++ ":" ++ padded 2 time.second

def acknowledgment (moment : Moment) : String :=
  "Message received at " ++ moment.time.toText ++ "."

def stamped (message : String) (moment : Moment) : String :=
  "[" ++ moment.date.toText ++ " " ++ moment.time.toText ++ "] " ++ message

end WireBench.Clock
