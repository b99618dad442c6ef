/-
Moments in time: whole seconds since the start of 1970, and nanoseconds within the second. A leap
second is kept as a fraction of `10^9` nanoseconds or more on the second before it.

The calendar is the proleptic Gregorian one. A moment lies in range when its date does.
-/

namespace Placement

/-- A moment in time. -/
structure Timestamp where
  /-- Whole seconds since 1970-01-01T00:00:00Z. -/
  seconds : Int
  /-- Nanoseconds within the second; `10^9` and more within a leap second. -/
  nanos : Nat
  deriving DecidableEq, Repr

namespace Timestamp

/-! ## Calendar -/

/-- A calendar date; the year before year 1 is year 0. -/
structure Date where
  year : Int
  month : Nat
  day : Nat
  deriving DecidableEq, Repr

def isLeapYear (y : Int) : Bool := y % 4 == 0 && (y % 100 != 0 || y % 400 == 0)

/-- The number of days of a month. -/
def daysInMonth (y : Int) (m : Nat) : Nat :=
  if m == 2 then (if isLeapYear y then 29 else 28)
  else if m == 4 || m == 6 || m == 9 || m == 11 then 30
  else 31

def firstYear : Int := -262143

def lastYear : Int := 262142

/-- A date of the calendar within the years that are kept. -/
def Date.isValid (d : Date) : Bool :=
  firstYear ≤ d.year && d.year ≤ lastYear && 1 ≤ d.month && d.month ≤ 12
    && 1 ≤ d.day && d.day ≤ daysInMonth d.year d.month

/-- Days from 1970-01-01 to a date. Years are counted from March, so that a leap day comes last. -/
def Date.toDays (d : Date) : Int :=
  let y := if d.month ≤ 2 then d.year - 1 else d.year
  let yearOfEra := y % 400
  let dayOfYear : Int := ((153 * ((d.month + 9) % 12) + 2) / 5 + d.day - 1 : Nat)
  let dayOfEra := yearOfEra * 365 + yearOfEra / 4 - yearOfEra / 100 + dayOfYear
  y / 400 * 146097 + dayOfEra - 719468

/-- The date a number of days after 1970-01-01. -/
def Date.ofDays (days : Int) : Date :=
  let z := days + 719468
  let dayOfEra := z % 146097
  let yearOfEra :=
    (dayOfEra - dayOfEra / 1460 + dayOfEra / 36524 - dayOfEra / 146096) / 365
  let dayOfYear := dayOfEra - (365 * yearOfEra + yearOfEra / 4 - yearOfEra / 100)
  let monthFromMarch := ((5 * dayOfYear + 2) / 153).toNat
  let day := (dayOfYear.toNat - (153 * monthFromMarch + 2) / 5) + 1
  let month := if monthFromMarch < 10 then monthFromMarch + 3 else monthFromMarch - 9
  ⟨yearOfEra + z / 146097 * 400 + (if month ≤ 2 then 1 else 0), month, day⟩

example : (Date.mk 1970 1 1).toDays = 0 ∧ (Date.mk 2000 2 29).toDays = 11016 := by decide
example : Date.ofDays 11016 = ⟨2000, 2, 29⟩ ∧ Date.ofDays (-1) = ⟨1969, 12, 31⟩ := by decide

/-- The date of a moment. -/
def date (t : Timestamp) : Date := Date.ofDays (t.seconds / 86400)

/-- Seconds since midnight. -/
def secondOfDay (t : Timestamp) : Nat := (t.seconds % 86400).toNat

/-- The date lies within the years that are kept. -/
def inRange (t : Timestamp) : Bool :=
  firstYear ≤ t.date.year && t.date.year ≤ lastYear

/-! ## Order and spans -/

/-- `a` is at or before `b`. -/
def atMost (a b : Timestamp) : Bool :=
  a.seconds < b.seconds || (a.seconds == b.seconds && a.nanos ≤ b.nanos)

/-- Nanoseconds from `a` to `b`. Between two times of day a leap second of the earlier time of day
is counted once. -/
def nanosBetween (a b : Timestamp) : Int :=
  let leap : Int :=
    if a.secondOfDay < b.secondOfDay then (if 1000000000 ≤ a.nanos then 1 else 0)
    else if b.secondOfDay < a.secondOfDay then (if 1000000000 ≤ b.nanos then -1 else 0)
    else 0
  (b.seconds - a.seconds + leap) * 1000000000 + ((b.nanos : Int) - (a.nanos : Int))

/-- Nanoseconds that have passed from `since` to `now`; zero where `since` lies in the future. -/
def elapsed (since now : Timestamp) : Nat := (nanosBetween since now).toNat

/-- The moment `nanos` nanoseconds later, whether in range or not. A moment within a leap second
leaves it where a whole second is added or taken, or the fraction runs over. -/
def shift (t : Timestamp) (nanos : Int) : Timestamp :=
  let whole := nanos.tdiv 1000000000
  let part := nanos.tmod 1000000000
  let inLeap := 1000000000 ≤ t.nanos
  if inLeap && whole == 0 && (t.nanos : Int) + part < 2000000000 then
    ⟨t.seconds, (t.nanos + part).toNat⟩
  else
    let frac : Int := if inLeap then (t.nanos : Int) - 1000000000 else t.nanos
    let base := if inLeap && whole < 0 then t.seconds + 1 else t.seconds
    let total := frac + part
    ⟨base + whole + total / 1000000000, (total % 1000000000).toNat⟩

/-- The moment some milliseconds later, `none` outside the calendar that is kept. -/
def addMillis? (t : Timestamp) (ms : Int) : Option Timestamp :=
  let r := t.shift (ms * 1000000)
  if r.inRange then some r else none

/-- Whole milliseconds since 1970, zero before. -/
def millisSince1970 (t : Timestamp) : Nat :=
  (t.seconds * 1000 + (t.nanos / 1000000 : Nat)).toNat

end Timestamp

end Placement
