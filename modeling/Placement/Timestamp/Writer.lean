/-
The text of a moment: date and time in UTC, with 0, 3, 6 or 9 digits of fraction, the fewest that
are exact. Years outside 0 to 9999 carry a sign.
-/
import Placement.Timestamp
import Placement.Text.Digits

namespace Placement.Timestamp

open Text

/-- How the zone of UTC is written. -/
inductive ZoneText where
  /-- The letter `Z`. -/
  | letter
  /-- The offset `+00:00`. -/
  | offset
  deriving DecidableEq, Repr

def ZoneText.chars : ZoneText → List Char
  | .letter => ['Z']
  | .offset => ['+', '0', '0', ':', '0', '0']

/-- Four digits, or a sign and at least four digits outside 0 to 9999. -/
def yearChars (y : Int) : List Char :=
  if 0 ≤ y ∧ y ≤ 9999 then padded 4 y.toNat
  else (if y < 0 then '-' else '+') :: padded 4 y.natAbs

/-- The fraction of a second, with its point; nothing for a whole second. -/
def fractionChars (nanos : Nat) : List Char :=
  if nanos = 0 then []
  else if nanos % 1000000 = 0 then '.' :: padded 3 (nanos / 1000000)
  else if nanos % 1000 = 0 then '.' :: padded 6 (nanos / 1000)
  else '.' :: padded 9 nanos

/-- The characters of a moment; a leap second is written as second 60. -/
def chars (zone : ZoneText) (t : Timestamp) : List Char :=
  let d := t.date
  let s := t.secondOfDay
  let isLeap := 1000000000 ≤ t.nanos
  yearChars d.year ++ '-' :: padded 2 d.month ++ '-' :: padded 2 d.day
    ++ 'T' :: padded 2 (s / 3600) ++ ':' :: padded 2 (s / 60 % 60)
    ++ ':' :: padded 2 (if isLeap then s % 60 + 1 else s % 60)
    ++ fractionChars (if isLeap then t.nanos - 1000000000 else t.nanos) ++ zone.chars

/-- The text of a moment. -/
def render (zone : ZoneText) (t : Timestamp) : String := String.ofList (t.chars zone)

end Placement.Timestamp
