/-
Reading a moment from a date, a time and an offset from UTC. The form is that of RFC 3339, taken
leniently: blanks may stand before a number or a separator, a number may have fewer digits than the
form asks for, a year may carry a sign, and `T` may be small or a space.
-/
import Placement.Timestamp
import Placement.Text.Blank
import Placement.Text.Digits

namespace Placement.Timestamp.Reader

open Text

/-- A given character, after blanks. -/
def separator (c : Char) (cs : List Char) : Option (List Char) :=
  match skipBlanks cs with
  | d :: rest => if d = c then some rest else none
  | [] => none

/-- A number of one or two digits, after blanks. -/
def twoDigits (cs : List Char) : Option (Nat × List Char) := readNat 2 (skipBlanks cs)

/-- A year: up to four digits, or a sign and any number of digits. -/
def year (cs : List Char) : Option (Int × List Char) :=
  match skipBlanks cs with
  | '-' :: rest => (readNat rest.length rest).map fun (n, r) => (-(n : Int), r)
  | '+' :: rest => (readNat rest.length rest).map fun (n, r) => ((n : Int), r)
  | rest => (readNat 4 rest).map fun (n, r) => ((n : Int), r)

def date (cs : List Char) : Option (Date × List Char) := do
  let (y, cs) ← year cs
  let cs ← separator '-' cs
  let (m, cs) ← twoDigits cs
  let cs ← separator '-' cs
  let (d, cs) ← twoDigits cs
  if (Date.mk y m d).isValid then some (⟨y, m, d⟩, cs) else none

/-- What may stand between date and time. -/
def betweenDateAndTime : List Char → Option (List Char)
  | 'T' :: rest => some rest
  | 't' :: rest => some rest
  | ' ' :: rest => some rest
  | _ => none

/-- A fraction of a second in nanoseconds. Digits after the ninth are skipped. -/
def fraction : List Char → Option (Nat × List Char)
  | '.' :: rest =>
    match takeDigits 9 rest with
    | ([], _) => none
    | (ds, rest) => some (digitsValue ds * Nat.pow 10 (9 - ds.length), rest.dropWhile Char.isDigit)
  | cs => some (0, cs)

/-- Seconds since midnight and nanoseconds; second 60 is the leap second after second 59. -/
def timeOfDay (cs : List Char) : Option ((Nat × Nat) × List Char) := do
  let (h, cs) ← twoDigits cs
  let cs ← separator ':' cs
  let (m, cs) ← twoDigits cs
  let cs ← separator ':' cs
  let (s, cs) ← twoDigits cs
  let (nanos, cs) ← fraction cs
  if h ≤ 23 && m ≤ 59 && s ≤ 60 then
    if s = 60 then some ((h * 3600 + m * 60 + 59, nanos + 1000000000), cs)
    else some ((h * 3600 + m * 60 + s, nanos), cs)
  else none

/-- Two digits without blanks before them. -/
def exactlyTwoDigits : List Char → Option (Nat × List Char)
  | a :: b :: rest => if a.isDigit && b.isDigit then some (digitsValue [a, b], rest) else none
  | _ => none

/-- Hours and minutes of an offset, with colons or blanks between them. -/
def offsetSeconds (cs : List Char) : Option (Int × List Char) := do
  let (h, cs) ← exactlyTwoDigits cs
  let (m, cs) ← exactlyTwoDigits (cs.dropWhile fun c => c = ':' || isBlank c)
  if m ≤ 59 && h ≤ 23 then some ((h * 3600 + m * 60 : Nat), cs) else none

/-- The seconds by which local time is ahead of UTC. The offset is `Z`, `UTC` or a signed time. -/
def offset (cs : List Char) : Option (Int × List Char) :=
  match skipBlanks cs with
  | 'Z' :: rest => some (0, rest)
  | 'z' :: rest => some (0, rest)
  | '+' :: rest => offsetSeconds rest
  | '-' :: rest => (offsetSeconds rest).map fun (n, r) => (-n, r)
  | '−' :: rest => (offsetSeconds rest).map fun (n, r) => (-n, r)
  | a :: b :: c :: rest =>
    if [a, b, c].map Char.toUpper = ['U', 'T', 'C'] then some (0, rest) else none
  | _ => none

/-- The moment that a text denotes. -/
def moment (cs : List Char) : Option Timestamp := do
  let (d, cs) ← date cs
  let cs ← betweenDateAndTime cs
  let ((second, nanos), cs) ← timeOfDay cs
  let (ahead, cs) ← offset cs
  let t : Timestamp := ⟨d.toDays * 86400 + second - ahead, nanos⟩
  if (skipBlanks cs).isEmpty && t.inRange then some t else none

end Placement.Timestamp.Reader

namespace Placement.Timestamp

/-- The moment that a text denotes, `none` where it denotes none. -/
def parse? (s : String) : Option Timestamp := Reader.moment s.toList

end Placement.Timestamp
