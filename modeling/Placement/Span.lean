/-
Lengths of time, in nanoseconds. A length fits 64 bits of whole seconds.
-/
import Placement.Text.Digits
import Placement.Word

namespace Placement

/-- A length of time. -/
structure Span where
  nanos : Nat
  bounded : nanos < 0x10000000000000000 * 1000000000
  deriving DecidableEq, Repr

namespace Span

def zero : Span := ⟨0, by decide⟩

instance : Inhabited Span := ⟨zero⟩

/-- A length of whole seconds. -/
def ofSeconds (n : Word64) : Span :=
  ⟨n.val * 1000000000, by have := n.isLt; omega⟩

/-- A length of whole milliseconds. -/
def ofMillis (n : Word64) : Span :=
  ⟨n.val * 1000000, by have := n.isLt; omega⟩

/-- A length of seconds and nanoseconds; nanoseconds carry, and the sum has to fit. -/
def ofParts? (seconds nanos : Nat) : Option Span :=
  if h : seconds * 1000000000 + nanos < 0x10000000000000000 * 1000000000 then some ⟨_, h⟩ else none

/-- Whole seconds. -/
def seconds (s : Span) : Nat := s.nanos / 1000000000

/-- Nanoseconds beyond the whole seconds. -/
def subNanos (s : Span) : Nat := s.nanos % 1000000000

/-- Whole milliseconds. -/
def millis (s : Span) : Nat := s.nanos / 1000000

theorem ofParts?_seconds_subNanos (s : Span) : ofParts? s.seconds s.subNanos = some s := by
  have h : s.seconds * 1000000000 + s.subNanos = s.nanos := by
    simp only [seconds, subNanos]; omega
  rw [ofParts?, dif_pos (h ▸ s.bounded)]
  simp only [h]

/-! ## Text -/

open Text

/-- A count of a unit, with the rest as a fraction of at most `places` digits and no zeros behind. -/
def unitChars (whole rest places : Nat) (unit : List Char) : List Char :=
  let digits := ((padded places rest).reverse.dropWhile (· = '0')).reverse
  let fraction := if rest = 0 then [] else '.' :: digits
  Nat.toDigits 10 whole ++ fraction ++ unit

/-- The text of a length: in the largest of the units `s`, `ms`, `µs` and `ns` that it fills. -/
def text (s : Span) : String :=
  let n := s.nanos
  String.ofList <|
    if 1000000000 ≤ n then unitChars (n / 1000000000) (n % 1000000000) 9 ['s']
    else if 1000000 ≤ n then unitChars (n / 1000000) (n % 1000000) 6 ['m', 's']
    else if 1000 ≤ n then unitChars (n / 1000) (n % 1000) 3 ['µ', 's']
    else unitChars n 0 0 ['n', 's']

end Span

end Placement
