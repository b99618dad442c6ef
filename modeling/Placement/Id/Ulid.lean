/-
Generated identifiers: 128 bits, written as 26 characters of base 32. The digits leave out the
letters I, L, O and U, and are read in either case.

Reading keeps the low 128 of the 130 bits that 26 digits hold.
-/
import Placement.Id.Error
import Placement.Word

namespace Placement

/-- A value of 128 bits, ordered as a number. -/
structure Ulid where
  bits : Word128
  deriving DecidableEq, Repr

namespace Ulid

instance : Ord Ulid := ⟨compareOn Ulid.bits⟩

instance : Std.TransOrd Ulid := inferInstanceAs (Std.TransCmp (compareOn Ulid.bits))

instance : Std.LawfulEqOrd Ulid where
  eq_of_compare {a b} h := by
    obtain ⟨x⟩ := a
    obtain ⟨y⟩ := b
    exact congrArg _ (Std.LawfulEqCmp.eq_of_compare (show compare x y = .eq from h))

def ofNat (n : Nat) : Ulid := ⟨.ofNat n⟩

/-! ## Text -/

/-- The digits of base 32, ascending. -/
def alphabet : List Char := "0123456789ABCDEFGHJKMNPQRSTVWXYZ".toList

def digitChar (d : Nat) : Char := alphabet.getD (d % 32) '0'

/-- The value of a digit in either case. -/
def digitValue? (c : Char) : Option Nat := alphabet.idxOf? c.toUpper

/-- The low `5 * count` bits of `n` as `count` digits, the highest first. -/
def digits : Nat → Nat → List Char
  | 0, _ => []
  | count + 1, n => digits count (n / 32) ++ [digitChar n]

def chars (u : Ulid) : List Char := digits 26 u.bits.val

def text (u : Ulid) : String := String.ofList u.chars

/-- The number that a list of digits denotes. -/
def value? (cs : List Char) : Option Nat :=
  cs.foldlM (fun n c => (digitValue? c).map (n * 32 + ·)) 0

/-- Reads 26 digits; the length is that of the UTF-8 text, and is checked first. -/
def parse (cs : List Char) : Except UlidFault Ulid :=
  if (String.ofList cs).utf8ByteSize ≠ 26 then .error .length
  else match value? cs with
    | some n => .ok (ofNat n)
    | none => .error .character

end Ulid

end Placement
