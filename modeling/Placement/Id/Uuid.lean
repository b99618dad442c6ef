/-
Identifiers of volumes: 128 bits, written as 32 hexadecimal digits in five groups joined by dashes.

Read are that form, also in braces or behind `urn:uuid:`, and the digits without dashes.
-/
import Placement.Word

namespace Placement

/-- A value of 128 bits, ordered as a number. -/
structure Uuid where
  bits : Word128
  deriving DecidableEq, Repr

namespace Uuid

instance : Ord Uuid := ⟨compareOn Uuid.bits⟩

instance : Std.TransOrd Uuid := inferInstanceAs (Std.TransCmp (compareOn Uuid.bits))

instance : Std.LawfulEqOrd Uuid where
  eq_of_compare {a b} h := by
    obtain ⟨x⟩ := a
    obtain ⟨y⟩ := b
    exact congrArg _ (Std.LawfulEqCmp.eq_of_compare (show compare x y = .eq from h))

def ofNat (n : Nat) : Uuid := ⟨.ofNat n⟩

/-! ## Text -/

/-- The hexadecimal digits, ascending. -/
def alphabet : List Char := "0123456789abcdef".toList

def digitChar (d : Nat) : Char := alphabet.getD (d % 16) '0'

/-- The value of a hexadecimal digit in either case. -/
def digitValue? (c : Char) : Option Nat := alphabet.idxOf? c.toLower

/-- The low `4 * count` bits of `n` as `count` digits, the highest first. -/
def digits : Nat → Nat → List Char
  | 0, _ => []
  | count + 1, n => digits count (n / 16) ++ [digitChar n]

/-- Digits cut into groups with dashes between them. -/
def hyphenated (cs : List Char) : List Char :=
  cs.take 8 ++ '-' :: (cs.drop 8).take 4 ++ '-' :: (cs.drop 12).take 4
    ++ '-' :: (cs.drop 16).take 4 ++ '-' :: cs.drop 20

def chars (u : Uuid) : List Char := hyphenated (digits 32 u.bits.val)

def text (u : Uuid) : String := String.ofList u.chars

/-- The number that a list of hexadecimal digits denotes. -/
def value? (cs : List Char) : Option Nat :=
  cs.foldlM (fun n c => (digitValue? c).map (n * 16 + ·)) 0

/-- Thirty-two digits without dashes. -/
def parseSimple? (cs : List Char) : Option Uuid :=
  if cs.length = 32 then (value? cs).map ofNat else none

/-- Digits in groups joined by dashes. -/
def parseHyphenated? (cs : List Char) : Option Uuid :=
  let digits := cs.filter (· ≠ '-')
  if hyphenated digits = cs then parseSimple? digits else none

/-- Reads one of the four forms. -/
def parse? (cs : List Char) : Option Uuid :=
  if cs.length = 32 then parseSimple? cs
  else if cs.length = 36 then parseHyphenated? cs
  else if cs.length = 38 then
    if cs.head? = some '\x7b' && cs.getLast? = some '\x7d' then
      parseHyphenated? (cs.drop 1).dropLast
    else none
  else if cs.length = 45 then
    if cs.take 9 = "urn:uuid:".toList || cs.take 9 = "URN:UUID:".toList then
      parseHyphenated? (cs.drop 9)
    else none
  else none

end Uuid

end Placement
