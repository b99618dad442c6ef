/-
Amounts of a resource. The rules of matching are stated for any type of amounts with the operations
below; they run on floating-point numbers and are reasoned about on rational ones.

Comparisons between sums of amounts allow a small error, `tolerance`.
-/
import Placement.Decimal.Shortest

namespace Placement

/-- What the rules of matching need of amounts. -/
class Amount (α : Type) extends Add α, Sub α, Zero α, LT α, LE α where
  decLt : DecidableLT α
  decLe : DecidableLE α
  /-- The quotient of two whole numbers. -/
  ratio : Nat → Nat → α
  /-- A total order for sorting, which agrees with `≤` where amounts differ. -/
  sortsBefore : α → α → Bool
  /-- The text of an amount. -/
  text : α → String

namespace Amount

variable {α : Type} [Amount α]

instance : DecidableLT α := Amount.decLt

instance : DecidableLE α := Amount.decLe

/-- The error that comparisons allow. -/
def tolerance : α := ratio 1 1000000

/-- The smaller of two amounts. -/
def least (a b : α) : α := if a ≤ b then a else b

/-- The sum of a list, from the left. -/
def total (xs : List α) : α := xs.foldl (· + ·) 0

/-- Two amounts differ by the tolerance at most. -/
def isNear (a b : α) : Bool := a - b ≤ tolerance && b - a ≤ tolerance

instance : Amount Float where
  decLt := inferInstance
  decLe := inferInstance
  zero := 0
  ratio n d := Float.ofNat n / Float.ofNat d
  sortsBefore a b := a < b || (a == b && b.toBits ≤ a.toBits)
  text := Decimal.text

instance : Amount Rat where
  decLt := Rat.instDecidableLt
  decLe := Rat.instDecidableLe
  zero := 0
  ratio n d := mkRat n d
  sortsBefore a b := a ≤ b
  text a := if a.den = 1 then toString a.num else toString a.num ++ "/" ++ toString a.den

end Amount

end Placement
