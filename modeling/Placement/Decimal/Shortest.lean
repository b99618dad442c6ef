/-
The shortest decimal text of a floating-point number: of the decimals that read back as the number,
those with the fewest digits, and of these the nearest; of two equally near the greater.

A finite number is `m * 2 ^ q`. The reals that round to it form an interval around it, with its ends
when `m` is even. The decimals are searched grid by grid, a grid being the multiples of a power of
ten, from coarse to fine: the first grid with a point in the interval has the fewest digits.
-/

namespace Placement.Decimal

/-! ## The rounding interval -/

/-- A positive number `m * 2 ^ q`; `lowerHalf` tells that the next smaller number is only half as
far away as the next greater. -/
structure Binary where
  mantissa : Nat
  exponent : Int
  lowerHalf : Bool
  deriving DecidableEq, Repr

namespace Binary

/-- Four times a bound of the interval, in units of the mantissa. -/
def quarterLow (b : Binary) : Nat := 4 * b.mantissa - (if b.lowerHalf then 1 else 2)

def quarterHigh (b : Binary) : Nat := 4 * b.mantissa + 2

/-- A number of quarters of `2 ^ exponent`, scaled so that it compares with `gridPoint`. -/
def scaled (b : Binary) (grid : Int) (quarters : Nat) : Nat :=
  quarters * Nat.pow 2 (b.exponent - 2).toNat * Nat.pow 10 (-grid).toNat

/-- The step of the grid of multiples of `10 ^ grid`, on the same scale. -/
def gridStep (b : Binary) (grid : Int) : Nat :=
  Nat.pow 10 grid.toNat * Nat.pow 2 (2 - b.exponent).toNat

/-- The `c`-th point of a grid lies in the interval. -/
def holds (b : Binary) (grid : Int) (c : Nat) : Bool :=
  let p := c * b.gridStep grid
  let low := b.scaled grid b.quarterLow
  let high := b.scaled grid b.quarterHigh
  if b.mantissa % 2 = 0 then low ≤ p && p ≤ high else low < p && p < high

/-- The point of a grid in the interval that is nearest to the number, if there is one. It is one
of the two neighbours of the number on the grid. -/
def nearest? (b : Binary) (grid : Int) : Option Nat :=
  let v := b.scaled grid (4 * b.mantissa)
  let step := b.gridStep grid
  let below := v / step
  let above := below + 1
  match decide (0 < below) && b.holds grid below, b.holds grid above with
  | true, true => if v - below * step < above * step - v then some below else some above
  | true, false => some below
  | false, true => some above
  | false, false => none

/-- A power of ten above the number. -/
def topGrid (b : Binary) : Int :=
  (((Nat.log2 b.mantissa + 1 : Nat) : Int) + b.exponent) * 30103 / 100000 + 1

/-- The coarsest grid with a point in the interval, from `grid` down `fuel` steps. -/
def search (b : Binary) : Nat → Int → Nat × Int
  | 0, grid => (0, grid)
  | fuel + 1, grid =>
    match b.nearest? grid with
    | some c => (c, grid)
    | none => search b fuel (grid - 1)

/-- Digits `c` and power `g` of the shortest decimal `c * 10 ^ g`. Twenty grids below the number are
enough, since seventeen digits tell all numbers apart. -/
def shortest (b : Binary) : Nat × Int := b.search 24 b.topGrid

end Binary

/-! ## Numbers of 64 bits -/

/-- The binary form of the magnitude of a finite number that is not zero. -/
def Binary.ofFloat (x : Float) : Binary :=
  let bits := x.toBits.toNat
  let fraction : Nat := bits % 0x10000000000000
  let biased : Nat := bits / 0x10000000000000 % 0x800
  if biased = 0 then ⟨fraction, -1074, false⟩
  else ⟨fraction + 0x10000000000000, (biased : Int) - 1075, fraction = 0 && 1 < biased⟩

/-- Digits `c` shifted by `g` places, positional, with no point in a whole number. -/
def positional (c : Nat) (g : Int) : List Char :=
  let ds := Nat.toDigits 10 c
  if 0 ≤ g then ds ++ List.replicate g.toNat '0'
  else
    let places := (-g).toNat
    if places < ds.length then
      ds.take (ds.length - places) ++ '.' :: ds.drop (ds.length - places)
    else '0' :: '.' :: List.replicate (places - ds.length) '0' ++ ds

/-- The digits of a magnitude that is not zero. -/
def magnitude (x : Float) : List Char :=
  let (c, g) := (Binary.ofFloat x).shortest
  positional c g

/-- The sign bit is set. -/
def isNegative (x : Float) : Bool := 0x8000000000000000 ≤ x.toBits.toNat

/-- The shortest text of a number, with the sign of a negative zero. -/
def text (x : Float) : String :=
  if x.isNaN then "NaN"
  else
    let body :=
      if x.isInf then ['i', 'n', 'f']
      else if x == 0 then ['0']
      else magnitude x
    String.ofList (if isNegative x then '-' :: body else body)

end Placement.Decimal
