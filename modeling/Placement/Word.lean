/-
Numbers of 64 and of 128 bits. Their sizes are written out, so that bounds are decided by arithmetic
alone.
-/
namespace Placement

/-- A number of 64 bits. -/
structure Word64 where
  val : Nat
  isLt : val < 0x10000000000000000
  deriving DecidableEq, Repr

/-- The low 64 bits of a number. -/
def Word64.ofNat (n : Nat) : Word64 :=
  ⟨n % 0x10000000000000000, Nat.mod_lt n (by decide)⟩

instance (n : Nat) : OfNat Word64 n := ⟨.ofNat n⟩

/-- A number of 128 bits. -/
abbrev Word128 := Fin 0x100000000000000000000000000000000

/-- The low 128 bits of a number. -/
def Word128.ofNat (n : Nat) : Word128 :=
  ⟨n % 0x100000000000000000000000000000000, Nat.mod_lt n (by decide)⟩

end Placement
