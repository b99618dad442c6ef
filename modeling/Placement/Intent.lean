/-
Intents: what a store should hold under a key after a write. A reload is compared with the intent to
find out whether a write that reported an error has had its effect after all.
-/

namespace Placement

inductive Intent (α : Type) where
  | present (value : α)
  | absent
  deriving DecidableEq, Repr

/-- What a reload says of an intent. -/
inductive Convergence where
  | converged
  | diverged
  /-- The reload failed itself. -/
  | unknown
  deriving DecidableEq, Repr

namespace Intent

variable {α ε : Type} [BEq α]

/-- Compares what is stored with the intent. -/
def check : Intent α → Option α → Convergence
  | absent, none => .converged
  | present expected, some actual => if expected == actual then .converged else .diverged
  | _, _ => .diverged

/-- Compares the result of a reload with the intent. -/
def checkReload (i : Intent α) : Except ε (Option α) → Convergence
  | .ok observed => i.check observed
  | .error _ => .unknown

end Intent

end Placement
