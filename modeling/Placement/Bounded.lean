/-
Calls with a limit on their time. A call that has not answered when the limit is over counts as
failed; what it does afterwards is not waited for.
-/
import Placement.Span

namespace Placement

/-- How a bounded call fails. -/
inductive CallError (ε : Type) where
  | timedOut (resource : String) (limit : Span)
  | failed (resource : String) (cause : ε)
  deriving DecidableEq, Repr

namespace CallError

variable {ε : Type}

def isTimeout : CallError ε → Bool
  | timedOut _ _ => true
  | failed _ _ => false

def message (causeMessage : ε → String) : CallError ε → String
  | timedOut resource limit => "timeout after " ++ limit.text ++ " waiting for " ++ resource
  | failed resource cause => resource ++ ": " ++ causeMessage cause

end CallError

/-- A call: when it answers, in nanoseconds, or never, and what it answers. -/
inductive TimedCall (ε α : Type) where
  | answers (after : Nat) (result : Except ε α)
  | never
  deriving Repr

/-- What comes of a call within a limit. -/
def bounded {ε α : Type} (limit : Span) (resource : String) :
    TimedCall ε α → Except (CallError ε) α
  | .answers after (.ok a) => if after ≤ limit.nanos then .ok a else .error (.timedOut resource limit)
  | .answers after (.error e) =>
    if after ≤ limit.nanos then .error (.failed resource e) else .error (.timedOut resource limit)
  | .never => .error (.timedOut resource limit)

/-- How long a bounded call takes, in nanoseconds. -/
def boundedTime {ε α : Type} (limit : Span) : TimedCall ε α → Nat
  | .answers after _ => min after limit.nanos
  | .never => limit.nanos

end Placement
