/-
Host ports: which port of its host each port of an instance is bound to.

Fixed ports come first, so that no dynamic one takes them. A dynamic one takes the first port that is
free, in the order of the offer's ranges, those of reserved resources before all others. Either every
request is met, or nothing is taken: ports are taken from a pool that only a full assignment returns.
-/
import Placement.Instance
import Placement.Matching.Pool

namespace Placement.HostPorts

variable {α : Type} [Amount α]

/-- The port may be given away. -/
def isFree (excluded : List Port) (p : Pool α) (port : Port) : Bool :=
  !excluded.contains port && !p.isTaken port

/-- Takes a free port. -/
def takeFree? (s : Selector) (excluded : List Port) (port : Port) (p : Pool α) : Option (Pool α) :=
  if isFree excluded p port then p.takePort? s port else none

/-- Takes all fixed ports, in the order of the requests. -/
def takeFixed? (s : Selector) (excluded : List Port) :
    List HostPort → Pool α → Option (Pool α)
  | [], p => some p
  | .fixed port :: rest, p => (takeFree? s excluded port p).bind (takeFixed? s excluded rest)
  | _ :: rest, p => takeFixed? s excluded rest p

/-- Takes a port for each dynamic request, and lists what every request is bound to. -/
def bind? (s : Selector) (excluded : List Port) :
    List HostPort → Pool α → Option (List (Option Port) × Pool α)
  | [], p => some ([], p)
  | .fixed port :: rest, p => (bind? s excluded rest p).map fun (ports, p) => (some port :: ports, p)
  | .none :: rest, p => (bind? s excluded rest p).map fun (ports, p) => (none :: ports, p)
  | .dynamic :: rest, p => do
    let port ← (p.candidatePorts s).find? (isFree excluded p)
    let p ← p.takePort? s port
    let (ports, p) ← bind? s excluded rest p
    some (some port :: ports, p)

/-- The port that each request is bound to, none for a request of no host port, and the pool without
these ports. An assignment that fails carries no pool, so the pool that it began with still stands. -/
def assign? (s : Selector) (excluded : List Port) (requests : List HostPort) (p : Pool α) :
    Option (List (Option Port) × Pool α) :=
  (takeFixed? s excluded requests p).bind (bind? s excluded requests)

/-- The host ports that active tasks hold on an agent. -/
def inUse (agent : AgentId) (known : List Instance) : List Port :=
  ((known.filter fun i => i.agent.agentId == agent).flatMap (·.tasks.values)
    |>.filter fun t => t.condition.isActive).flatMap (·.hostPorts)

end Placement.HostPorts
