/-
Offers: what one agent has to give, to be answered once.
-/
import Placement.Id.Generated
import Placement.Resource

namespace Placement

/-- The agent that runs a task, as it is remembered with the task. -/
structure AgentInfo where
  agentId : AgentId
  host : String
  attributes : Labels
  deriving DecidableEq, Repr

structure Offer (α : Type) where
  id : OfferId
  agentId : AgentId
  hostname : String
  attributes : Labels
  resources : List (Resource α)
  deriving DecidableEq, Repr

namespace Offer

variable {α : Type}

def agent (o : Offer α) : AgentInfo := ⟨o.agentId, o.hostname, o.attributes⟩

/-- All that the offer has of one resource. -/
def total [Amount α] (o : Offer α) (name : ResourceName) : α := scalarSum name o.resources

def hasGpus [Amount α] (o : Offer α) : Bool := 0 < o.total .gpus

end Offer

end Placement
