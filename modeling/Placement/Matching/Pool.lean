/-
The pool: what is left of each resource of an offer while one match is made from it.

A pool lists the resources of the offer in its order. Resources are taken from those that a selector
accepts, reserved ones first, and within each class in the order of the offer. Whatever cannot be
had in full is not taken at all, so that one requirement that fails leaves the others alone.
-/
import Placement.Matching.Selector
import Placement.Offer

namespace Placement

/-- One resource of an offer and what has not been taken of it. -/
structure Chunk (α : Type) where
  resource : Resource α
  remaining : α
  takenPorts : List Port
  deriving DecidableEq, Repr

abbrev Pool (α : Type) := List (Chunk α)

namespace Pool

variable {α : Type} [Amount α]

/-- The pool of resources of which nothing has been taken. -/
def ofResources (rs : List (Resource α)) : Pool α := rs.map fun r => ⟨r, r.amount, []⟩

/-- A resource of a given name that the selector accepts and that is reserved, or is not. -/
def eligible (s : Selector) (name : ResourceName) (reserved : Bool) (r : Resource α) : Bool :=
  r.name == name && s.accepts r && r.isReserved == reserved

/-! ## Scalars -/

/-- Plain requirements for disk space use the root disk, where no volume is kept. -/
def servesScalar (r : Resource α) : Bool :=
  r.name != .disk || (r.persistence.isNone && r.diskSource.type == .root)

/-- The chunks that serve, reserved ones first. -/
def candidates (serves : Bool → Resource α → Bool) (p : Pool α) : Pool α :=
  (p.filter fun c => serves true c.resource) ++ p.filter fun c => serves false c.resource

/-- What is left of all chunks that serve, summed in the order in which they are used. -/
def available (serves : Bool → Resource α → Bool) (p : Pool α) : α :=
  Amount.total ((p.candidates serves).map Chunk.remaining)

/-- Takes up to `missing` from the chunks that serve: what is still missing, what was taken, and the
chunks after that. -/
def drain (serves : Resource α → Bool) (missing : α) : Pool α → α × List (Resource α) × Pool α
  | [] => (missing, [], [])
  | c :: rest =>
    if missing ≤ Amount.tolerance then (missing, [], c :: rest)
    else
      let take := Amount.least c.remaining missing
      if serves c.resource && !(take ≤ 0) then
        let (left, taken, rest') := drain serves (missing - take) rest
        (left, c.resource.withValue (.scalar take) :: taken,
          { c with remaining := c.remaining - take } :: rest')
      else
        let (left, taken, rest') := drain serves missing rest
        (left, taken, c :: rest')

/-- Takes an amount of a scalar resource from as many chunks as it needs. -/
def takeScalar? (s : Selector) (name : ResourceName) (amount : α) (p : Pool α) :
    Option (List (Resource α) × Pool α) :=
  let serves reserved r := eligible s name reserved r && servesScalar r
  if p.available serves + Amount.tolerance < amount then none
  else
    let (missing, first, p) := p.drain (serves true) amount
    let (_, second, p) := p.drain (serves false) missing
    some (first ++ second, p)

/-! ## Volumes -/

/-- A new volume fits a chunk: unreserved disk of its type, without a volume, and with room for it.
A mount has to be whole. -/
def fitsVolume (s : Selector) (v : PersistentVolume α) (c : Chunk α) : Bool :=
  eligible s .disk false c.resource && c.resource.persistence.isNone
    && c.resource.diskSource.type == v.diskType && v.size ≤ c.remaining + Amount.tolerance
    && (v.diskType != .mount || Amount.isNear c.remaining c.resource.amount)

/-- The least remaining amount of the chunks that pass a test. -/
def leastRemaining? (fits : Chunk α → Bool) : Pool α → Option α
  | [] => none
  | c :: rest =>
    match fits c, leastRemaining? fits rest with
    | true, some a => some (if Amount.sortsBefore c.remaining a then c.remaining else a)
    | true, none => some c.remaining
    | false, best => best

/-- Takes a part of the first chunk that passes a test. -/
def takeFirst? (test : Chunk α → Bool) (part : Chunk α → α) :
    Pool α → Option (Resource α × Pool α)
  | [] => none
  | c :: rest =>
    if test c then
      some (c.resource.withValue (.scalar (part c)),
        { c with remaining := c.remaining - part c } :: rest)
    else (takeFirst? test part rest).map fun (r, rest') => (r, c :: rest')

/-- Carves a new volume from the chunk that it leaves least of; of a mount it takes all. -/
def takeVolume? (s : Selector) (v : PersistentVolume α) (p : Pool α) :
    Option (Resource α × Pool α) := do
  let best ← p.leastRemaining? (fitsVolume s v)
  p.takeFirst? (fun c => fitsVolume s v c && Amount.sortsBefore c.remaining best)
    fun c => if v.diskType == .mount then c.remaining else v.size

/-- Carves volumes one after another. Those that fit are taken even if another does not. -/
def takeVolumes (s : Selector) :
    List (PersistentVolume α) → Pool α → List (PersistentVolume α × Resource α) × Bool × Pool α
  | [], p => ([], true, p)
  | v :: rest, p =>
    match p.takeVolume? s v with
    | some (r, p) =>
      let (taken, all, p) := takeVolumes s rest p
      ((v, r) :: taken, all, p)
    | none =>
      let (taken, _, p) := takeVolumes s rest p
      (taken, false, p)

/-- A chunk that carries a given volume and of which something is left. -/
def holdsVolume (id : VolumeId) (c : Chunk α) : Bool :=
  Amount.tolerance < c.remaining && c.resource.carriesVolume id

/-- The resource of the first chunk that holds a volume. -/
def resourceOfVolume? (p : Pool α) (id : VolumeId) : Option (Resource α) :=
  (p.find? (holdsVolume id)).map Chunk.resource

/-- Leaves nothing of the first chunk that holds each of the given volumes. -/
def emptyVolumes : List VolumeId → Pool α → Pool α
  | _, [] => []
  | ids, c :: rest =>
    match ids.find? fun id => holdsVolume id c with
    | some id => { c with remaining := 0 } :: emptyVolumes (ids.filter (· ≠ id)) rest
    | none => c :: emptyVolumes ids rest

/-- Takes the disks that carry given volumes, if all of them are there. -/
def takeExisting? (ids : List VolumeId) (p : Pool α) : Option (List (Resource α) × Pool α) :=
  (ids.mapM p.resourceOfVolume?).map fun rs => (rs, emptyVolumes ids p)

/-! ## Ports -/

/-- Some chunk has given away the port. -/
def isTaken (p : Pool α) (port : Port) : Bool := p.any (·.takenPorts.contains port)

/-- Takes a port from the first chunk that serves and offers it. -/
def takePortFrom? (serves : Resource α → Bool) (port : Port) : Pool α → Option (Pool α)
  | [] => none
  | c :: rest =>
    if serves c.resource && PortRange.anyContains c.resource.portRanges port then
      some ({ c with takenPorts := port :: c.takenPorts } :: rest)
    else (takePortFrom? serves port rest).map (c :: ·)

/-- Takes a port, from a reserved resource if one offers it. -/
def takePort? (s : Selector) (port : Port) (p : Pool α) : Option (Pool α) :=
  (p.takePortFrom? (eligible s .ports true) port).or (p.takePortFrom? (eligible s .ports false) port)

/-- The ports that serve, in the order of the chunks and of their ranges. -/
def portsOf (serves : Resource α → Bool) (p : Pool α) : List Port :=
  (p.filter fun c => serves c.resource).flatMap fun c => PortRange.allPorts c.resource.portRanges

/-- The accepted ports, those of reserved resources first. -/
def candidatePorts (s : Selector) (p : Pool α) : List Port :=
  p.portsOf (eligible s .ports true) ++ p.portsOf (eligible s .ports false)

/-- The ports taken, as one resource for each chunk that gave some. -/
def consumedPorts (p : Pool α) : List (Resource α) :=
  (p.filter fun c => !c.takenPorts.isEmpty).map fun c =>
    c.resource.withValue (.ranges (PortRange.ofPorts c.takenPorts))

end Pool

end Placement
