import Placement.Form.StateOp
import Placement.Json.Reader
import Placement.Json.Writer
import Placement.Scheduler.Events
import Placement.Scheduler.Interleaving
import Placement.Settings
import Placement.Shards
import Placement.Workers
import Placement.Proofs.Lifecycle
import Placement.Proofs.OrderedMap
import Placement.Proofs.Tracker
import Placement.Proofs.Processor
import Placement.Proofs.Identifier
import Placement.Proofs.Stored
import Placement.Proofs.Restart
import Placement.Proofs.Kind
import Placement.Proofs.PortRange
import Placement.Proofs.Remaining
import Placement.Proofs.Pool
import Placement.Proofs.HostPorts
import Placement.Proofs.Matching
import Placement.Proofs.Portion
import Placement.Proofs.Decision
import Placement.Proofs.Conservation
import Placement.Proofs.Round
import Placement.Proofs.Truthful
import Placement.Proofs.Reached
import Placement.Proofs.Recording
import Placement.Proofs.Course
import Placement.Proofs.Storable
import Placement.Proofs.Dropped
import Placement.Proofs.Fresh
import Placement.Proofs.Placed
import Placement.Proofs.Sent
import Placement.Proofs.Supply
import Placement.Proofs.Rebinding
import Placement.Proofs.Reservation
import Placement.Proofs.Relaunch
import Placement.Proofs.Provenance
import Placement.Proofs.Isolation
import Placement.Proofs.Confluence
import Placement.Proofs.Ports
import Placement.Proofs.Occupancy
import Placement.Proofs.Exclusive
import Placement.Proofs.Pending
import Placement.Proofs.Guarded
import Placement.Proofs.Serialized
import Placement.Proofs.Housekeeping
import Placement.Proofs.Outdated
import Placement.Proofs.Resident
import Placement.Proofs.Unreachable
import Placement.Proofs.Calendar
import Placement.Proofs.Moment
import Placement.Proofs.Dated
import Placement.Proofs.Final
import Placement.Proofs.Grammar
import Placement.Proofs.FlatMap
import Placement.Proofs.Bindable
import Placement.Proofs.Verdict
import Placement.Proofs.Shares
import Placement.Proofs.Supplied
import Placement.Proofs.Scarce
import Placement.Proofs.Spelling
import Placement.Proofs.Worker
import Placement.Proofs.Delivery
import Placement.Proofs.Rendering
import Placement.Proofs.Document
import Placement.Proofs.Environment
import Placement.Proofs.Payload
import Placement.Proofs.Apportionment
import Placement.Proofs.Assignment
import Placement.Proofs.Lowest
import Placement.Proofs.Balance
import Placement.Proofs.BestFit
import Placement.Proofs.Redelivery
import Placement.Proofs.Coverage
import Placement.Proofs.Locality
import Placement.Proofs.Settling
import Placement.Proofs.Founding
import Placement.Proofs.Masking
import Placement.Proofs.Deadline
import Placement.Proofs.Canonical
