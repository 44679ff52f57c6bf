import LaneBus.Lane.Wire
import LaneBus.Main
import LaneBus.Proofs.Positions
import LaneBus.Proofs.Dispatch
import LaneBus.Proofs.Wiring
import LaneBus.Proofs.Passes
import LaneBus.Proofs.Members
import LaneBus.Proofs.Runs
import LaneBus.Proofs.Handling
import LaneBus.Proofs.Capture
import LaneBus.Proofs.Rounding
import LaneBus.Proofs.Decimals
import LaneBus.Proofs.Tokens
import LaneBus.Proofs.Numbers
import LaneBus.Proofs.Nesting
import LaneBus.Proofs.Values
import LaneBus.Proofs.Timestamps
import LaneBus.Proofs.Records
import LaneBus.Proofs.Envelopes
import LaneBus.Proofs.Hops
import LaneBus.Proofs.Overtaking
import LaneBus.Proofs.Conservation
import LaneBus.Proofs.Lanes
import LaneBus.Proofs.Occurrences
import LaneBus.Proofs.Selection
import LaneBus.Proofs.Urgency
import LaneBus.Proofs.Dependence
import LaneBus.Proofs.RoundTrips
import LaneBus.Proofs.Isolation
import LaneBus.Proofs.Groups
import LaneBus.Proofs.Reaching
import LaneBus.Proofs.Histories
import LaneBus.Proofs.Ownership
import LaneBus.Proofs.Routing
import LaneBus.Proofs.Delivering
import LaneBus.Proofs.Monitoring
import LaneBus.Proofs.Leading
import LaneBus.Proofs.Polling
import LaneBus.Proofs.Driving
import LaneBus.Proofs.Complaints
import LaneBus.Proofs.Scoping
import LaneBus.Proofs.Addresses
import LaneBus.Proofs.Lookup
import LaneBus.Proofs.Lineage
import LaneBus.Proofs.Reordering
import LaneBus.Proofs.ClientIds
import LaneBus.Proofs.Stopping
import LaneBus.Proofs.Calendar
import LaneBus.Proofs.Places
