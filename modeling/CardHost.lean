import CardHost.Bench.Session.Run
import CardHost.Lock.Bracket
import CardHost.Proofs.Arrival
import CardHost.Proofs.Bench.Refinement
import CardHost.Proofs.Bracketing
import CardHost.Proofs.Budgets
import CardHost.Proofs.Exposure
import CardHost.Proofs.Finishing
import CardHost.Proofs.Issuance
import CardHost.Proofs.Latch
import CardHost.Proofs.Ledger
import CardHost.Proofs.Ownership
import CardHost.Proofs.Reentrancy
import CardHost.Proofs.Staging
import CardHost.Proofs.Statuses
import CardHost.Proofs.Usability
import CardHost.Proofs.Bench.Following
import CardHost.Proofs.Bench.Allocators
import CardHost.Proofs.Bench.Confinement
import CardHost.Proofs.Bench.Isolation
import CardHost.Proofs.CommandFlags
import CardHost.Proofs.Counts
import CardHost.Proofs.Preparation
import CardHost.Proofs.Monitors
import CardHost.Proofs.Reads
import CardHost.Proofs.Clearing
import CardHost.Proofs.Pending
import CardHost.Proofs.Accesses
import CardHost.Proofs.Writes
import CardHost.Proofs.ClockRate
import CardHost.Proofs.EngineReset
import CardHost.Proofs.Capacity
import CardHost.Proofs.Refusals
import CardHost.Proofs.RingMemory
import CardHost.Proofs.Handshakes
import CardHost.Proofs.Polling
import CardHost.Proofs.ClockGating
import CardHost.Proofs.DividerRange
import CardHost.Proofs.AllocationFailures
import CardHost.Proofs.Bench.Responses
import CardHost.Proofs.Responses
import CardHost.Proofs.Controller
import CardHost.Proofs.BringUp
import CardHost.Proofs.Bench.Controlling
import CardHost.Proofs.FreshRing
import CardHost.Proofs.BoundedWaits
