import Relayer.Crypto.Keccak
import Relayer.Crypto.Signature
import Relayer.Chain.Transaction
import Relayer.Gateway.Basic
import Relayer.Metrics.Exposition
import Relayer.Queue
import Relayer.Rehearsal.Lineup
import Relayer.Rehearsal.Session
import Relayer.Rehearsal.Solo
import Relayer.Rehearsal.Switchboard
import Relayer.Rehearsal.Vigil
import Relayer.Send.Basic
import Relayer.Settings.File
import Relayer.Supervisor
import Relayer.Wallet.Choice
import Relayer.Wallet.Remote
import Relayer.Proofs.Send.Trail
import Relayer.Proofs.Send.Noted
import Relayer.Proofs.Send.Prompt
import Relayer.Proofs.Send.Moves
import Relayer.Proofs.Send.Phases
import Relayer.Proofs.Pricing
import Relayer.Proofs.Endpoint.Failover
import Relayer.Proofs.Send.Bidding
import Relayer.Proofs.Send.Confirmation
import Relayer.Proofs.Leases.Slots
import Relayer.Proofs.Leases.Stakes
import Relayer.Proofs.Leases.Office
import Relayer.Proofs.Leases.Exclusion
import Relayer.Proofs.Send.Tasks
import Relayer.Proofs.Leases.Runtime
import Relayer.Proofs.Leases.Adequacy
import Relayer.Proofs.Leases.Silence
import Relayer.Proofs.Leases.Window
import Relayer.Proofs.Leases.Deals
import Relayer.Proofs.Leases.Fairness
import Relayer.Proofs.Send.Verdicts
import Relayer.Proofs.Send.Staleness
import Relayer.Proofs.Send.Deadline
import Relayer.Proofs.Send.Cancellation
import Relayer.Proofs.Send.Finality
import Relayer.Proofs.Send.Tally
import Relayer.Proofs.Send.Ticks
import Relayer.Proofs.Send.Mirror
import Relayer.Proofs.Send.Sightings
import Relayer.Proofs.Send.Attempts
import Relayer.Proofs.Send.Breakdown
import Relayer.Proofs.Send.Cadence
import Relayer.Proofs.Send.Race
import Relayer.Proofs.Tracker.Trace
import Relayer.Proofs.Tracker.Stream
import Relayer.Proofs.Tracker.Decision
import Relayer.Proofs.Send.Watching
import Relayer.Proofs.Queue.Moves
import Relayer.Proofs.Queue.Ledger
import Relayer.Proofs.Queue.Contract
import Relayer.Proofs.Gateway.House
import Relayer.Proofs.Gateway.Status
import Relayer.Proofs.Gateway.Endurance
import Relayer.Proofs.Rehearsal.Timeline
import Relayer.Proofs.Ascent
import Relayer.Proofs.Endpoint.Rotation
import Relayer.Proofs.Send.Asking
import Relayer.Proofs.Settings.Substitution
import Relayer.Proofs.Settings.Keys
import Relayer.Proofs.Settings.Overrides
import Relayer.Proofs.Chain.Rlp
import Relayer.Proofs.Chain.Payload
import Relayer.Proofs.Text.Hex
import Relayer.Proofs.Json.Scanning
import Relayer.Proofs.Json.Extent
import Relayer.Proofs.Json.Whole
import Relayer.Proofs.Json.Members
import Relayer.Proofs.Json.Spelling
import Relayer.Proofs.Chain.Wire
import Relayer.Proofs.Rehearsal.Questions
import Relayer.Proofs.Chain.Address
import Relayer.Proofs.Text.Phrases
import Relayer.Proofs.Metrics.Counts
import Relayer.Proofs.Metrics.Exposition
import Relayer.Proofs.Supervision
import Relayer.Proofs.Rehearsal.Vigil
