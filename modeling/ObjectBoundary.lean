import ObjectBoundary.Session.Run
import ObjectBoundary.Proofs.Ends
import ObjectBoundary.Proofs.Quiet
import ObjectBoundary.Proofs.Yields
import ObjectBoundary.Proofs.Runs
import ObjectBoundary.Proofs.References.Balance
import ObjectBoundary.Proofs.References.Moves
import ObjectBoundary.Proofs.References.Reach
import ObjectBoundary.Proofs.References.Passage
import ObjectBoundary.Proofs.References.Transfer
import ObjectBoundary.Proofs.References.Course
import ObjectBoundary.Proofs.References.Creation
import ObjectBoundary.Proofs.Acts.Looking
import ObjectBoundary.Proofs.Acts.Towers
import ObjectBoundary.Proofs.Acts.Still
import ObjectBoundary.Proofs.Acts.Owned
import ObjectBoundary.Proofs.Acts.Composed
import ObjectBoundary.Proofs.Acts.Supervised
import ObjectBoundary.Proofs.Acts.Twins
import ObjectBoundary.Proofs.Acts.Unlogged
import ObjectBoundary.Proofs.Acts.Shared
import ObjectBoundary.Proofs.Acts.Recovery
import ObjectBoundary.Proofs.Acts.Calls
import ObjectBoundary.Proofs.Session.Ledger
import ObjectBoundary.Proofs.Session.Plans
import ObjectBoundary.Proofs.Session.Supervision
import ObjectBoundary.Proofs.Session.Steps
import ObjectBoundary.Proofs.Session.Structures
import ObjectBoundary.Proofs.Session.Crossings
import ObjectBoundary.Proofs.Session.Balance
import ObjectBoundary.Proofs.Session.Conservation
import ObjectBoundary.Proofs.Session.Accounts
import ObjectBoundary.Proofs.References.Whole
import ObjectBoundary.Proofs.Acts.Directly
import ObjectBoundary.Proofs.Session.Tracking
import ObjectBoundary.Proofs.Session.Towers
import ObjectBoundary.Proofs.Session.Chains
import ObjectBoundary.Proofs.Session.Undisturbed
import ObjectBoundary.Proofs.Session.Recovery
import ObjectBoundary.Proofs.Session.Twins
import ObjectBoundary.Proofs.Session.History
import ObjectBoundary.Proofs.Session.Dues
import ObjectBoundary.Proofs.Session.Settlement
import ObjectBoundary.Proofs.Acts.Exchange
import ObjectBoundary.Proofs.Makes
import ObjectBoundary.Proofs.References.Exchange
import ObjectBoundary.Proofs.Session.Exchange
import ObjectBoundary.Proofs.Session.RoundTrips
import ObjectBoundary.Proofs.Acts.Exhaustion
import ObjectBoundary.Proofs.Acts.Rejections
import ObjectBoundary.Proofs.Session.Degradation
import ObjectBoundary.Proofs.Acts.Transfers
import ObjectBoundary.Proofs.Session.Transfers
import ObjectBoundary.Proofs.Ownership.Custody
import ObjectBoundary.Proofs.Acts.Bypassing
import ObjectBoundary.Proofs.Ownership.Disposal
import ObjectBoundary.Proofs.Ownership.Apart
import ObjectBoundary.Proofs.Ownership.Owned
import ObjectBoundary.Proofs.Ownership.Plans
import ObjectBoundary.Proofs.Ownership.Owners
import ObjectBoundary.Proofs.Session.Bypassing
import ObjectBoundary.Proofs.Ownership.Deletions
import ObjectBoundary.Proofs.Ownership.Fate
import ObjectBoundary.Proofs.Ownership.Exclusive
import ObjectBoundary.Proofs.Ownership.Towers
import ObjectBoundary.Proofs.Ownership.Peeling
import ObjectBoundary.Proofs.Ownership.Faithful
import ObjectBoundary.Proofs.Acts.Reports
import ObjectBoundary.Proofs.Acts.Accord
import ObjectBoundary.Proofs.Session.Accord
import ObjectBoundary.Proofs.Session.Reports
import ObjectBoundary.Proofs.Acts.Uses
import ObjectBoundary.Proofs.Session.Uses
import ObjectBoundary.Proofs.Acts.Inert
import ObjectBoundary.Proofs.Session.Inert
import ObjectBoundary.Proofs.Acts.Retreat
import ObjectBoundary.Proofs.Session.Retreat
import ObjectBoundary.Proofs.Session.Backed
import ObjectBoundary.Proofs.Session.Exclusivity
import ObjectBoundary.Proofs.References.Proxied
import ObjectBoundary.Proofs.Session.Lifespan
import ObjectBoundary.Proofs.Acts.HandOver
import ObjectBoundary.Proofs.Session.HandOver
import ObjectBoundary.Proofs.Acts.Unwinding
import ObjectBoundary.Proofs.Acts.Failing
import ObjectBoundary.Proofs.Session.Failing
import ObjectBoundary.Proofs.Acts.Offered
import ObjectBoundary.Proofs.Session.Versions
import ObjectBoundary.Proofs.Session.Deletions
import ObjectBoundary.Proofs.Session.Counters
import ObjectBoundary.Proofs.Acts.Settled
import ObjectBoundary.Proofs.Session.Settled
import ObjectBoundary.Proofs.Acts.Walks
import ObjectBoundary.Proofs.Session.Links
import ObjectBoundary.Proofs.Presence
import ObjectBoundary.Proofs.Acts.NewStructures
import ObjectBoundary.Proofs.Switches
import ObjectBoundary.Proofs.Tags
