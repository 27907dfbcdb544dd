import HotPath.Main
import HotPath.Machine.Script
import HotPath.Value.Document
import HotPath.Proofs.Code.Decoding
import HotPath.Proofs.Code.Writing
import HotPath.Proofs.Store.Balance
import HotPath.Proofs.Store.Conservation
import HotPath.Proofs.Machine.Ownership
import HotPath.Proofs.Machine.References
import HotPath.Proofs.Tier.Lifecycle
import HotPath.Proofs.Fusion.Alignment
import HotPath.Proofs.Machine.Evaluation
import HotPath.Proofs.Fusion.Span
import HotPath.Proofs.Machine.Tiering
import HotPath.Proofs.Machine.Transparency
import HotPath.Proofs.Workload.Assembly
import HotPath.Proofs.Tier.Offers
import HotPath.Proofs.Machine.Blocks
import HotPath.Proofs.Store.Single
import HotPath.Proofs.Workload.Constants
import HotPath.Proofs.Workload.Pieces
import HotPath.Proofs.Workload.Workers
import HotPath.Proofs.Workload.Mains
import HotPath.Proofs.Workload.Results
import HotPath.Proofs.Machine.Effects
import HotPath.Proofs.Tier.Publication
import HotPath.Proofs.Machine.Framing
import HotPath.Proofs.Store.Changes
import HotPath.Proofs.Machine.Quiescence
import HotPath.Proofs.Machine.Starvation
import HotPath.Proofs.Machine.Discipline
import HotPath.Proofs.Store.Twins
import HotPath.Proofs.Store.Mirroring
import HotPath.Proofs.Machine.Mirroring
import HotPath.Proofs.Machine.Reuse
import HotPath.Proofs.Tier.Turns
import HotPath.Proofs.Tier.Crossing
import HotPath.Proofs.Tier.Shutdown
import HotPath.Proofs.Store.Chronicle
import HotPath.Proofs.Store.Slab
import HotPath.Proofs.Store.Staleness
import HotPath.Proofs.Code.Reading
import HotPath.Proofs.Fusion.Exactness
import HotPath.Proofs.Fusion.FixedPoint
import HotPath.Proofs.Machine.Exhaustion
import HotPath.Proofs.Machine.Inversion
import HotPath.Proofs.Machine.Bookkeeping
import HotPath.Proofs.Fusion.Refusals
import HotPath.Proofs.Machine.Composition
import HotPath.Proofs.Machine.Confinement
import HotPath.Proofs.Machine.Headroom
import HotPath.Proofs.Machine.Reporting
import HotPath.Proofs.Tier.Phases
import HotPath.Proofs.Workload.Tiering
import HotPath.Proofs.Code.Distances
import HotPath.Proofs.Store.Access
import HotPath.Proofs.Store.Boundary
import HotPath.Proofs.Store.Teardown
import HotPath.Proofs.Code.Interning
import HotPath.Proofs.Tier.Slots
import HotPath.Proofs.Tier.Workshop
