import FieldCalculus.Main
import FieldCalculus.Network.Running
import FieldCalculus.Network.Status
import FieldCalculus.Proofs.Absence
import FieldCalculus.Proofs.Addressees
import FieldCalculus.Proofs.Atomicity
import FieldCalculus.Proofs.Balance
import FieldCalculus.Proofs.Broadcast.Convergence
import FieldCalculus.Proofs.Broadcast.Payload
import FieldCalculus.Proofs.Census
import FieldCalculus.Proofs.Commuting
import FieldCalculus.Proofs.Divergence
import FieldCalculus.Proofs.Edits
import FieldCalculus.Proofs.Enclosure
import FieldCalculus.Proofs.Equality
import FieldCalculus.Proofs.Eviction
import FieldCalculus.Proofs.Extremum
import FieldCalculus.Proofs.FirstOrder
import FieldCalculus.Proofs.Footprint
import FieldCalculus.Proofs.Freshness
import FieldCalculus.Proofs.Gossip.Convergence
import FieldCalculus.Proofs.Gossip.Safety
import FieldCalculus.Proofs.Hearing
import FieldCalculus.Proofs.Heartbeat
import FieldCalculus.Proofs.HopGradient.Convergence
import FieldCalculus.Proofs.Identity
import FieldCalculus.Proofs.Json.RoundTrip
import FieldCalculus.Proofs.Locality
import FieldCalculus.Proofs.Mailbox
import FieldCalculus.Proofs.Memory
import FieldCalculus.Proofs.Metering
import FieldCalculus.Proofs.Mirror
import FieldCalculus.Proofs.Phases
import FieldCalculus.Proofs.Presence
import FieldCalculus.Proofs.Publication
import FieldCalculus.Proofs.Queueing
import FieldCalculus.Proofs.Region.Refinement
import FieldCalculus.Proofs.Relocation
import FieldCalculus.Proofs.Retry
import FieldCalculus.Proofs.Rounds
import FieldCalculus.Proofs.Scoping.Network
import FieldCalculus.Proofs.Shapes
import FieldCalculus.Proofs.Siblings
import FieldCalculus.Proofs.Suppression
import FieldCalculus.Proofs.Wire
import FieldCalculus.Proofs.Yaml.RoundTrip
import FieldCalculus.Settings.Node
