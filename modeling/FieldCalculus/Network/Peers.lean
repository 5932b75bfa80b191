import FieldCalculus.Network.Topology

/-!
Membership by hearsay: everyone heard from lately is a neighbor, until silent for
longer than a time to live. Times are in milliseconds.
-/

namespace FieldCalculus

/-- When each peer was last heard from. -/
structure PeerDirectory where
  me : DeviceId
  ttl : Nat
  seen : Dict DeviceId Nat
deriving Inhabited

namespace PeerDirectory

def empty (me : DeviceId) (ttl : Nat) : PeerDirectory := ⟨me, ttl, .empty⟩

/-- Notes that a peer was heard from. The device's own voice does not count. -/
def observe (d : PeerDirectory) (peer : DeviceId) (now : Nat) : PeerDirectory :=
  if peer = d.me then d else { d with seen := d.seen.insert peer now }

/-- The peers heard from within the time to live. -/
def peersAt (d : PeerDirectory) (now : Nat) : DeviceSet :=
  (d.seen.filter fun _ heard => now - heard ≤ d.ttl).map fun _ => ()

/-- The neighbors of a device; a directory knows only those of its own. -/
def neighbors (d : PeerDirectory) (id : DeviceId) (now : Nat) : DeviceSet :=
  if id = d.me then d.peersAt now else .empty

end PeerDirectory

end FieldCalculus
