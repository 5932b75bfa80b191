import FieldCalculus.Network.Basic

/-!
A network whose devices run by themselves. From its start on, every device does a round
at once and then one each interval, until the network is stopped.
-/

namespace FieldCalculus

/-- A network that runs, when it started, and how many rounds are behind it. -/
structure RunningNetwork where
  network : Network
  startedAt : Nat
  ticks : Nat
deriving Inhabited

namespace RunningNetwork

def start (net : Network) : RunningNetwork := ⟨net, net.now, 0⟩

def interval (r : RunningNetwork) : Nat := r.network.pacing.roundInterval.toNat

/-- The time of the next round. -/
def nextTick (r : RunningNetwork) : Nat := r.startedAt + r.ticks * r.interval

/-- The next round of every device, at its time. -/
def tick (r : RunningNetwork) : RunningNetwork :=
  let net := { r.network with now := r.nextTick }
  { r with network := net.stepAll.1, ticks := r.ticks + 1 }

/-- So many rounds. -/
def tickTimes (r : RunningNetwork) : Nat → RunningNetwork
  | 0 => r
  | n + 1 => r.tick.tickTimes n

/-- How many rounds are due up to a time. -/
def due (r : RunningNetwork) (time : Nat) : Nat :=
  if r.interval = 0 then 0 else (time - r.startedAt) / r.interval + 1 - r.ticks

/-- Lets time pass, with all rounds that fall into it. -/
def sleep (r : RunningNetwork) (ms : Nat) : RunningNetwork :=
  let time := r.network.now + ms
  let r := r.tickTimes (r.due time)
  { r with network := { r.network with now := time } }

/-- Stops every device between two rounds. -/
def stop (r : RunningNetwork) : Network :=
  { r.network with nodes := r.network.nodes.map fun n =>
      { n with device := { n.device with phases := n.device.phases.stop } } }

end RunningNetwork

end FieldCalculus
