/-!
How a device paces its rounds, and which settings keep a quiet network visible. A
settled device sends only every so many rounds, so that silence has to be shorter
than the time its neighbors remember it.
-/

namespace FieldCalculus

/-- Times are in milliseconds. -/
structure Pacing where
  roundInterval : UInt64
  /-- Exports older than this are treated as absent. -/
  staleness : UInt64
  /-- An unchanged export is still sent every this many rounds. -/
  republishEvery : UInt32
deriving DecidableEq

instance : Inhabited Pacing := ⟨⟨200, 2000, 5⟩⟩

/-- What is wrong with settings. -/
inductive PacingFault where
  | zeroInterval
  /-- A settled device would be silent for `quiet` and be forgotten after `staleness`. -/
  | quietTooLong (quiet staleness : Nat)
deriving DecidableEq

namespace PacingFault

def message : PacingFault → String
  | zeroInterval => "invalid driver settings: round_interval_ms must be positive"
  | quietTooLong quiet staleness =>
    "invalid driver settings: round_interval_ms * republish_every (" ++ toString quiet ++
      ") must be below staleness_ms (" ++ toString staleness ++ ")"

end PacingFault

namespace Pacing

/-- After how many rounds an unchanged export is sent again; never less than one. -/
def period (p : Pacing) : Nat := max p.republishEvery.toNat 1

/-- The longest silence of a settled device, counted in 64 bits without wrapping. -/
def quiet (p : Pacing) : Nat := min (p.roundInterval.toNat * p.period) (UInt64.size - 1)

/-- What is wrong with the settings, if anything is. -/
def fault? (p : Pacing) : Option PacingFault :=
  if p.roundInterval = 0 then some .zeroInterval
  else if p.staleness.toNat ≤ p.quiet then some (.quietTooLong p.quiet p.staleness.toNat)
  else none

end Pacing

end FieldCalculus
