/-
The one clock that all parts of a program share.

Numbers of buckets that one part has kept must mean the same to any other, so
there is a single clock to ask.  It can be chosen only before its first use;
whoever uses it earlier gets a clock over the time of the host.
-/
import Rollover.Clock

namespace Rollover

structure SharedClock where
  chosen : Option Clock := none

namespace SharedClock

/-- The shared clock, made over the host's time if there is none. -/
def clock (p : SharedClock) (host : Instant) : Clock :=
  p.chosen.getD (.over (.system host))

/-- What is shared once the clock has been used. -/
def afterUse (p : SharedClock) (host : Instant) : SharedClock := ⟨some (p.clock host)⟩

/-- Makes a clock the shared one, unless there is one. -/
def install? (p : SharedClock) (c : Clock) : Option SharedClock :=
  match p.chosen with
  | none => some ⟨some c⟩
  | some _ => none

end SharedClock

end Rollover
