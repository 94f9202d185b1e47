/-
Waiting for the next bucket.

The wait ends at the start of the next bucket, moved by an optional shift, and a
boundary that is over already is not waited for.  A sleeper counts milliseconds
and sleeps on through a millisecond that has begun, but never for longer than
thirty years: a boundary that is further away has not come when the sleeper wakes.
-/
import Rollover.Clock

namespace Rollover

namespace Clock

/-- The logical time left until an instant, or no time if it is over. -/
def remaining (c : Clock) (target : Instant) : Span :=
  let d := c.logicalNow.spanTo target
  if d.nanos < 0 then .zero else d

/-- The time left until the next bucket starts. -/
def untilNextStart (c : Clock) (w : Width) (extra : Option Span) : Logged (Span × Clock) := do
  let (target, c) ← c.nextStart w extra
  return (c.remaining target, c)

/-- A boundary to wake up at, and how long to sleep until then. -/
structure Wait where
  target : Instant
  sleep : Span

def waitNextStart (c : Clock) (w : Width) (extra : Option Span) : Logged (Wait × Clock) := do
  let (target, c) ← c.nextStart w extra
  let sleep := c.remaining target
  Logged.log (.timerArmed target sleep)
  return (⟨target, sleep⟩, c)

/-- The most milliseconds for which a sleeper is away, thirty years of 365 days. -/
def Wait.longestMillis : Int := 30 * 365 * 86400 * 1000

/-- The milliseconds for which a sleeper is away. -/
def Wait.millis (p : Wait) : Int :=
  min ((p.sleep.nanos + 999999) / 1000000) Wait.longestMillis

/-- The whole seconds for which a sleeper is away. -/
def Wait.seconds (p : Wait) : Int := p.millis / 1000

end Clock

end Rollover
