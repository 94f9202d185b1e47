/-
Where the present time comes from.

A server takes it from its host.  A robot or a rehearsal takes it from a manual
clock, which stands still until it is moved: it counts milliseconds in a 64-bit
cell, so it can be moved past the ends of the calendar and back again, and while
it is outside it shows the nearest second.  A fixed source repeats an instant to
the nanosecond.
-/
import Rollover.Instant

namespace Rollover

/-- A clock that moves only when it is told to. -/
structure ManualClock where
  millis : Int
  name : String
deriving DecidableEq

namespace ManualClock

def startingAt (t : Instant) (name : String := "ManualClock") : ManualClock := ⟨t.millis, name⟩

def now (c : ManualClock) : Instant := .ofMillis c.millis

def setTime (c : ManualClock) (t : Instant) : ManualClock := { c with millis := t.millis }

/-- Moves the clock, back if the span is negative. -/
def advance (c : ManualClock) (d : Span) : ManualClock :=
  { c with millis := Word.add c.millis d.wholeMillis }

end ManualClock

/-- A source of time, with what it says now. -/
inductive Source
  | system (now : Instant)
  | manual (clock : ManualClock)
  | fixed (now : Instant)
deriving DecidableEq

namespace Source

def now : Source → Instant
  | system t => t
  | manual c => c.now
  | fixed t => t

def name : Source → String
  | system _ => "SystemClock"
  | manual c => c.name
  | fixed _ => "TimeSource"

/-- Sets the time, which only the host's clock refuses. -/
def setTime (t : Instant) : Source → Source
  | system now => system now
  | manual c => manual (c.setTime t)
  | fixed _ => fixed t

/-- Moves a manual clock; the other sources stay as they are. -/
def advance (d : Span) : Source → Source
  | manual c => manual (c.advance d)
  | s => s

end Source

end Rollover
