/-
What the server writes into its journal.

Every record is the account of one event.  An operation that has something to
report returns its result together with the events of its run, in order; `Logged`
puts such operations together.
-/
import Rollover.Calendar.CivilTime
import Rollover.Edges
import Rollover.OffsetFile.Error

namespace Rollover

inductive Level
  | debug
  | info
  | warn
deriving DecidableEq

def Level.name : Level → String
  | debug => "DEBUG"
  | info => "INFO"
  | warn => "WARN"

inductive Event
  | anchorSet (anchor : Instant)
  | offsetSet (secs : Int)
  | edgesComputed (w : Width) (now : Int) (e : Edges)
  | timerArmed (target : Instant) (remaining : Span)
  | noOffsetFile (path : String)
  | offsetSaved (secs : Int) (path : String)
  | offsetRestored (secs : Int) (path : String)
  | offsetFileIgnored (path : String) (e : OffsetFile.Error)
  | commandDisabled (name : String)
  | requestInPast (requested : CivilTime) (current : Instant)
  | serverTimeSet (requested : CivilTime) (offsetSecs : Int)
  | serverTimeReset
deriving DecidableEq

namespace Event

def level : Event → Level
  | edgesComputed .. | timerArmed .. | noOffsetFile _ => .debug
  | offsetFileIgnored .. | commandDisabled _ | requestInPast .. => .warn
  | _ => .info

def seconds (n : Int) : String := Digits.text n ++ "s"

def message : Event → String
  | anchorSet t => "Base anchor set to " ++ t.utcText
  | offsetSet n => "Logical offset set to " ++ seconds n
  | edgesComputed w now e =>
    w.name ++ " edge cache refreshed at " ++ Digits.text now ++ ": [" ++ Digits.text e.start
      ++ ", " ++ Digits.text e.stop ++ ")"
  | timerArmed target d =>
    "Refresh timer armed for " ++ target.utcText ++ " (" ++ seconds d.wholeSeconds ++ ")"
  | noOffsetFile path => "No offset file at " ++ path
  | offsetSaved n path => "Persisted logical offset " ++ seconds n ++ " to " ++ path
  | offsetRestored n path => "Restored logical offset " ++ seconds n ++ " from " ++ path
  | offsetFileIgnored path e => "Ignoring offset file " ++ path ++ ": " ++ e.message
  | commandDisabled name => "Rejected GM command " ++ name ++ ": disabled"
  | requestInPast requested current =>
    "Rejected set-server-time to " ++ requested.utcText ++ ": logical now is " ++ current.utcText
  | serverTimeSet requested n =>
    "GM set server time to " ++ requested.utcText ++ " (offset " ++ seconds n ++ ")"
  | serverTimeReset => "GM reset server time to system time"

/-- The record of an event: its level and its account. -/
def record (e : Event) : String := e.level.name ++ " " ++ e.message

end Event

/-- A result and the events on the way to it. -/
structure Logged (α : Type) where
  value : α
  events : List Event

namespace Logged

instance : Monad Logged where
  pure a := ⟨a, []⟩
  bind x f := ⟨(f x.value).value, x.events ++ (f x.value).events⟩

def log (e : Event) : Logged Unit := ⟨(), [e]⟩

@[simp] theorem value_pure {α : Type} (a : α) : (pure a : Logged α).value = a := rfl

@[simp] theorem value_bind {α β : Type} (x : Logged α) (f : α → Logged β) :
    (x >>= f).value = (f x.value).value := rfl

@[simp] theorem events_pure {α : Type} (a : α) : (pure a : Logged α).events = [] := rfl

@[simp] theorem events_bind {α β : Type} (x : Logged α) (f : α → Logged β) :
    (x >>= f).events = x.events ++ (f x.value).events := rfl

@[simp] theorem value_log (e : Event) : (log e).value = () := rfl

end Logged

end Rollover
