/-
Carrying out the commands of a game master.

A handler reads and prints times on the clock of one zone.  Setting the time moves
the logical offset so that the logical now becomes the time asked for, which must
not lie before the present second; resetting it takes the offset away.  Both move
the clock first and keep the new offset in the store afterwards, so when the store
fails the clock has moved all the same.
-/
import Rollover.Command
import Rollover.OffsetText
import Rollover.Server

namespace Rollover

structure Handler where
  zone : Zone
  store : Option String := none
  enabled : Bool := true
deriving DecidableEq

namespace Handler

abbrev Reply := Except Command.Error (List String)

/-- The handler that a configuration describes. -/
def ofConfig (c : Config) : Except Config.Error Handler :=
  c.zone.map fun zone => { zone, store := c.offsetFile, enabled := c.gm.enabled }

/-- Keeps an offset in the store, if there is one. -/
def keep (h : Handler) (fs : Files) (offset : Span) :
    Logged (Except OffsetFile.Error Unit × Files) :=
  match h.store with
  | some path => OffsetFile.save fs path offset
  | none => return (.ok (), fs)

/-- Moves the clock by a new offset and keeps it. -/
def moveTo (h : Handler) (s : Server) (offset : Span) :
    Logged (Except Command.Error Unit × Server) := do
  let clock ← s.clock.setOffset offset
  let (kept, files) ← h.keep s.files clock.offset
  return (kept.mapError .notKept, { clock, files })

def setServerTime (h : Handler) (s : Server) (t : CivilTime) : Logged (Reply × Server) := do
  match t.toUtc? h.zone with
  | none => return (.error (.badTime t.text), s)
  | some requested =>
    let current := s.clock.logicalNow.floor
    if requested.before (.ofInstant current) then
      Logged.log (.requestInPast requested current)
      return (.error (.inPast (current.textIn h.zone) (requested.textIn h.zone)), s)
    else
      let offset := requested.since (.ofInstant s.clock.systemNow.floor)
      let (kept, s) ← h.moveTo s offset
      match kept with
      | .error e => return (.error e, s)
      | .ok () =>
        Logged.log (.serverTimeSet requested s.clock.offset.wholeSeconds)
        return (.ok ["Server time set to " ++ requested.textIn h.zone,
          "Time offset: " ++ OffsetText.text s.clock.offset,
          "Current server time: " ++ s.clock.logicalNow.textIn h.zone], s)

def showServerTime (h : Handler) (s : Server) : List String :=
  ["Current server time offset: " ++ OffsetText.text s.clock.offset,
   "Current server time: " ++ s.clock.logicalNow.textIn h.zone,
   "System time: " ++ s.clock.systemNow.textIn h.zone]

def resetServerTime (h : Handler) (s : Server) : Logged (Reply × Server) := do
  let (kept, s) ← h.moveTo s .zero
  match kept with
  | .error e => return (.error e, s)
  | .ok () =>
    Logged.log .serverTimeReset
    return (.ok ["Server time reset to system time"], s)

/-- Carries out a command, unless the handler is disabled. -/
def execute (h : Handler) (s : Server) (c : Command) : Logged (Reply × Server) := do
  if ¬ h.enabled then
    Logged.log (.commandDisabled c.name)
    return (.error .disabled, s)
  else
    match c with
    | .help => return (.ok Command.helpLines, s)
    | .setServerTime t => h.setServerTime s t
    | .showServerTime => return (.ok (h.showServerTime s), s)
    | .resetServerTime => h.resetServerTime s

/-- Carries out a command line. -/
def dispatch (h : Handler) (s : Server) (words : List String) : Logged (Reply × Server) :=
  match Command.ofWords words with
  | .error e => return (.error e, s)
  | .ok c => h.execute s c

end Handler

end Rollover
