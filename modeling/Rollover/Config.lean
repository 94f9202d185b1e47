/-
The settings that a server starts with: the anchor of its buckets, the file that
keeps its time offset, and what its game masters may do.
-/
import Rollover.Calendar.Zone
import Rollover.Document.Fault
import Rollover.Files
import Rollover.Instant

namespace Rollover

/-- The game master settings: whether commands are taken, and the clock they speak of. -/
structure Settings where
  enabled : Bool := true
  zoneSecs : Int := 0
deriving DecidableEq

structure Config where
  anchorSecs : Int
  offsetFile : Option String := none
  gm : Settings := {}
deriving DecidableEq

namespace Config

/-- Why there is no configuration. -/
inductive Error
  | unreadable (e : Files.Error)
  | malformed (e : Document.Fault)
  | badZone (secs : Int)
deriving DecidableEq

def Error.message : Error → String
  | unreadable e => "Failed to read config file: " ++ e.message
  | malformed e => "Failed to parse config: " ++ e.message
  | badZone secs => "Invalid GM UTC offset: " ++ Digits.text secs ++ "s"

def anchor (c : Config) : Instant := .ofSeconds c.anchorSecs

/-- The zone of the game masters' clock, which has to be less than a day away. -/
def zone (c : Config) : Except Error Zone :=
  match Zone.ofSeconds? c.gm.zoneSecs with
  | some z => .ok z
  | none => .error (.badZone c.gm.zoneSecs)

/-- The configuration itself, once its zone is known to be one. -/
def checked (c : Config) : Except Error Config := c.zone.map fun _ => c

/-- The configuration of a server that is given none: Monday 2023-01-02 as anchor. -/
def standard : Config := { anchorSecs := 1672617600 }

end Config

end Rollover
