/-
The time commands of a game master.

A command line is a list of words with the name of the command first.  Only
`set-server-time` looks at what follows: a date and a time, together in one word
or in several.  The fields of the date may be parted by colons as well as by
dashes.
-/
import Rollover.Calendar.Reader
import Rollover.Config
import Rollover.OffsetFile.Error

namespace Rollover

inductive Command
  | help
  | setServerTime (time : CivilTime)
  | showServerTime
  | resetServerTime
deriving DecidableEq

namespace Command

/-- Why a command was not carried out. -/
inductive Error
  | noCommand
  | unknown (name : String)
  | badTime (text : String)
  | inPast (current requested : String)
  | disabled
  | notKept (e : OffsetFile.Error)
  | badConfig (e : Config.Error)
deriving DecidableEq

def Error.message : Error → String
  | noCommand => "No command provided"
  | unknown name => "Unknown command: " ++ name
  | badTime text => "Invalid time format, expected: YYYY-MM-DD hh:mm:ss, got: " ++ text
  | inPast current requested =>
    "Cannot set time to past, current time: " ++ current ++ ", requested time: " ++ requested
  | disabled => "GM time commands are disabled"
  | notKept e => "Failed to persist time offset: " ++ e.message
  | badConfig e => "Configuration error: " ++ e.message

def name : Command → String
  | help => "help"
  | setServerTime _ => "set-server-time"
  | showServerTime => "show-server-time"
  | resetServerTime => "reset-server-time"

/-- The date and time of the words of a command line, colons of the date made dashes. -/
def timeOfWords? (text : List Char) : Option CivilTime :=
  match Text.words text with
  | [date, time] =>
    CivilTime.read? (date.map (fun c => if c = ':' then '-' else c) ++ ' ' :: time)
  | _ => none

/-- The command of a command line. -/
def ofWords : List String → Except Error Command
  | [] => .error .noCommand
  | name :: rest =>
    if name = help.name then .ok help
    else if name = "set-server-time" then
      let text := String.intercalate " " rest
      match timeOfWords? text.toList with
      | some t => .ok (setServerTime t)
      | none => .error (.badTime text)
    else if name = showServerTime.name then .ok showServerTime
    else if name = resetServerTime.name then .ok resetServerTime
    else .error (.unknown name)

/-! ### Help -/

/-- How a command is used. -/
structure Usage where
  name : String
  parameters : String
  description : String

def usages : List Usage :=
  [⟨help.name, "", "Show this help message"⟩,
   ⟨"set-server-time", "YYYY-MM-DD hh:mm:ss", "Set server time to specific date and time"⟩,
   ⟨showServerTime.name, "", "Get current server time offset"⟩,
   ⟨resetServerTime.name, "", "Reset server time to system time"⟩]

/-- The usage on one line, with the description from column 40 on. -/
def Usage.line (u : Usage) : String :=
  let head := Text.trimEnd (u.name.toList ++ ' ' :: u.parameters.toList)
  String.ofList (head ++ List.replicate (40 - head.length) ' ' ++ u.description.toList)

def helpLines : List String := usages.map Usage.line

end Command

end Rollover
