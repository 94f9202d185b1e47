/-
Reading a configuration.

A configuration is a document.  Its one required member is the anchor; the others
stand for their usual values when they are left out.  Members come in any order,
those with unknown names are passed over, and a known one may come once.  Each of
the two objects may also be written as the list of its values in the usual order,
shortened at the end.
-/
import Rollover.Config
import Rollover.Document.Reader

namespace Rollover

namespace Config

open Document (Reader Fault)

/-- An object, or the list of its values. -/
def objectOrList {α : Type} (wanted : String) (list object : Reader α) : Reader α := do
  match ← Reader.peek with
  | some '[' => do
    Reader.skip
    list
  | some '\x7b' => do
    Reader.skip
    object
  | some _ => Reader.refuse wanted
  | none => Reader.fault .endOfValue

/-- A member that may come once: its value, or a fault if there is one already. -/
def once {α : Type} (name : String) (old : Option α) (r : Reader α) : Reader α := do
  if old.isSome then Reader.fault (.duplicate name)
  else do
    Reader.colon
    r

def readEnabled : Reader Bool := Reader.flag "a boolean"

def readZoneSecs : Reader Int := Reader.whole (-2147483648) 2147483647 "i32"

def readAnchorSecs : Reader Int := Reader.whole Word.least Word.greatest "i64"

def readOffsetFile : Reader (Option String) :=
  Reader.optional do return String.ofList (← Reader.quoted "path string")

/-! ### The game master settings -/

/-- The members read so far. -/
structure SettingsDraft where
  enabled : Option Bool := none
  zoneSecs : Option Int := none

def SettingsDraft.finish (d : SettingsDraft) : Settings :=
  { enabled := d.enabled.getD true, zoneSecs := d.zoneSecs.getD 0 }

def settingsMember (d : SettingsDraft) (key : List Char) : Reader SettingsDraft := do
  if key = "enabled".toList then
    return { d with enabled := some (← once "enabled" d.enabled readEnabled) }
  else if key = "utc_offset_secs".toList then
    return { d with zoneSecs := some (← once "utc_offset_secs" d.zoneSecs readZoneSecs) }
  else
    Reader.colon
    Reader.ignored
    return d

def settingsList : Reader Settings := do
  let enabled ← Reader.item true readEnabled
  let zoneSecs ← Reader.item false readZoneSecs
  Reader.endOfItems
  return SettingsDraft.finish { enabled, zoneSecs }

def readSettings : Reader Settings :=
  objectOrList "struct GmConfig" settingsList do
    return (← Reader.members settingsMember {}).finish

/-! ### The whole configuration -/

/-- The members read so far. -/
structure Draft where
  anchorSecs : Option Int := none
  offsetFile : Option (Option String) := none
  gm : Option Settings := none

/-- The configuration, or `fault` if it has no anchor. -/
def Draft.finish (d : Draft) (fault : Fault) : Reader Config :=
  match d.anchorSecs with
  | some anchorSecs =>
    pure { anchorSecs, offsetFile := d.offsetFile.getD none, gm := d.gm.getD {} }
  | none => Reader.fault fault

def configMember (d : Draft) (key : List Char) : Reader Draft := do
  if key = "base_timestamp".toList then
    return { d with anchorSecs := some (← once "base_timestamp" d.anchorSecs readAnchorSecs) }
  else if key = "offset_file".toList then
    return { d with offsetFile := some (← once "offset_file" d.offsetFile readOffsetFile) }
  else if key = "gm".toList then
    return { d with gm := some (← once "gm" d.gm readSettings) }
  else
    Reader.colon
    Reader.ignored
    return d

def configList : Reader Config := do
  let short := Fault.tooShort 0 "struct ClockConfigFile with 3 elements"
  match ← Reader.item true readAnchorSecs with
  | none => Reader.fault short
  | some anchorSecs => do
    let offsetFile ← Reader.item false readOffsetFile
    let gm ← Reader.item false readSettings
    Reader.endOfItems
    Draft.finish { anchorSecs := some anchorSecs, offsetFile, gm } short

def reader : Reader Config :=
  objectOrList "struct ClockConfigFile" configList do
    (← Reader.members configMember {}).finish (.missing "base_timestamp")

/-- The configuration that a text says, if it is one that can be used. -/
def ofText (text : String) : Except Error Config :=
  match Reader.read reader text.toList with
  | .ok c => c.checked
  | .error e => .error (.malformed e)

/-- The configuration in a file. -/
def ofFile (fs : Files) (path : String) : Except Error Config :=
  match fs.readText path with
  | .ok text => ofText text
  | .error e => .error (.unreadable e)

end Config

end Rollover
