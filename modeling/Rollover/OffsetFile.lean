/-
The file that keeps a server's time offset over a restart.

The file holds the whole seconds of the offset as a decimal number, which may have
a sign and blanks around it.  A file that is missing means that no offset was ever
kept.
-/
import Rollover.Journal
import Rollover.Text.Blank

namespace Rollover

namespace OffsetFile

/-- The offset that a text stands for. -/
def ofText? (text : List Char) : Option Span := (Digits.int? text).bind Span.ofSeconds?

/-- The offset that is kept at a path, none if there is no file. -/
def load (fs : Files) (path : String) : Logged (Except Error (Option Span)) := do
  match fs.readText path with
  | .error .notFound => do
    Logged.log (.noOffsetFile path)
    return .ok none
  | .error e => return .error (.unreachable e)
  | .ok content =>
    let text := Text.trim content.toList
    match ofText? text with
    | some offset => return .ok (some offset)
    | none => return .error (.badOffset path (String.ofList text))

/-- Keeps an offset at a path, in a directory that is made if it is missing. -/
def save (fs : Files) (path : String) (offset : Span) : Logged (Except Error Unit × Files) := do
  match fs.makeDirectories (Files.above (Files.names path)) with
  | (fs, .error e) => return (.error (.unreachable e), fs)
  | (fs, .ok ()) =>
    match fs.writeText path (Digits.text offset.wholeSeconds) with
    | (fs, .error e) => return (.error (.unreachable e), fs)
    | (fs, .ok ()) => do
      Logged.log (.offsetSaved offset.wholeSeconds path)
      return (.ok (), fs)

end OffsetFile

end Rollover
