/-
Reading and writing the width of a bucket as a document.

A width is written as its name.  It may also be written as an object whose one
member has that name and no value.
-/
import Rollover.Document.Reader
import Rollover.Width

namespace Rollover

namespace Width

open Document (Reader Fault)

/-- The width with a name. -/
def named (name : List Char) : Reader Width :=
  match ofName? name with
  | some w => pure w
  | none => Reader.fault (.unknownName name [day.name, week.name])

/-- The rest of an object, after its opening brace. -/
def member : Reader Width := do
  match ← Reader.firstKey with
  | none => Reader.fault .noValue
  | some name => do
    let w ← named name
    Reader.colon
    Reader.null "unit"
    match ← Reader.peek with
    | some '\x7d' => do
      Reader.skip
      return w
    | some _ => Reader.fault .noValue
    | none => Reader.fault .endOfObject

def reader : Reader Width := do
  match ← Reader.peek with
  | some '\x7b' => do
    Reader.skip
    member
  | some '"' => do
    Reader.skip
    named (← Reader.text)
  | some _ => Reader.fault .noValue
  | none => Reader.fault .endOfValue

def ofText (text : String) : Except Fault Width := Reader.read reader text.toList

/-- The width as a document. -/
def text (w : Width) : String := String.ofList (Document.writeText w.name.toList)

end Width

end Rollover
