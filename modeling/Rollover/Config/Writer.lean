/-
Writing a configuration as a document, with all its members in their usual order
and no gaps.
-/
import Rollover.Config
import Rollover.Document.Quoted

namespace Rollover

namespace Config

def flagText (b : Bool) : List Char := if b then "true".toList else "false".toList

/-- A member of an object: its key, a colon and its value. -/
def memberText (key : String) (value : List Char) : List Char :=
  Document.writeText key.toList ++ ':' :: value

def objectText (members : List (List Char)) : List Char :=
  '\x7b' :: List.intercalate [','] members ++ ['\x7d']

def settingsText (g : Settings) : List Char :=
  objectText [memberText "enabled" (flagText g.enabled),
    memberText "utc_offset_secs" (Digits.ofInt g.zoneSecs)]

def offsetFileText : Option String → List Char
  | none => "null".toList
  | some path => Document.writeText path.toList

/-- The configuration as a document. -/
def text (c : Config) : String :=
  String.ofList (objectText [memberText "base_timestamp" (Digits.ofInt c.anchorSecs),
    memberText "offset_file" (offsetFileText c.offsetFile),
    memberText "gm" (settingsText c.gm)])

end Config

end Rollover
