/-
What can be wrong with a document.

A fault is about the spelling of the document, about its end coming too early, or
about its data: a value of the wrong kind, a member that is missing or written
twice.  `Fault.sort` tells these apart and `Fault.message` words them.
-/
import Rollover.Number.Shortest
import Rollover.Text.Quoted

namespace Rollover

namespace Document

/-- A number as a document gives it: whole if it has a 64-bit cell, otherwise binary. -/
inductive Number
  | whole (n : Int)
  | binary (negative : Bool) (size : Binary64)
deriving DecidableEq

/-- What a reader found in place of the value that it wanted. -/
inductive Found
  | null
  | flag (b : Bool)
  | number (n : Number)
  | text (s : List Char)
  | list
  | object
deriving DecidableEq

inductive Fault
  | endOfValue
  | endOfObject
  | endOfList
  | endOfText
  | noValue
  | noSuchWord
  | noColon
  | noObjectEnd
  | noListEnd
  | keyNotText
  | commaBeforeEnd
  | moreAfterEnd
  | badNumber
  | numberTooLarge
  | badEscape
  | halfPair
  | strayHalf
  | controlCharacter
  | wrongKind (found : Found) (wanted : String)
  | outOfRange (n : Int) (wanted : String)
  | missing (name : String)
  | duplicate (name : String)
  | tooShort (length : Nat) (wanted : String)
  | unknownName (name : List Char) (known : List String)
deriving DecidableEq

/-- The three sorts of fault. -/
inductive FaultSort
  | ending
  | spelling
  | data
deriving DecidableEq

def Number.describe : Number → String
  | whole n => "integer `" ++ Digits.text n ++ "`"
  | binary negative size =>
    let digits := if negative then '-' :: size.text else size.text
    "floating point `" ++ String.ofList digits ++ "`"

def Found.describe : Found → String
  | null => "null"
  | flag true => "boolean `true`"
  | flag false => "boolean `false`"
  | number n => n.describe
  | text s => "string " ++ String.ofList (Text.quote s)
  | list => "sequence"
  | object => "map"

namespace Fault

def sort : Fault → FaultSort
  | endOfValue | endOfObject | endOfList | endOfText => .ending
  | wrongKind .. | outOfRange .. | missing _ | duplicate _ | tooShort .. | unknownName .. => .data
  | _ => .spelling

/-- A list of names as a choice between them. -/
def choice (names : List String) : String :=
  match names.map (fun s => "`" ++ s ++ "`") with
  | [] => "nothing"
  | [a] => a
  | [a, b] => a ++ " or " ++ b
  | all => "one of " ++ String.intercalate ", " all

def message : Fault → String
  | endOfValue => "EOF while parsing a value"
  | endOfObject => "EOF while parsing an object"
  | endOfList => "EOF while parsing a list"
  | endOfText => "EOF while parsing a string"
  | noValue => "expected value"
  | noSuchWord => "expected ident"
  | noColon => "expected `:`"
  | noObjectEnd => "expected `,` or `\x7d`"
  | noListEnd => "expected `,` or `]`"
  | keyNotText => "key must be a string"
  | commaBeforeEnd => "trailing comma"
  | moreAfterEnd => "trailing characters"
  | badNumber => "invalid number"
  | numberTooLarge => "number out of range"
  | badEscape => "invalid escape"
  | halfPair => "unexpected end of hex escape"
  | strayHalf => "lone leading surrogate in hex escape"
  | controlCharacter => "control character (\\u0000-\\u001F) found while parsing a string"
  | wrongKind found wanted => "invalid type: " ++ found.describe ++ ", expected " ++ wanted
  | outOfRange n wanted =>
    "invalid value: " ++ (Number.whole n).describe ++ ", expected " ++ wanted
  | missing name => "missing field `" ++ name ++ "`"
  | duplicate name => "duplicate field `" ++ name ++ "`"
  | tooShort length wanted =>
    "invalid length " ++ Digits.text length ++ ", expected " ++ wanted
  | unknownName name known =>
    "unknown variant `" ++ String.ofList name ++ "`, expected " ++ choice known

end Fault

end Document

end Rollover
