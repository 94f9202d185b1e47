/-
Reading a civil time.

The fields come in the order in which they are written, year first.  A year
without a sign has one to four digits, a signed one any number; every other field
has one or two.  Blanks may stand before a field and between the date and the
time, and nothing may follow the second.  Second 60 is a leap second, whatever the
minute.
-/
import Rollover.Calendar.CivilTime
import Rollover.Text.Blank

namespace Rollover

namespace CivilTime

namespace Reader

/-- The number at the front, of at most `most` digits, and what follows it. -/
def digits (most : Nat) (s : List Char) : Option (Nat × List Char) :=
  match Digits.take most s with
  | ([], _) => none
  | (ds, rest) => some (Digits.value ds, rest)

def field (s : List Char) : Option (Nat × List Char) := digits 2 (Text.trimStart s)

def year (s : List Char) : Option (Int × List Char) :=
  match Text.trimStart s with
  | '-' :: s => (digits s.length s).map fun (n, rest) => (-(n : Int), rest)
  | '+' :: s => (digits s.length s).map fun (n, rest) => ((n : Int), rest)
  | s => (digits 4 s).map fun (n, rest) => ((n : Int), rest)

def mark (c : Char) : List Char → Option (List Char)
  | d :: s => if d = c then some s else none
  | [] => none

end Reader

open Reader in
/-- The civil time that the whole of a text says. -/
def read? (s : List Char) : Option CivilTime := do
  let (y, s) ← year s
  let s ← mark '-' s
  let (m, s) ← field s
  let s ← mark '-' s
  let (d, s) ← field s
  let (hour, s) ← field s
  let s ← mark ':' s
  let (minute, s) ← field s
  let s ← mark ':' s
  let (second, s) ← field s
  guard (s = [])
  let date : Date := ⟨y, m, d⟩
  if second = 60 then ofFields? ⟨date, hour, minute, 59, 1000000000⟩
  else ofFields? ⟨date, hour, minute, second, 0⟩

end CivilTime

end Rollover
