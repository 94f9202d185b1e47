/-
A time offset in words.

`172800s (2d 0h 0m 0s)`: the whole seconds, then the same number taken apart into
days, hours, minutes and seconds behind one sign.
-/
import Rollover.Span
import Rollover.Text.Digits

namespace Rollover

namespace OffsetText

/-- The sign, days, hours, minutes and seconds of a number of seconds. -/
def parts (n : Int) : List Char :=
  let k := n.natAbs
  let sign := if n < 0 then ['-'] else []
  sign ++ Digits.ofNat (k / 86400) ++ "d ".toList ++ Digits.ofNat (k % 86400 / 3600)
    ++ "h ".toList ++ Digits.ofNat (k % 3600 / 60) ++ "m ".toList ++ Digits.ofNat (k % 60)
    ++ ['s']

def ofSpan (d : Span) : List Char :=
  let n := d.wholeSeconds
  Digits.ofInt n ++ "s (".toList ++ parts n ++ [')']

def text (d : Span) : String := String.ofList (ofSpan d)

end OffsetText

end Rollover
