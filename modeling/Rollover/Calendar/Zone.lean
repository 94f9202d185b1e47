/-
Time zones at a fixed distance from universal time, less than a day either way.
-/
import Rollover.Text.Digits

namespace Rollover

/-- Seconds that clocks of the zone are ahead of universal time. -/
structure Zone where
  secs : Int
  neg_day_lt : -86400 < secs
  lt_day : secs < 86400
deriving DecidableEq

namespace Zone

def utc : Zone := ⟨0, by decide, by decide⟩

def ofSeconds? (n : Int) : Option Zone :=
  if h : -86400 < n ∧ n < 86400 then some ⟨n, h.1, h.2⟩ else none

/-- The sign, hours and minutes of the zone, and its seconds if it has any. -/
def text (z : Zone) : String :=
  let n := z.secs.natAbs
  let seconds := if n % 60 = 0 then [] else ':' :: Digits.padded 2 (n % 60)
  String.ofList ((if z.secs < 0 then '-' else '+') ::
    (Digits.padded 2 (n / 3600) ++ ':' :: Digits.padded 2 (n / 60 % 60) ++ seconds))

end Zone

end Rollover
