/-
The two widths of a refresh bucket.

A day is always 86400 seconds and a week seven of them; no bucket is ever made
longer or shorter.
-/

namespace Rollover

inductive Width
  | day
  | week
deriving DecidableEq

namespace Width

def seconds : Width → Int
  | day => 86400
  | week => 604800

/-- The name that configuration texts and log records use. -/
def name : Width → String
  | day => "day"
  | week => "week"

/-- The name with a capital, as diagnostics print it. -/
def title : Width → String
  | day => "Day"
  | week => "Week"

def ofName? (s : List Char) : Option Width :=
  if s = day.name.toList then some day
  else if s = week.name.toList then some week
  else none

theorem seconds_pos (w : Width) : 0 < w.seconds := by cases w <;> decide

theorem seconds_le (w : Width) : w.seconds ≤ 604800 := by cases w <;> decide

end Width

end Rollover
