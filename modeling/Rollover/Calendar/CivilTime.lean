/-
Times as people give them: a date and a time of day, to the nanosecond, with room
for a leap second.

A civil time counts seconds on its own clock, which may be the clock of any zone.
In a leap second the nanoseconds run on to two thousand million while the second
stands still, so that comparison by seconds and then nanoseconds is still right.
What passes between two civil times has to count a leap second that lies between
them: since only the time of day tells where it stands, `since` adds one if the
earlier time of day is inside a leap second, and takes one off if that is the one
counted from.
-/
import Rollover.Calendar.Fields
import Rollover.Calendar.Zone
import Rollover.Instant

namespace Rollover

structure CivilTime where
  secs : Int
  nanos : Nat
  first_le : Instant.first ≤ secs
  le_last : secs ≤ Instant.last
  nanos_lt : nanos < 2000000000

namespace CivilTime

@[ext] theorem ext_parts {a b : CivilTime} (hs : a.secs = b.secs) (hn : a.nanos = b.nanos) :
    a = b := by
  cases a; cases b; simp_all

instance : DecidableEq CivilTime := fun a b =>
  decidable_of_decidable_of_iff
    (show a.secs = b.secs ∧ a.nanos = b.nanos ↔ a = b from
      ⟨fun h => ext_parts h.1 h.2, fun h => h ▸ ⟨rfl, rfl⟩⟩)

def ofParts? (secs : Int) (nanos : Nat) : Option CivilTime :=
  if h : Instant.first ≤ secs ∧ secs ≤ Instant.last ∧ nanos < 2000000000 then
    some ⟨secs, nanos, h.1, h.2.1, h.2.2⟩
  else none

/-- An instant as the clocks of universal time show it. -/
def ofInstant (t : Instant) : CivilTime :=
  ⟨t.secs, t.nanos, t.first_le, t.le_last, Nat.lt_trans t.nanos_lt (by decide)⟩

def fields (t : CivilTime) : Fields := .ofSeconds t.secs t.nanos

/-- The civil time that a reading shows, if the reading is valid and inside the calendar. -/
def ofFields? (f : Fields) : Option CivilTime :=
  if f.Valid then ofParts? f.seconds f.nanos else none

/-- The same moment on the clocks of universal time, if their calendar reaches it. -/
def toUtc? (z : Zone) (t : CivilTime) : Option CivilTime := ofParts? (t.secs - z.secs) t.nanos

/-- Strictly earlier. -/
def before (a b : CivilTime) : Prop := a.secs < b.secs ∨ a.secs = b.secs ∧ a.nanos < b.nanos

instance (a b : CivilTime) : Decidable (a.before b) := inferInstanceAs (Decidable (_ ∨ _ ∧ _))

/-- The leap second, if any, that lies between two times of day. -/
def leapBetween (a b : CivilTime) : Int :=
  if b.secs % 86400 < a.secs % 86400 then (if 1000000000 ≤ b.nanos then 1 else 0)
  else if a.secs % 86400 < b.secs % 86400 then (if 1000000000 ≤ a.nanos then -1 else 0)
  else 0

theorem leapBetween_le (a b : CivilTime) : leapBetween a b ≤ 1 := by
  unfold leapBetween; repeat' split
  all_goals decide

theorem le_leapBetween (a b : CivilTime) : -1 ≤ leapBetween a b := by
  unfold leapBetween; repeat' split
  all_goals decide

/-- The time that passes from `b` to `a`. -/
def since (a b : CivilTime) : Span :=
  ⟨(a.secs - b.secs + leapBetween a b) * 1000000000 + (a.nanos - b.nanos),
    by have := a.first_le; have := a.le_last; have := b.first_le; have := b.le_last
       have := a.nanos_lt; have := b.nanos_lt
       have := leapBetween_le a b; have := le_leapBetween a b
       unfold Instant.first Instant.last at *; unfold Span.limit; omega,
    by have := a.first_le; have := a.le_last; have := b.first_le; have := b.le_last
       have := a.nanos_lt; have := b.nanos_lt
       have := leapBetween_le a b; have := le_leapBetween a b
       unfold Instant.first Instant.last at *; unfold Span.limit; omega⟩

/-! ### Writing -/

/-- The time to the second, as its own clock shows it. -/
def text (t : CivilTime) : String := String.ofList t.fields.text

/-- A time of universal time as the clocks of a zone show it, to the second. -/
def textIn (z : Zone) (t : CivilTime) : String :=
  String.ofList (Fields.ofSeconds (t.secs + z.secs) t.nanos).text

/-- A time of universal time in full, with the name of its clock. -/
def utcText (t : CivilTime) : String :=
  String.ofList (t.fields.text ++ t.fields.fractionText ++ " UTC".toList)

end CivilTime

/-- An instant in full, with the name of its clock. -/
def Instant.utcText (t : Instant) : String := (CivilTime.ofInstant t).utcText

/-- An instant as the clocks of a zone show it, to the second. -/
def Instant.textIn (z : Zone) (t : Instant) : String := (CivilTime.ofInstant t).textIn z

end Rollover
