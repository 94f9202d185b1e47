/-
Moments of universal time.

The calendar reaches from the first second of the year -262143 to the last second
of the year 262142, and an instant outside it cannot be written down.  Numbers
that point further are taken to the nearer end (`ofSeconds`), so that arithmetic
on an operator's figures always has an answer; only `addSeconds?` reports that
there is none.
-/
import Rollover.Span

namespace Rollover

namespace Instant

/-- The first second of the calendar, counted from 1970. -/
def first : Int := -8334601228800

/-- The last second of the calendar. -/
def last : Int := 8210266876799

end Instant

/-- A whole second and the nanoseconds past it. -/
structure Instant where
  secs : Int
  nanos : Nat
  first_le : Instant.first ≤ secs
  le_last : secs ≤ Instant.last
  nanos_lt : nanos < 1000000000
deriving DecidableEq

namespace Instant

@[ext] theorem ext_parts {a b : Instant} (hs : a.secs = b.secs) (hn : a.nanos = b.nanos) :
    a = b := by
  cases a; cases b; simp_all

def ofParts? (secs : Int) (nanos : Nat) : Option Instant :=
  if h : first ≤ secs ∧ secs ≤ last ∧ nanos < 1000000000 then
    some ⟨secs, nanos, h.1, h.2.1, h.2.2⟩
  else none

/-- The instant of a second, or the end of the calendar that is nearest to it. -/
def ofSeconds (n : Int) : Instant :=
  ⟨max first (min n last), 0, by unfold first last; omega, by unfold first last; omega, by decide⟩

/-- The beginning of the second that an instant lies in. -/
def floor (t : Instant) : Instant := ofSeconds t.secs

/-- Milliseconds since 1970, rounded down. -/
def millis (t : Instant) : Int := t.secs * 1000 + (t.nanos / 1000000 : Nat)

/-- The instant of a count of milliseconds, or the end of the calendar that is nearest to it. -/
def ofMillis (n : Int) : Instant :=
  if h : first ≤ n / 1000 ∧ n / 1000 ≤ last then
    ⟨n / 1000, (n % 1000).toNat * 1000000, h.1, h.2, by omega⟩
  else ofSeconds (n / 1000)

/-- `n` seconds later, if the calendar reaches that far. -/
def addSeconds? (t : Instant) (n : Int) : Option Instant := ofParts? (t.secs + n) t.nanos

/-- The time that passes from `a` to `b`. -/
def spanTo (a b : Instant) : Span :=
  ⟨(b.secs - a.secs) * 1000000000 + (b.nanos - a.nanos),
    by have := a.first_le; have := a.le_last; have := b.first_le; have := b.le_last
       have := a.nanos_lt; have := b.nanos_lt
       unfold first last at *; unfold Span.limit; omega,
    by have := a.first_le; have := a.le_last; have := b.first_le; have := b.le_last
       have := a.nanos_lt; have := b.nanos_lt
       unfold first last at *; unfold Span.limit; omega⟩

/-! ### Reading an instant back -/

theorem secs_ofSeconds {n : Int} (lo : first ≤ n) (hi : n ≤ last) : (ofSeconds n).secs = n := by
  unfold first at lo; unfold last at hi; simp only [ofSeconds, first, last]; omega

@[simp] theorem nanos_ofSeconds (n : Int) : (ofSeconds n).nanos = 0 := rfl

@[simp] theorem secs_floor (t : Instant) : t.floor.secs = t.secs :=
  secs_ofSeconds t.first_le t.le_last

@[simp] theorem nanos_floor (t : Instant) : t.floor.nanos = 0 := rfl

end Instant

end Rollover
