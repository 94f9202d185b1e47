/-
Lengths of time, of either sign, to the nanosecond.

A span is bounded by what a signed 64-bit count of milliseconds can say.  Its
whole seconds and whole milliseconds are cut toward zero, so a span and its
negative always count alike; `floorSeconds` is the other rounding, which goes
with a non-negative rest.
-/
import Rollover.Word

namespace Rollover

namespace Span

/-- The longest span, in nanoseconds: as many milliseconds as a 64-bit cell can count. -/
def limit : Int := 9223372036854775807000000

/-- The most whole seconds that a span can have. -/
def maxSeconds : Int := 9223372036854775

end Span

structure Span where
  nanos : Int
  neg_limit_le : -Span.limit ≤ nanos
  le_limit : nanos ≤ Span.limit
deriving DecidableEq

namespace Span

@[ext] theorem ext_nanos {a b : Span} (h : a.nanos = b.nanos) : a = b := by
  cases a; cases b; simp_all

def ofNanos? (n : Int) : Option Span :=
  if h : -limit ≤ n ∧ n ≤ limit then some ⟨n, h.1, h.2⟩ else none

def zero : Span := ⟨0, by decide, by decide⟩

/-- A span of exactly `n` seconds, if there is one. -/
def ofSeconds? (n : Int) : Option Span :=
  if h : -maxSeconds ≤ n ∧ n ≤ maxSeconds then
    some ⟨n * 1000000000, by unfold maxSeconds at h; unfold limit; omega,
      by unfold maxSeconds at h; unfold limit; omega⟩
  else none

/-- A span of `n` seconds, or the longest whole number of seconds on that side. -/
def ofSeconds (n : Int) : Span :=
  ⟨max (-maxSeconds) (min n maxSeconds) * 1000000000,
    by unfold maxSeconds limit; omega, by unfold maxSeconds limit; omega⟩

/-- How many whole units of `unit` nanoseconds there are in `n`, cut toward zero. -/
def cut (unit n : Int) : Int := if 0 ≤ n then n / unit else -(-n / unit)

/-- The seconds of a span, cut toward zero. -/
def wholeSeconds (d : Span) : Int := cut 1000000000 d.nanos

/-- The milliseconds of a span, cut toward zero. -/
def wholeMillis (d : Span) : Int := cut 1000000 d.nanos

/-- The whole second at or below the span. -/
def floorSeconds (d : Span) : Int := d.nanos / 1000000000

/-- What `floorSeconds` leaves over, in nanoseconds. -/
def restNanos (d : Span) : Int := d.nanos % 1000000000

/-- The seconds by which an optional shift moves a boundary; no shift moves it by none. -/
def shiftSeconds (extra : Option Span) : Int := (extra.map wholeSeconds).getD 0

/-! ### Whole seconds -/

theorem cut_eq_tdiv (unit n : Int) : cut unit n = n.tdiv unit := by
  unfold cut
  by_cases h : 0 ≤ n
  · rw [if_pos h, Int.tdiv_eq_ediv_of_nonneg h]
  · rw [if_neg h, ← Int.tdiv_eq_ediv_of_nonneg (by omega : 0 ≤ -n), Int.neg_tdiv, Int.neg_neg]

theorem wholeSeconds_eq_tdiv (d : Span) : d.wholeSeconds = d.nanos.tdiv 1000000000 :=
  cut_eq_tdiv 1000000000 d.nanos

theorem wholeSeconds_le_wholeSeconds {a b : Span} (h : a.nanos ≤ b.nanos) :
    a.wholeSeconds ≤ b.wholeSeconds := by
  rw [wholeSeconds_eq_tdiv, wholeSeconds_eq_tdiv]
  exact Int.tdiv_le_tdiv (by decide) h

theorem wholeSeconds_le (d : Span) : d.wholeSeconds ≤ maxSeconds := by
  have := d.le_limit; have := d.neg_limit_le
  unfold limit at *; unfold wholeSeconds cut maxSeconds; split <;> omega

theorem le_wholeSeconds (d : Span) : -maxSeconds ≤ d.wholeSeconds := by
  have := d.le_limit; have := d.neg_limit_le
  unfold limit at *; unfold wholeSeconds cut maxSeconds; split <;> omega

theorem wholeSeconds_ofSeconds {n : Int} (lo : -maxSeconds ≤ n) (hi : n ≤ maxSeconds) :
    (ofSeconds n).wholeSeconds = n := by
  have h : max (-maxSeconds) (min n maxSeconds) = n := by omega
  simp only [ofSeconds, wholeSeconds, h]
  unfold cut; split <;> omega

end Span

end Rollover
