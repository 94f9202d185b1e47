/-
The two ways to use a shift.

One moves the start of a bucket forward once it has been found.  The other moves the
instant back, looks for its bucket, and moves that forward again.  Both speak of seconds
that lie the shift past the grid, and for a shift of less than a width they differ by a
carry: moving back leaves the bucket exactly when the instant is not yet as far into it as
the shift is long.

So there are two cases, told apart by whether the shifted start has been reached.  If it
has, it is the latest boundary, and the number with the shift is the one without.  If it
has not, the latest boundary is the one a width before, and the number with the shift is
less by one.  What both cases share is that the shifted start has, with the shift, the
number that the instant has without.

The ends of the calendar stay out of it.  A start or a boundary that is outside and has
been replaced by the nearest instant need not be where anything rolls.
-/
import Rollover.Proofs.NextRefresh

namespace Rollover

namespace Bucket

/-- The second of the start of the bucket of `t` with its shift, whether the calendar has it or
not. -/
def startSecs (w : Width) (anchor : Int) (extra : Option Span) (t : Instant) : Int :=
  Word.add (start w anchor t.secs) (Span.shiftSeconds extra)

theorem startWith_eq_ofSeconds (w : Width) (anchor : Int) (extra : Option Span) (t : Instant) :
    startWith w anchor extra t = .ofSeconds (startSecs w anchor extra t) := rfl

section Carry

variable {w : Width} {anchor : Int} {x : Option Span} {t : Instant}

theorem startSecs_eq (ha : Instant.InCalendar anchor) (x : Option Span) (t : Instant) :
    startSecs w anchor x t = t.secs - (t.secs - anchor) % w.seconds + Span.shiftSeconds x := by
  have hshift := Span.small_shiftSeconds x
  have ht := t.inCalendar_secs.small
  have hle := start_le (w := w) ha t.inCalendar_secs
  have hlt := lt_start_add (w := w) ha t.inCalendar_secs
  have hw := w.seconds_le
  rw [startSecs, Word.add_eq_of_fits (Word.fits_of_small (by omega) (by omega)),
    start_eq ha t.inCalendar_secs]

theorem secs_startWith_of_inCalendar (hin : Instant.InCalendar (startSecs w anchor x t)) :
    (startWith w anchor x t).secs = startSecs w anchor x t :=
  Instant.secs_ofSeconds hin.1 hin.2

/-- The latest boundary lies a width before the next roll. -/
theorem refreshSecs_eq_nextRoll_sub (ha : Instant.InCalendar anchor) (x : Option Span)
    (t : Instant) : refreshSecs w anchor x t = nextRoll w anchor x t.secs - w.seconds := by
  rw [refreshSecs_eq ha, nextRoll]
  omega

/-! ### The carry -/

theorem startSecs_of_shift_le (ha : Instant.InCalendar anchor) (hx : 0 ≤ Span.shiftSeconds x)
    (hx' : Span.shiftSeconds x < w.seconds)
    (h : Span.shiftSeconds x ≤ (t.secs - anchor) % w.seconds) :
    startSecs w anchor x t = refreshSecs w anchor x t := by
  rw [startSecs_eq ha, refreshSecs_eq_nextRoll_sub ha, nextRoll_of_shift_le hx hx' h]
  omega

theorem startSecs_of_lt_shift (ha : Instant.InCalendar anchor)
    (hx' : Span.shiftSeconds x < w.seconds)
    (h : (t.secs - anchor) % w.seconds < Span.shiftSeconds x) :
    startSecs w anchor x t = refreshSecs w anchor x t + w.seconds := by
  rw [startSecs_eq ha, refreshSecs_eq_nextRoll_sub ha, nextRoll_of_lt_shift hx' h]
  omega

/-- The shifted start has been reached when the instant is a shift into its bucket. -/
theorem startWith_le_floor_iff (ha : Instant.InCalendar anchor)
    (hin : Instant.InCalendar (startSecs w anchor x t)) :
    startWith w anchor x t ≤ t.floor ↔ Span.shiftSeconds x ≤ (t.secs - anchor) % w.seconds := by
  have hsecs := secs_startWith_of_inCalendar hin
  rw [startSecs_eq ha] at hsecs
  constructor
  · intro hle
    have hle := Instant.secs_le_of_le hle
    rw [hsecs, Instant.secs_floor] at hle
    omega
  · intro hle
    refine Instant.le_of_secs_le rfl ?_
    rw [hsecs, Instant.secs_floor]
    omega

/-! ### The number of the shifted start -/

theorem ediv_shifted_start (w : Width) (anchor : Int) (x : Option Span) (t : Int) :
    (t - (t - anchor) % w.seconds + Span.shiftSeconds x - rollSecs anchor x) / w.seconds =
      (t - anchor) / w.seconds := by
  unfold rollSecs
  rcases w.seconds_eq with hw | hw <;> rw [hw] <;> omega

theorem indexOf_startWith (ha : Instant.InCalendar anchor)
    (hin : Instant.InCalendar (startSecs w anchor x t)) :
    indexOf w anchor x (startWith w anchor x t) = indexOf w anchor none t := by
  rw [indexOf_eq ha, indexOf_none ha, secs_startWith_of_inCalendar hin, startSecs_eq ha]
  exact ediv_shifted_start w anchor x t.secs

/--
**The two ways differ by a carry.**  Take a shift of less than a width, and an instant for
which neither answer is outside the calendar.  Once the shifted start of its bucket has
been reached, it is the latest boundary; before, it lies exactly a width after that.  With
the shift it always has the number of the instant without, which is also the number of the
instant with the shift, or one more.
-/
theorem shifted_start_carries (ha : Instant.InCalendar anchor) (hx : 0 ≤ Span.shiftSeconds x)
    (hx' : Span.shiftSeconds x < w.seconds)
    (hstart : Instant.InCalendar (startSecs w anchor x t))
    (hrefresh : Instant.InCalendar (refreshSecs w anchor x t)) :
    indexOf w anchor x (startWith w anchor x t) = indexOf w anchor none t ∧
      (startWith w anchor x t ≤ t.floor →
        startWith w anchor x t = refreshAtOrBefore w anchor x t ∧
          indexOf w anchor none t = indexOf w anchor x t) ∧
      (t.floor < startWith w anchor x t →
        (refreshAtOrBefore w anchor x t).addSeconds? w.seconds = some (startWith w anchor x t) ∧
          indexOf w anchor none t = indexOf w anchor x t + 1) := by
  refine ⟨indexOf_startWith ha hstart, ?_, ?_⟩
  · intro hreached
    have hinto := (startWith_le_floor_iff ha hstart).mp hreached
    refine ⟨?_, ?_⟩
    · rw [startWith_eq_ofSeconds, startSecs_of_shift_le ha hx hx' hinto,
        refreshAtOrBefore_eq_ofSeconds]
    · rw [indexOf_none ha, indexOf_eq ha, ediv_roll_of_shift_le hx hinto]
  · intro hahead
    have hinto : (t.secs - anchor) % w.seconds < Span.shiftSeconds x :=
      not_le.mp fun hle => not_le.mpr hahead ((startWith_le_floor_iff ha hstart).mpr hle)
    have hnumber := ediv_roll_of_lt_shift hx' hinto
    refine ⟨Instant.addSeconds?_eq_some_iff.mpr ⟨?_, rfl⟩, ?_⟩
    · rw [secs_startWith_of_inCalendar hstart, secs_refreshAtOrBefore_of_inCalendar hrefresh,
        startSecs_of_lt_shift ha hx' hinto]
    · rw [indexOf_none ha, indexOf_eq ha, hnumber]
      omega

end Carry

/-- Buckets that roll at two in the morning. -/
def atTwo : Option Span := some (.ofSeconds 7200)

/-- Weeks are counted from the first Monday of 1970.  In the week before, on Monday at one, the
shifted start is still ahead; on Tuesday it is the latest boundary. -/
theorem shifted_start_carries_weekBefore :
    (refreshAtOrBefore .week 345600 atTwo (.ofSeconds (-255600))).addSeconds? Width.week.seconds =
        some (startWith .week 345600 atTwo (.ofSeconds (-255600))) ∧
      indexOf .week 345600 none (.ofSeconds (-255600)) =
        indexOf .week 345600 atTwo (.ofSeconds (-255600)) + 1 ∧
      startWith .week 345600 atTwo (.ofSeconds (-172800)) =
        refreshAtOrBefore .week 345600 atTwo (.ofSeconds (-172800)) ∧
      startWith .week 345600 atTwo (.ofSeconds (-172800)) = .ofSeconds (-252000) := by
  have ha : Instant.InCalendar 345600 := by decide
  obtain ⟨-, -, hahead⟩ := shifted_start_carries (w := .week) (x := atTwo)
    (t := .ofSeconds (-255600)) ha (by decide) (by decide) (by decide) (by decide)
  obtain ⟨-, hreached, -⟩ := shifted_start_carries (w := .week) (x := atTwo)
    (t := .ofSeconds (-172800)) ha (by decide) (by decide) (by decide) (by decide)
  obtain ⟨hlater, hnumber⟩ := hahead (Instant.lt_of_secs_lt (by decide))
  exact ⟨hlater, hnumber, (hreached (Instant.le_of_secs_le rfl (by decide))).1, by decide⟩

end Bucket

end Rollover
