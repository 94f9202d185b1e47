/-
Days nest in weeks.

A week is seven days, and both widths are counted from one anchor with one refresh.  Their
numbers are quotients of one and the same figure, so the number of a week is that of any
of its days over seven, rounded down, whatever was cut off on the way to that figure.  Two
instants of one day are then of one week.

For boundaries it is enough that each is the least instant with its number.  The boundary of
a day has the number of its week as well, so it does not come before the boundary of the
week; and no day that begins before a week's boundary reaches up to it, so that boundary
is the one of its day too.

How far the two lie apart is a matter of remainders.  What is left of a week is what is left
of a day and some whole days, six at most.  The one thing that may come between is the
beginning of the calendar, which stands for the boundary of a week that begins earlier and
need not be where a day begins.
-/
import Rollover.Proofs.Boundary

namespace Rollover

namespace Bucket

/-! ### Numbers -/

/-- The number of a week is that of the day over seven, wherever a difference is cut off. -/
theorem index_week (anchor refresh t : Int) :
    index .week anchor refresh t = index .day anchor refresh t / 7 := by
  show Word.sub (Word.sub t refresh) anchor / 604800 =
    Word.sub (Word.sub t refresh) anchor / 86400 / 7
  omega

theorem indexOf_week (anchor : Int) (refresh : Option Span) (t : Instant) :
    indexOf .week anchor refresh t = indexOf .day anchor refresh t / 7 :=
  index_week anchor (Span.shiftSeconds refresh) t.secs

theorem indexOf_week_congr {anchor : Int} {refresh : Option Span} {l r : Instant}
    (h : indexOf .day anchor refresh l = indexOf .day anchor refresh r) :
    indexOf .week anchor refresh l = indexOf .week anchor refresh r := by
  rw [indexOf_week, indexOf_week, h]

/-! ### Boundaries -/

section Boundaries

variable {anchor : Int} {refresh : Option Span}

theorem refresh_week_le_day (ha : Instant.InCalendar anchor) (t : Instant) :
    refreshAtOrBefore .week anchor refresh t ≤ refreshAtOrBefore .day anchor refresh t :=
  (isLeast_refreshAtOrBefore ha t).2 (indexOf_week_congr (indexOf_refreshAtOrBefore ha t))

/-- The boundary of a week is the boundary of its day. -/
theorem refresh_day_week (ha : Instant.InCalendar anchor) (t : Instant) :
    refreshAtOrBefore .day anchor refresh (refreshAtOrBefore .week anchor refresh t) =
      refreshAtOrBefore .week anchor refresh t := by
  have hday : indexOf .day anchor refresh
        (refreshAtOrBefore .day anchor refresh (refreshAtOrBefore .week anchor refresh t)) =
      indexOf .day anchor refresh (refreshAtOrBefore .week anchor refresh t) :=
    indexOf_refreshAtOrBefore ha _
  refine le_antisymm ((isLeast_refreshAtOrBefore ha _).2 rfl) ?_
  -- The day it begins is one of the same week, and that week has no earlier instant.
  exact (isLeast_refreshAtOrBefore ha t).2
    ((indexOf_week_congr hday).trans (indexOf_refreshAtOrBefore ha t))

/-- What is left of a week is what is left of a day, and whole days. -/
theorem emod_week (n : Int) :
    n % Width.week.seconds =
      n % Width.day.seconds + n / Width.day.seconds % 7 * Width.day.seconds := by
  show n % 604800 = n % 86400 + n / 86400 % 7 * 86400
  omega

theorem refreshSecs_day (ha : Instant.InCalendar anchor) (t : Instant) :
    refreshSecs .day anchor refresh t =
      refreshSecs .week anchor refresh t
        + indexOf .day anchor refresh t % 7 * Width.day.seconds := by
  rw [refreshSecs_eq ha, refreshSecs_eq ha, indexOf_eq ha, emod_week]
  omega

/-- A week that begins in the calendar begins with the first of its seven days. -/
theorem indexOf_day_week (ha : Instant.InCalendar anchor) {t : Instant}
    (hin : Instant.InCalendar (refreshSecs .week anchor refresh t)) :
    indexOf .day anchor refresh (refreshAtOrBefore .week anchor refresh t) =
      7 * indexOf .week anchor refresh t := by
  rw [indexOf_eq ha, indexOf_eq ha, secs_refreshAtOrBefore_of_inCalendar hin, refreshSecs_eq ha]
  show (t.secs - (t.secs - rollSecs anchor refresh) % 604800 - rollSecs anchor refresh) / 86400 =
    7 * ((t.secs - rollSecs anchor refresh) / 604800)
  omega

/-- The boundary of a day lies as many days after that of the week as the number of the day says. -/
theorem addSeconds?_refresh_week (ha : Instant.InCalendar anchor) {t : Instant}
    (hin : Instant.InCalendar (refreshSecs .week anchor refresh t)) :
    (refreshAtOrBefore .week anchor refresh t).addSeconds?
        (indexOf .day anchor refresh t % 7 * Width.day.seconds) =
      some (refreshAtOrBefore .day anchor refresh t) := by
  have hdays : 0 ≤ indexOf .day anchor refresh t % 7 * Width.day.seconds :=
    Int.mul_nonneg (Int.emod_nonneg _ (by decide)) Width.day.seconds_pos.le
  have hsecs : (refreshAtOrBefore .day anchor refresh t).secs = max Instant.first
      (refreshSecs .week anchor refresh t
        + indexOf .day anchor refresh t % 7 * Width.day.seconds) := by
    rw [← refreshSecs_day ha, refreshSecs_eq ha, secs_refreshAtOrBefore ha]
  have hfirst := hin.1
  refine Instant.addSeconds?_eq_some_iff.mpr ⟨?_, rfl⟩
  rw [hsecs, secs_refreshAtOrBefore_of_inCalendar hin]
  omega

end Boundaries

end Bucket

namespace Clock

theorem sameBucket_iff (c : Clock) (w : Width) (refresh : Option Span) (l r : Instant) :
    c.sameBucket w refresh l r = true ↔ c.bucketIndex w refresh l = c.bucketIndex w refresh r :=
  beq_iff_eq

/-- The week of `t` is made of whole days, and the day of `t` is one of its seven. -/
structure WholeDays (c : Clock) (refresh : Option Span) (t : Instant) : Prop where
  first : c.bucketIndex .day refresh (c.lastRefresh .week refresh t) =
    7 * c.bucketIndex .week refresh t
  later : ∃ k, 0 ≤ k ∧ k ≤ 6 ∧
    (c.lastRefresh .week refresh t).addSeconds? (k * Width.day.seconds) =
      some (c.lastRefresh .day refresh t)

theorem wholeDays {c : Clock} {refresh : Option Span} {t : Instant}
    (h : Instant.InCalendar c.anchorSecs)
    (hin : Instant.InCalendar (Bucket.refreshSecs .week c.anchorSecs refresh t)) :
    c.WholeDays refresh t := by
  refine ⟨Bucket.indexOf_day_week h hin, c.bucketIndex .day refresh t % 7, ?_, ?_, ?_⟩
  · exact Int.emod_nonneg _ (by decide)
  · exact Int.le_of_lt_add_one (Int.emod_lt_of_pos _ (by decide))
  · exact Bucket.addSeconds?_refresh_week h hin

end Clock

namespace Server

/--
**Days nest in weeks.**  The number of a week is that of the day over seven, for all
seconds, anchors and refreshes, so whatever is one day is one week.  After any run the
boundary of the week is not after the boundary of the day, which is not after the instant,
and it is the boundary of its own day.  Unless the calendar begins later than the week, the
week begins with the day whose number is seven times its own, and the present day begins a
whole number of days after it, six at most.
-/
theorem days_nest_in_weeks (refresh : Option Span) :
    (∀ anchor shift t, Bucket.index .week anchor shift t = Bucket.index .day anchor shift t / 7) ∧
      (∀ (c : Clock) t, c.bucketIndex .week refresh t = c.bucketIndex .day refresh t / 7) ∧
      (∀ (c : Clock) l r, c.sameBucket .day refresh l r = true →
        c.sameBucket .week refresh l r = true) ∧
      ∀ src fs acts t, let c := ((fresh src fs).run acts).clock
        c.lastRefresh .week refresh t ≤ c.lastRefresh .day refresh t ∧
          c.lastRefresh .day refresh t ≤ t ∧
          c.lastRefresh .day refresh (c.lastRefresh .week refresh t) =
            c.lastRefresh .week refresh t ∧
          (Instant.InCalendar (Bucket.refreshSecs .week c.anchorSecs refresh t) →
            c.WholeDays refresh t) := by
  refine ⟨Bucket.index_week, ?_, ?_, ?_⟩
  · intro c t
    exact Bucket.indexOf_week c.anchorSecs refresh t
  · intro c l r hday
    rw [Clock.sameBucket_iff] at hday ⊢
    exact Bucket.indexOf_week_congr hday
  · intro src fs acts t c
    have h : Instant.InCalendar c.anchorSecs :=
      inCalendar_anchor_run acts (inCalendar_anchor_fresh src fs)
    refine ⟨Bucket.refresh_week_le_day h t, ?_, Bucket.refresh_day_week h t, Clock.wholeDays h⟩
    exact (Bucket.isLeast_refreshAtOrBefore h t).2 rfl

/-- An hour and a half before midnight. -/
def lateRefresh : Option Span := some (.ofSeconds (-5400))

/-- A clock anchored at the first Monday of 1970. -/
def mondays : Clock :=
  ((fresh (.fixed (.ofSeconds 0)) .empty).run [.setAnchor (.ofSeconds 345600)]).clock

/-- Weeks roll on Sundays at half past ten in the evening.  The last two seconds before they first
do in 1970 are of one day and one week, and their day begins six days after their week. -/
theorem days_nest_in_weeks_beforeMonday :
    mondays.sameBucket .day lateRefresh (.ofSeconds 340198) (.ofSeconds 340199) = true ∧
      mondays.sameBucket .week lateRefresh (.ofSeconds 340198) (.ofSeconds 340199) = true ∧
      mondays.lastRefresh .week lateRefresh (.ofSeconds 340199) = .ofSeconds (-264600) ∧
      mondays.lastRefresh .day lateRefresh (.ofSeconds 340199) = .ofSeconds 253800 ∧
      mondays.WholeDays lateRefresh (.ofSeconds 340199) := by
  obtain ⟨-, -, hsame, hboundaries⟩ := days_nest_in_weeks lateRefresh
  refine ⟨by decide, hsame mondays _ _ (by decide), by decide, by decide, ?_⟩
  exact (hboundaries (.fixed (.ofSeconds 0)) .empty [.setAnchor (.ofSeconds 345600)]
    (.ofSeconds 340199)).2.2.2 (by decide)

/-- The calendar begins in the middle of one of these weeks, and not with its first day. -/
example :
    mondays.bucketIndex .day none (mondays.lastRefresh .week none (.ofSeconds Instant.first)) ≠
      7 * mondays.bucketIndex .week none (.ofSeconds Instant.first) := by decide

end Server

end Rollover
