/-
When the wait for the next bucket meets the next refresh.

A server whose days roll some hours past midnight uses the hour in two ways.  To ask
whether two instants belong to one day it moves them back by it before they are
numbered; to wait for the next day it moves the end of the present bucket, which lies
on the grid of midnights, forward by it.  The two speak of the same seconds, since a
midnight and the hour is where a number changes.  They need not speak of the same one
of them.

What decides is on which side of the hour the present bucket has been entered.  From
the hour on, the number next changes at the shifted end of the bucket, and the wait
ends exactly there.  Before it, the number still changes once within the bucket: the
refresh at the shifted start comes first, and a wait that begins now sleeps through
it and wakes a whole width later.  It never sleeps through more than that one.
-/
import Rollover.Proofs.Boundary
import Rollover.Proofs.RefreshLoop

namespace Rollover

theorem Instant.lt_of_secs_lt {a b : Instant} (h : a.secs < b.secs) : a < b :=
  not_le.mp fun hle => absurd (secs_le_of_le hle) (by omega)

/-! ### Where the numbers change next -/

namespace Bucket

section Exact

variable {w : Width} {anchor : Int} {refresh : Option Span}

/-- The second at which buckets roll next after second `t`. -/
def nextRoll (w : Width) (anchor : Int) (refresh : Option Span) (t : Int) : Int :=
  t - (t - rollSecs anchor refresh) % w.seconds + w.seconds

theorem lt_nextRoll (w : Width) (anchor : Int) (refresh : Option Span) (t : Int) :
    t < nextRoll w anchor refresh t := by
  have hhi := Int.emod_lt_of_pos (t - rollSecs anchor refresh) w.seconds_pos
  unfold nextRoll
  omega

/-- Up to the next roll the quotient stays. -/
theorem ediv_eq_of_lt_nextRoll {s t : Int} (hlo : t ≤ s) (hhi : s < nextRoll w anchor refresh t) :
    (s - rollSecs anchor refresh) / w.seconds = (t - rollSecs anchor refresh) / w.seconds := by
  unfold nextRoll at hhi
  rcases w.seconds_eq with hw | hw <;> rw [hw] at hhi ⊢ <;> omega

/-- At the next roll it is greater by one. -/
theorem ediv_nextRoll (w : Width) (anchor : Int) (refresh : Option Span) (t : Int) :
    (nextRoll w anchor refresh t - rollSecs anchor refresh) / w.seconds =
      (t - rollSecs anchor refresh) / w.seconds + 1 := by
  unfold nextRoll
  rcases w.seconds_eq with hw | hw <;> rw [hw] <;> omega

/-- A bucket that is entered rolls either at its shifted start or at its shifted end. -/
theorem nextRoll_of_shift_le {t : Int} (hx : 0 ≤ Span.shiftSeconds refresh)
    (hx' : Span.shiftSeconds refresh < w.seconds)
    (h : Span.shiftSeconds refresh ≤ (t - anchor) % w.seconds) :
    nextRoll w anchor refresh t =
      t - (t - anchor) % w.seconds + w.seconds + Span.shiftSeconds refresh := by
  unfold nextRoll rollSecs
  rcases w.seconds_eq with hw | hw <;> rw [hw] at hx' h ⊢ <;> omega

theorem nextRoll_of_lt_shift {t : Int} (hx' : Span.shiftSeconds refresh < w.seconds)
    (h : (t - anchor) % w.seconds < Span.shiftSeconds refresh) :
    nextRoll w anchor refresh t = t - (t - anchor) % w.seconds + Span.shiftSeconds refresh := by
  unfold nextRoll rollSecs
  rcases w.seconds_eq with hw | hw <;> rw [hw] at hx' h ⊢ <;> omega

theorem nextRoll_nextRoll (w : Width) (anchor : Int) (refresh : Option Span) (t : Int) :
    nextRoll w anchor refresh (nextRoll w anchor refresh t) =
      nextRoll w anchor refresh t + w.seconds := by
  unfold nextRoll
  rcases w.seconds_eq with hw | hw <;> rw [hw] <;> omega

/-- The number that a bucket has without a shift is given to the instants from its shifted start
on, and those before it have the number of the bucket before. -/
theorem ediv_roll_of_shift_le {t : Int} (hx : 0 ≤ Span.shiftSeconds refresh)
    (h : Span.shiftSeconds refresh ≤ (t - anchor) % w.seconds) :
    (t - rollSecs anchor refresh) / w.seconds = (t - anchor) / w.seconds := by
  unfold rollSecs
  rcases w.seconds_eq with hw | hw <;> rw [hw] at h ⊢ <;> omega

theorem ediv_roll_of_lt_shift {t : Int} (hx' : Span.shiftSeconds refresh < w.seconds)
    (h : (t - anchor) % w.seconds < Span.shiftSeconds refresh) :
    (t - rollSecs anchor refresh) / w.seconds = (t - anchor) / w.seconds - 1 := by
  unfold rollSecs
  rcases w.seconds_eq with hw | hw <;> rw [hw] at hx' h ⊢ <;> omega

theorem ediv_shifted_end (w : Width) (anchor : Int) (refresh : Option Span) (t : Int) :
    (t - (t - anchor) % w.seconds + w.seconds + Span.shiftSeconds refresh
      - rollSecs anchor refresh) / w.seconds = (t - anchor) / w.seconds + 1 := by
  unfold rollSecs
  rcases w.seconds_eq with hw | hw <;> rw [hw] <;> omega

theorem indexOf_none (ha : Instant.InCalendar anchor) (t : Instant) :
    indexOf w anchor none t = (t.secs - anchor) / w.seconds := by
  have hroll : rollSecs anchor none = anchor := Int.add_zero anchor
  rw [indexOf_eq ha, hroll]

theorem indexOf_nextRoll (ha : Instant.InCalendar anchor) {t : Instant}
    (hin : Instant.InCalendar (nextRoll w anchor refresh t.secs)) :
    indexOf w anchor refresh (.ofSeconds (nextRoll w anchor refresh t.secs)) =
      indexOf w anchor refresh t + 1 := by
  rw [indexOf_eq ha, indexOf_eq ha, Instant.secs_ofSeconds hin.1 hin.2]
  exact ediv_nextRoll w anchor refresh t.secs

end Exact

end Bucket

namespace Clock

/-- The instant `b` is the first one after `t` at which the number of the bucket is another. -/
def FirstChange (c : Clock) (w : Width) (refresh : Option Span) (t b : Instant) : Prop :=
  IsLeast {u | t < u ∧ c.bucketIndex w refresh u ≠ c.bucketIndex w refresh t} b

variable {c : Clock} {w : Width} {x : Option Span}

theorem firstChange_nextRoll (h : Instant.InCalendar c.anchorSecs) {t : Instant}
    (hin : Instant.InCalendar (Bucket.nextRoll w c.anchorSecs x t.secs)) :
    c.FirstChange w x t (.ofSeconds (Bucket.nextRoll w c.anchorSecs x t.secs)) := by
  have hsecs := Instant.secs_ofSeconds hin.1 hin.2
  have hlt := Bucket.lt_nextRoll w c.anchorSecs x t.secs
  have hnumber := Bucket.indexOf_nextRoll h hin
  refine ⟨⟨Instant.lt_of_secs_lt (by rw [hsecs]; exact hlt), ?_⟩, ?_⟩
  · show Bucket.indexOf w c.anchorSecs x _ ≠ Bucket.indexOf w c.anchorSecs x t
    rw [hnumber]
    omega
  · rintro u ⟨hu, hne⟩
    refine Instant.le_of_secs_le rfl ?_
    rw [hsecs]
    by_contra hbefore
    refine hne ?_
    show Bucket.indexOf w c.anchorSecs x u = Bucket.indexOf w c.anchorSecs x t
    rw [Bucket.indexOf_eq h, Bucket.indexOf_eq h]
    exact Bucket.ediv_eq_of_lt_nextRoll (Instant.secs_le_of_le hu.le) (by omega)

/-! ### Where the wait ends -/

theorem waitNextStart_target (c : Clock) (w : Width) (x : Option Span) :
    (c.waitNextStart w x).value.1.target = (c.nextStart w x).value.1 := rfl

/-- With the edges that are computed anew, the wait ends at the shifted end of the bucket. -/
theorem boundarySecs_of_compute (h : Instant.InCalendar c.anchorSecs)
    (hp : c.present w = Edges.compute w c.anchorSecs c.logicalNow.secs) :
    c.boundarySecs w x = c.logicalNow.secs - (c.logicalNow.secs - c.anchorSecs) % w.seconds
      + w.seconds + Span.shiftSeconds x := by
  have hn := c.logicalNow.inCalendar_secs
  have hstop : (Edges.compute w c.anchorSecs c.logicalNow.secs).stop =
      Bucket.start w c.anchorSecs c.logicalNow.secs + w.seconds := Bucket.add_start_width h hn
  rw [boundarySecs, hp, hstop, Bucket.start_eq h hn]

theorem bucketStart_eq (h : Instant.InCalendar c.anchorSecs) (t : Instant) :
    c.bucketStart w x t =
      .ofSeconds (t.secs - (t.secs - c.anchorSecs) % w.seconds + Span.shiftSeconds x) := by
  rw [bucketStart, Bucket.startWith, Instant.ofSeconds_add, Bucket.start_eq h t.inCalendar_secs]

/-- The end of the wait lies in the bucket after the present one. -/
theorem bucketIndex_boundary (h : Instant.InCalendar c.anchorSecs)
    (hp : c.present w = Edges.compute w c.anchorSecs c.logicalNow.secs)
    (hin : Instant.InCalendar (c.boundarySecs w x)) :
    c.bucketIndex w x (.ofSeconds (c.boundarySecs w x)) =
      c.bucketIndex w none c.logicalNow + 1 := by
  show Bucket.indexOf w c.anchorSecs x _ = Bucket.indexOf w c.anchorSecs none _ + 1
  rw [Bucket.indexOf_eq h, Bucket.indexOf_none h, Instant.secs_ofSeconds hin.1 hin.2,
    boundarySecs_of_compute h hp]
  exact Bucket.ediv_shifted_end w c.anchorSecs x c.logicalNow.secs

theorem bucketIndex_of_shift_le (h : Instant.InCalendar c.anchorSecs) {t : Instant}
    (hx : 0 ≤ Span.shiftSeconds x)
    (ht : Span.shiftSeconds x ≤ (t.secs - c.anchorSecs) % w.seconds) :
    c.bucketIndex w x t = c.bucketIndex w none t := by
  show Bucket.indexOf w c.anchorSecs x t = Bucket.indexOf w c.anchorSecs none t
  rw [Bucket.indexOf_eq h, Bucket.indexOf_none h]
  exact Bucket.ediv_roll_of_shift_le hx ht

theorem bucketIndex_of_lt_shift (h : Instant.InCalendar c.anchorSecs) {t : Instant}
    (hx' : Span.shiftSeconds x < w.seconds)
    (ht : (t.secs - c.anchorSecs) % w.seconds < Span.shiftSeconds x) :
    c.bucketIndex w x t = c.bucketIndex w none t - 1 := by
  show Bucket.indexOf w c.anchorSecs x t = Bucket.indexOf w c.anchorSecs none t - 1
  rw [Bucket.indexOf_eq h, Bucket.indexOf_none h]
  exact Bucket.ediv_roll_of_lt_shift hx' ht

/-- An instant has its shifted start behind it when it is a shift into its bucket.  The calendar
must not end before that start, or the end would stand for it. -/
theorem shift_le_of_bucketStart_le (h : Instant.InCalendar c.anchorSecs) {t : Instant}
    (hle : c.bucketStart w x t ≤ t)
    (hlast : t.secs - (t.secs - c.anchorSecs) % w.seconds + w.seconds + Span.shiftSeconds x
      ≤ Instant.last) :
    Span.shiftSeconds x ≤ (t.secs - c.anchorSecs) % w.seconds := by
  have hsecs := Instant.secs_le_of_le hle
  have hw := w.seconds_pos
  rw [bucketStart_eq h] at hsecs
  simp only [Instant.ofSeconds] at hsecs
  omega

theorem lt_shift_of_lt_bucketStart (h : Instant.InCalendar c.anchorSecs) {t : Instant}
    (hlt : t < c.bucketStart w x t) :
    (t.secs - c.anchorSecs) % w.seconds < Span.shiftSeconds x := by
  by_contra hge
  refine absurd hlt (not_lt.mpr (Instant.le_of_secs_le rfl ?_))
  have hfirst := t.first_le
  rw [bucketStart_eq h]
  simp only [Instant.ofSeconds]
  omega

/-- What a wait that begins now and ends at `b` meets, when numbers roll `x` past the anchor. -/
structure Wakes (c : Clock) (w : Width) (x : Option Span) (b : Instant) : Prop where
  /-- The wait ends in the bucket after the present one, as the grid without a shift tells. -/
  number : c.bucketIndex w x b = c.bucketIndex w none c.logicalNow + 1
  /-- From the shifted start of the bucket on, the wait ends where the number first changes. -/
  on_time : c.bucketStart w x c.logicalNow ≤ c.logicalNow →
    c.bucketIndex w x b = c.bucketIndex w x c.logicalNow + 1 ∧ c.FirstChange w x c.logicalNow b
  /-- Before it, the number first changes at that start, and the wait ends a width after it, at the
  change that comes next. -/
  late : c.logicalNow < c.bucketStart w x c.logicalNow →
    c.bucketIndex w x b = c.bucketIndex w x c.logicalNow + 2 ∧
      c.FirstChange w x c.logicalNow (c.bucketStart w x c.logicalNow) ∧
      c.FirstChange w x (c.bucketStart w x c.logicalNow) b

/--
**A wait ends at the next refresh if the last one is behind it.**  Take a clock that
answers as if nothing were remembered, and a shift of less than a width.  If the
bucket has been entered up to its shifted start, the next boundary is the first
instant with another number.  If it has not, there is one refresh before that
boundary, at the shifted start, and the wait sleeps through this one alone.
-/
theorem wait_meets_refresh (h : Instant.InCalendar c.anchorSecs)
    (hp : c.present w = Edges.compute w c.anchorSecs c.logicalNow.secs)
    (hx : 0 ≤ Span.shiftSeconds x) (hx' : Span.shiftSeconds x < w.seconds)
    (hin : Instant.InCalendar (c.boundarySecs w x)) :
    c.Wakes w x (c.nextStart w x).value.1 ∧
      (c.waitNextStart w x).value.1.target = (c.nextStart w x).value.1 := by
  refine ⟨?_, c.waitNextStart_target w x⟩
  have hend := boundarySecs_of_compute (x := x) h hp
  have hnumber := bucketIndex_boundary h hp hin
  have hrest := Int.emod_nonneg (c.logicalNow.secs - c.anchorSecs) (Int.ne_of_gt w.seconds_pos)
  have hn := c.logicalNow.inCalendar_secs
  rw [nextStart_value]
  refine ⟨hnumber, ?_, ?_⟩
  · intro hle
    have hentered := shift_le_of_bucketStart_le h hle (by rw [← hend]; exact hin.2)
    have hroll : Bucket.nextRoll w c.anchorSecs x c.logicalNow.secs = c.boundarySecs w x := by
      rw [hend, Bucket.nextRoll_of_shift_le hx hx' hentered]
    rw [hnumber, bucketIndex_of_shift_le h hx hentered, ← hroll]
    exact ⟨rfl, firstChange_nextRoll h (hroll ▸ hin)⟩
  · intro hlt
    have hbefore := lt_shift_of_lt_bucketStart h hlt
    have hroll := Bucket.nextRoll_of_lt_shift hx' hbefore
    have hstart : Instant.InCalendar (Bucket.nextRoll w c.anchorSecs x c.logicalNow.secs) := by
      have hlo := hn.1
      have hhi := hin.2
      have hw := w.seconds_pos
      refine ⟨?_, ?_⟩ <;> omega
    have hagain : Bucket.nextRoll w c.anchorSecs x
        (Instant.ofSeconds (Bucket.nextRoll w c.anchorSecs x c.logicalNow.secs)).secs =
          c.boundarySecs w x := by
      rw [Instant.secs_ofSeconds hstart.1 hstart.2, Bucket.nextRoll_nextRoll, hroll, hend]
      omega
    rw [hnumber, bucketIndex_of_lt_shift h hx' hbefore, bucketStart_eq h, ← hroll, ← hagain]
    refine ⟨by omega, firstChange_nextRoll h hstart, firstChange_nextRoll h (hagain ▸ hin)⟩

/-- A clock over a source that stands at this second of the first day of 1970. -/
def standingAt (n : Int) : Clock := .over (.fixed (.ofSeconds n))

/-- Days that roll at five in the morning. -/
def atFive : Option Span := some (.ofSeconds 18000)

/-- At six the wait ends at the next refresh, at four it ends at the one after that. -/
theorem wait_meets_refresh_atFive :
    (standingAt 21600).FirstChange .day atFive (.ofSeconds 21600) (.ofSeconds 104400) ∧
      ((standingAt 21600).nextStart .day atFive).value.1 = .ofSeconds 104400 ∧
      (standingAt 14400).FirstChange .day atFive (.ofSeconds 14400) (.ofSeconds 18000) ∧
      ((standingAt 14400).waitNextStart .day atFive).value.1.target = .ofSeconds 104400 := by
  obtain ⟨hsix, -⟩ := wait_meets_refresh (c := standingAt 21600) (w := .day) (x := atFive)
    (by decide) (by decide) (by decide) (by decide) (by decide)
  obtain ⟨hfour, hwait⟩ := wait_meets_refresh (c := standingAt 14400) (w := .day) (x := atFive)
    (by decide) (by decide) (by decide) (by decide) (by decide)
  refine ⟨?_, by decide, ?_, hwait.trans (by decide)⟩
  · exact (hsix.on_time (Instant.le_of_secs_le rfl (by decide))).2
  · exact (hfour.late (Instant.lt_of_secs_lt (by decide))).2.1

/-- At four in the morning the next day's boundary is not the next refresh, and its number is two
further on. -/
theorem wait_skips_refresh :
    let c := standingAt 14400
    Instant.InCalendar c.anchorSecs ∧
      c.present .day = Edges.compute .day c.anchorSecs c.logicalNow.secs ∧
      0 ≤ Span.shiftSeconds atFive ∧ Span.shiftSeconds atFive < Width.day.seconds ∧
      Instant.InCalendar (c.boundarySecs .day atFive) ∧
      c.bucketIndex .day atFive (c.nextStart .day atFive).value.1 ≠
        c.bucketIndex .day atFive c.logicalNow + 1 ∧
      ¬ c.FirstChange .day atFive c.logicalNow (c.nextStart .day atFive).value.1 := by
  refine ⟨by decide, by decide, by decide, by decide, by decide, by decide, ?_⟩
  intro hfirst
  have hfive : (standingAt 14400).logicalNow < .ofSeconds 18000 ∧
      (standingAt 14400).bucketIndex .day atFive (.ofSeconds 18000) ≠
        (standingAt 14400).bucketIndex .day atFive (standingAt 14400).logicalNow :=
    ⟨Instant.lt_of_secs_lt (by decide), by decide⟩
  exact absurd (Instant.secs_le_of_le (hfirst.2 hfive)) (by decide)

end Clock

end Rollover
