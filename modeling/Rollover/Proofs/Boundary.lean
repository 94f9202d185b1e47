/-
Boundaries and numbers tell the same buckets apart.

With a refresh some time past the anchor there are two ways to say which bucket an
instant lies in: its number, and the latest boundary at or before it.  They are
computed apart.  The number shifts the instant back and divides, each difference
stopping at the end of its cell; the boundary shifts it back, takes a remainder off,
shifts it forward again and ends up at the calendar's edge if there is nothing
further down.

For an anchor in the calendar no cell is ever too small, since the calendar, the
shifts and a width together are far from filling one.  So both are formulas over
plain integers in one figure, the second that the buckets roll from: the quotient
and the remainder of the same division.  Everything else is read off from that.  A
boundary is the least instant of the calendar with the number of its bucket, and it
is on the grid of the shifted anchor unless the calendar begins later.
-/
import Mathlib.Algebra.Group.Int.Defs
import Mathlib.Data.Prod.Lex
import Mathlib.Order.Bounds.Basic
import Rollover.Proofs.Run

namespace Rollover

/-! ### Earlier and later -/

namespace Instant

/-- Instants are compared by their seconds, and within a second by their nanoseconds. -/
instance : LinearOrder Instant :=
  LinearOrder.lift' (fun t => toLex (t.secs, t.nanos)) fun _ _ h =>
    ext_parts (congrArg (fun p => (ofLex p).1) h) (congrArg (fun p => (ofLex p).2) h)

theorem le_iff {a b : Instant} :
    a ≤ b ↔ a.secs < b.secs ∨ a.secs = b.secs ∧ a.nanos ≤ b.nanos :=
  Prod.Lex.le_iff

theorem secs_le_of_le {a b : Instant} (h : a ≤ b) : a.secs ≤ b.secs := by
  rcases le_iff.mp h with h | ⟨h, -⟩ <;> omega

/-- An instant without a part of a second is at or before all instants of no earlier second. -/
theorem le_of_secs_le {a b : Instant} (ha : a.nanos = 0) (h : a.secs ≤ b.secs) : a ≤ b := by
  refine le_iff.mpr ?_
  omega

end Instant

/-! ### Both formulas over plain integers

A cell has room for more than `10 ^ 18`.  Seconds of the calendar and shifts stay
below `10 ^ 16`, so sums and differences of a few of them can be counted on to fit.
-/

theorem Word.fits_of_small {n : Int} (lo : -10 ^ 18 ≤ n) (hi : n ≤ 10 ^ 18) : Fits n := by
  unfold Fits least greatest
  omega

theorem Instant.InCalendar.small {n : Int} (h : InCalendar n) : -10 ^ 16 ≤ n ∧ n ≤ 10 ^ 16 := by
  unfold InCalendar first last at h
  omega

theorem Span.small_shiftSeconds (x : Option Span) :
    -10 ^ 16 ≤ shiftSeconds x ∧ shiftSeconds x ≤ 10 ^ 16 := by
  cases x with
  | none => decide
  | some d =>
      have hlo := d.le_wholeSeconds
      have hhi := d.wholeSeconds_le
      unfold maxSeconds at hlo hhi
      show -10 ^ 16 ≤ d.wholeSeconds ∧ d.wholeSeconds ≤ 10 ^ 16
      omega

namespace Bucket

/-- The second that buckets roll from with a refresh some time past the anchor. -/
def rollSecs (anchor : Int) (refresh : Option Span) : Int := anchor + Span.shiftSeconds refresh

/-- The second of the latest boundary at or before `t`, whether the calendar has it or not. -/
def refreshSecs (w : Width) (anchor : Int) (refresh : Option Span) (t : Instant) : Int :=
  Word.add (start w anchor (Word.sub t.secs (Span.shiftSeconds refresh)))
    (Span.shiftSeconds refresh)

theorem refreshAtOrBefore_eq_ofSeconds (w : Width) (anchor : Int) (refresh : Option Span)
    (t : Instant) :
    refreshAtOrBefore w anchor refresh t = .ofSeconds (refreshSecs w anchor refresh t) := rfl

section Exact

variable {w : Width} {anchor : Int} {refresh : Option Span}

theorem start_eq_of_small {t : Int} (ha : -10 ^ 16 ≤ anchor ∧ anchor ≤ 10 ^ 16)
    (ht : -10 ^ 17 ≤ t ∧ t ≤ 10 ^ 17) : start w anchor t = t - (t - anchor) % w.seconds := by
  have hlo := Int.emod_nonneg (t - anchor) (Int.ne_of_gt w.seconds_pos)
  have hhi := Int.emod_lt_of_pos (t - anchor) w.seconds_pos
  have hw := w.seconds_le
  exact start_eq_of_fits (Word.fits_of_small (by omega) (by omega))
    (Word.fits_of_small (by omega) (by omega))

/-- Both ways shift the instant back first, which is never cut off. -/
theorem back_eq (refresh : Option Span) (t : Instant) :
    Word.sub t.secs (Span.shiftSeconds refresh) = t.secs - Span.shiftSeconds refresh := by
  have hshift := Span.small_shiftSeconds refresh
  have ht := t.inCalendar_secs.small
  exact Word.sub_eq_of_fits (Word.fits_of_small (by omega) (by omega))

theorem back_sub_anchor (anchor : Int) (refresh : Option Span) (t : Instant) :
    t.secs - Span.shiftSeconds refresh - anchor = t.secs - rollSecs anchor refresh := by
  unfold rollSecs
  omega

theorem indexOf_eq (ha : Instant.InCalendar anchor) (t : Instant) :
    indexOf w anchor refresh t = (t.secs - rollSecs anchor refresh) / w.seconds := by
  have hshift := Span.small_shiftSeconds refresh
  have hanchor := ha.small
  have ht := t.inCalendar_secs.small
  have hdist : Word.Fits (t.secs - Span.shiftSeconds refresh - anchor) :=
    Word.fits_of_small (by omega) (by omega)
  rw [indexOf, index, back_eq, Word.sub_eq_of_fits hdist, back_sub_anchor]

theorem refreshSecs_eq (ha : Instant.InCalendar anchor) (t : Instant) :
    refreshSecs w anchor refresh t =
      t.secs - (t.secs - rollSecs anchor refresh) % w.seconds := by
  have hshift := Span.small_shiftSeconds refresh
  have ht := t.inCalendar_secs.small
  have hlo := Int.emod_nonneg (t.secs - rollSecs anchor refresh) (Int.ne_of_gt w.seconds_pos)
  have hhi := Int.emod_lt_of_pos (t.secs - rollSecs anchor refresh) w.seconds_pos
  have hw := w.seconds_le
  have hstart : start w anchor (t.secs - Span.shiftSeconds refresh) =
      t.secs - Span.shiftSeconds refresh - (t.secs - rollSecs anchor refresh) % w.seconds := by
    rw [start_eq_of_small ha.small (by omega), back_sub_anchor anchor]
  rw [refreshSecs, back_eq, hstart,
    Word.add_eq_of_fits (Word.fits_of_small (by omega) (by omega))]
  omega

/-- The calendar never ends before the boundary, but it may begin after it. -/
theorem secs_refreshAtOrBefore (ha : Instant.InCalendar anchor) (t : Instant) :
    (refreshAtOrBefore w anchor refresh t).secs =
      max Instant.first (t.secs - (t.secs - rollSecs anchor refresh) % w.seconds) := by
  have hrest := Int.emod_nonneg (t.secs - rollSecs anchor refresh) (Int.ne_of_gt w.seconds_pos)
  have hlast := t.le_last
  rw [refreshAtOrBefore_eq_ofSeconds, refreshSecs_eq ha]
  simp only [Instant.ofSeconds]
  omega

theorem secs_refreshAtOrBefore_of_inCalendar {t : Instant}
    (hin : Instant.InCalendar (refreshSecs w anchor refresh t)) :
    (refreshAtOrBefore w anchor refresh t).secs = refreshSecs w anchor refresh t :=
  Instant.secs_ofSeconds hin.1 hin.2

/-! ### The least instant of a bucket -/

/-- Between an instant and the second where its bucket starts the quotient does not change. -/
theorem ediv_eq_of_start_le {roll s t : Int} (hlo : t - (t - roll) % w.seconds ≤ s)
    (hhi : s ≤ t) : (s - roll) / w.seconds = (t - roll) / w.seconds := by
  rcases w.seconds_eq with hw | hw <;> rw [hw] at hlo ⊢ <;> omega

/-- No second with the same quotient lies before the second where the bucket starts. -/
theorem start_le_of_ediv_eq {roll s t : Int}
    (h : (s - roll) / w.seconds = (t - roll) / w.seconds) :
    t - (t - roll) % w.seconds ≤ s := by
  rcases w.seconds_eq with hw | hw <;> rw [hw] at h ⊢ <;> omega

theorem indexOf_refreshAtOrBefore (ha : Instant.InCalendar anchor) (t : Instant) :
    indexOf w anchor refresh (refreshAtOrBefore w anchor refresh t) =
      indexOf w anchor refresh t := by
  have hrest := Int.emod_nonneg (t.secs - rollSecs anchor refresh) (Int.ne_of_gt w.seconds_pos)
  have hfirst := t.first_le
  rw [indexOf_eq ha, indexOf_eq ha, secs_refreshAtOrBefore ha]
  exact ediv_eq_of_start_le (Int.le_max_right _ _) (by omega)

theorem isLeast_refreshAtOrBefore (ha : Instant.InCalendar anchor) (t : Instant) :
    IsLeast {u | indexOf w anchor refresh u = indexOf w anchor refresh t}
      (refreshAtOrBefore w anchor refresh t) := by
  refine ⟨indexOf_refreshAtOrBefore ha t, ?_⟩
  intro u hu
  have hsame : indexOf w anchor refresh u = indexOf w anchor refresh t := hu
  rw [indexOf_eq ha, indexOf_eq ha] at hsame
  have hstart := start_le_of_ediv_eq hsame
  have hfirst := u.first_le
  refine Instant.le_of_secs_le rfl ?_
  rw [secs_refreshAtOrBefore ha]
  omega

/-- Two instants have the same number exactly when they have the same boundary. -/
theorem indexOf_eq_iff (ha : Instant.InCalendar anchor) (l r : Instant) :
    indexOf w anchor refresh l = indexOf w anchor refresh r ↔
      refreshAtOrBefore w anchor refresh l = refreshAtOrBefore w anchor refresh r := by
  constructor
  · intro h
    have hl : IsLeast {u | indexOf w anchor refresh u = indexOf w anchor refresh l}
        (refreshAtOrBefore w anchor refresh l) := isLeast_refreshAtOrBefore ha l
    rw [h] at hl
    exact hl.unique (isLeast_refreshAtOrBefore ha r)
  · intro h
    rw [← indexOf_refreshAtOrBefore ha l, h, indexOf_refreshAtOrBefore ha r]

/-- From the boundary up to an instant all numbers are the same. -/
theorem indexOf_eq_of_between (ha : Instant.InCalendar anchor) {t u : Instant}
    (hlo : refreshAtOrBefore w anchor refresh t ≤ u) (hhi : u ≤ t) :
    indexOf w anchor refresh u = indexOf w anchor refresh t := by
  refine le_antisymm (indexOf_le_indexOf w anchor refresh (Instant.secs_le_of_le hhi)) ?_
  calc indexOf w anchor refresh t
      = indexOf w anchor refresh (refreshAtOrBefore w anchor refresh t) :=
        (indexOf_refreshAtOrBefore ha t).symm
    _ ≤ indexOf w anchor refresh u :=
        indexOf_le_indexOf w anchor refresh (Instant.secs_le_of_le hlo)

end Exact

end Bucket

/-! ### Boundaries of a clock -/

namespace Clock

/-- The instant `b` is the boundary that the bucket of `t` starts at. -/
structure Boundary (c : Clock) (w : Width) (refresh : Option Span) (t b : Instant) : Prop where
  /-- No instant with the number of `t` comes before it, and it has that number itself. -/
  least : IsLeast {u | c.bucketIndex w refresh u = c.bucketIndex w refresh t} b
  le : b ≤ t
  whole : b.nanos = 0
  /-- It lies less than a width behind, to the nanosecond. -/
  near : (b.spanTo t).nanos < w.seconds * 1000000000
  /-- It is on the grid of the shifted anchor, unless the calendar begins later than the grid
  would have it. -/
  aligned : ∃ s, OnGrid w (c.anchorSecs + Span.shiftSeconds refresh) s ∧
    b.secs = max Instant.first s

theorem boundary_lastRefresh {c : Clock} (h : Instant.InCalendar c.anchorSecs) (w : Width)
    (refresh : Option Span) (t : Instant) :
    c.Boundary w refresh t (c.lastRefresh w refresh t) := by
  have hsecs : (c.lastRefresh w refresh t).secs = max Instant.first
      (t.secs - (t.secs - Bucket.rollSecs c.anchorSecs refresh) % w.seconds) :=
    Bucket.secs_refreshAtOrBefore h t
  have hfirst := t.first_le
  have hnanos := t.nanos_lt
  have hlo := Int.emod_nonneg (t.secs - Bucket.rollSecs c.anchorSecs refresh)
    (Int.ne_of_gt w.seconds_pos)
  have hhi := Int.emod_lt_of_pos (t.secs - Bucket.rollSecs c.anchorSecs refresh) w.seconds_pos
  have hleast : IsLeast {u | c.bucketIndex w refresh u = c.bucketIndex w refresh t}
      (c.lastRefresh w refresh t) := Bucket.isLeast_refreshAtOrBefore h t
  refine ⟨hleast, hleast.2 rfl, rfl, ?_, ?_⟩
  · show (t.secs - (c.lastRefresh w refresh t).secs) * 1000000000
      + ((t.nanos : Int) - (0 : Nat)) < w.seconds * 1000000000
    rw [hsecs]
    omega
  · exact ⟨_, Bucket.onGrid_sub_emod w _ t.secs, hsecs⟩

end Clock

namespace Server

/--
**A boundary is the first instant of its bucket.**  Whatever has happened to a
server, the latest refresh at or before an instant is the least instant that has the
same number, for either width and any refresh.  So to compare two numbers, to ask
whether two instants lie in one bucket and to compare their boundaries is all the
same, and nothing between a boundary and its instant has another number.
-/
theorem boundaries_bound_numbers (src : Source) (fs : Files) (acts : List Act) (w : Width)
    (refresh : Option Span) :
    let c := ((fresh src fs).run acts).clock
    (∀ t, c.Boundary w refresh t (c.lastRefresh w refresh t)) ∧
      (∀ l r, (c.sameBucket w refresh l r = true ↔
          c.bucketIndex w refresh l = c.bucketIndex w refresh r) ∧
        (c.bucketIndex w refresh l = c.bucketIndex w refresh r ↔
          c.lastRefresh w refresh l = c.lastRefresh w refresh r)) ∧
      ∀ t u, c.lastRefresh w refresh t ≤ u → u ≤ t →
        c.bucketIndex w refresh u = c.bucketIndex w refresh t := by
  intro c
  have h : Instant.InCalendar c.anchorSecs :=
    inCalendar_anchor_run acts (inCalendar_anchor_fresh src fs)
  refine ⟨fun t => Clock.boundary_lastRefresh h w refresh t, ?_, ?_⟩
  · intro l r
    exact ⟨beq_iff_eq, Bucket.indexOf_eq_iff h l r⟩
  · intro t u hlo hhi
    exact Bucket.indexOf_eq_of_between h hlo hhi

end Server

end Rollover
