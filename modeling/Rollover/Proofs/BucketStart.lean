/-
The start of a bucket for every second of a cell.

`Grid` keeps to the calendar, where no difference comes near the end of a cell.
`Bucket.start` itself takes any two numbers that have a cell, and then both of its
differences may be cut off.

Half of what a start is for survives that.  Whatever is left of the first difference,
its remainder is that of a width, and the second difference can only be cut off at the
low end, below which no second of a cell lies.  So the second asked about is always in
the bucket, with no condition on the anchor at all.  The grid does not survive: a start
that was cut off lies where the cell ends, or as far back as a wrong remainder says.  When
neither difference is cut off, the start is the only second of the grid that the bucket
can begin at, and the number of the bucket leads back to it from the anchor.

For instants nothing is cut off but a start before the calendar, which becomes the first
second of it.  That second need not be on the grid, but its own start is before the calendar
too, so that taking the start of a start changes nothing there either.
-/
import Rollover.Proofs.Boundary
import Rollover.Proofs.LogicalNow

namespace Rollover

namespace Bucket

/-! ### Seconds of a cell -/

section Seconds

variable {w : Width} {t : Int}

/-- A start is never after the second it is the start for, cut off or not. -/
theorem start_le_of_fits (anchor : Int) (ht : Word.Fits t) : start w anchor t ≤ t := by
  have hrest := Int.emod_nonneg (Word.sub t anchor) (Int.ne_of_gt w.seconds_pos)
  have hle : start w anchor t ≤ Word.clamp t := Word.clamp_le_clamp (by omega)
  rwa [Word.clamp_eq_self ht] at hle

theorem lt_start_add_of_fits (anchor : Int) (ht : Word.Fits t) :
    t < start w anchor t + w.seconds := by
  have hrest := Int.emod_lt_of_pos (Word.sub t anchor) w.seconds_pos
  have hnonneg := Int.emod_nonneg (Word.sub t anchor) (Int.ne_of_gt w.seconds_pos)
  unfold start
  -- Nothing is asked of the first difference any more, only that its rest is one of a width.
  generalize Word.sub t anchor % w.seconds = rest at hrest hnonneg ⊢
  unfold Word.Fits Word.least Word.greatest at ht
  unfold Word.sub Word.clamp Word.least Word.greatest
  omega

variable {anchor : Int}

/-- When nothing is cut off, the start is the one second of the grid from which the bucket
covers `t`. -/
theorem eq_start_iff (ht : Word.Fits t) (hdist : Word.Fits (t - anchor))
    (hstart : Word.Fits (t - (t - anchor) % w.seconds)) {s : Int} :
    (t - w.seconds < s ∧ s ≤ t ∧ OnGrid w anchor s) ↔ s = start w anchor t := by
  have hgrid : OnGrid w anchor (start w anchor t) := by
    rw [start_eq_of_fits hdist hstart]
    exact onGrid_sub_emod w anchor t
  have hle := start_le_of_fits (w := w) anchor ht
  have hlt := lt_start_add_of_fits (w := w) anchor ht
  constructor
  · rintro ⟨hlo, hhi, hs⟩
    exact hs.eq_of_near hgrid (by omega) (by omega)
  · rintro rfl
    exact ⟨by omega, hle, hgrid⟩

/-- As many widths from the anchor as the number of the bucket says. -/
theorem start_eq_add_index (ht : Word.Fits t) (hdist : Word.Fits (t - anchor))
    (hstart : Word.Fits (t - (t - anchor) % w.seconds)) :
    start w anchor t = anchor + w.seconds * index w anchor 0 t := by
  have hzero : Word.sub t 0 = t := by
    rw [Word.sub, Int.sub_zero, Word.clamp_eq_self ht]
  have hdivmod := Int.emod_add_mul_ediv (t - anchor) w.seconds
  rw [start_eq_of_fits hdist hstart, index, hzero, Word.sub_eq_of_fits hdist]
  omega

/-- A second of the grid starts its own bucket, if it is not too far from the anchor. -/
theorem start_eq_self {s : Int} (hs : Word.Fits s) (hdist : Word.Fits (s - anchor))
    (hgrid : OnGrid w anchor s) : start w anchor s = s := by
  have hrest : (s - anchor) % w.seconds = 0 := hgrid
  rw [start, Word.sub_eq_of_fits hdist, hrest, Word.sub, Int.sub_zero, Word.clamp_eq_self hs]

end Seconds

/-! ### Instants -/

section Instants

variable {w : Width} {anchor : Int}

theorem start_le_start (ha : Instant.InCalendar anchor) {t t' : Int}
    (ht : Instant.InCalendar t) (ht' : Instant.InCalendar t') (h : t ≤ t') :
    start w anchor t ≤ start w anchor t' := by
  rw [start_eq ha ht, start_eq ha ht']
  rcases w.seconds_eq with hw | hw <;> rw [hw] <;> omega

/-- Without a shift the start of an instant is that of its second, unless the calendar begins
later. -/
theorem secs_startWith_none (ha : Instant.InCalendar anchor) (t : Instant) :
    (startWith w anchor none t).secs = max Instant.first (start w anchor t.secs) := by
  have hle := start_le (w := w) ha t.inCalendar_secs
  have hlast := t.le_last
  have hsum : start w anchor t.secs + Span.shiftSeconds none = start w anchor t.secs :=
    Int.add_zero _
  rw [startWith, Instant.ofSeconds_add, hsum]
  simp only [Instant.ofSeconds]
  omega

theorem monotone_startWith_none (ha : Instant.InCalendar anchor) :
    Monotone (startWith w anchor none) := by
  intro t t' h
  have hstart := start_le_start (w := w) ha t.inCalendar_secs t'.inCalendar_secs
    (Instant.secs_le_of_le h)
  refine Instant.le_of_secs_le rfl ?_
  rw [secs_startWith_none ha, secs_startWith_none ha]
  omega

theorem startWith_startWith_none (ha : Instant.InCalendar anchor) (t : Instant) :
    startWith w anchor none (startWith w anchor none t) = startWith w anchor none t := by
  refine Instant.ext_parts ?_ rfl
  have hsecs := secs_startWith_none (w := w) ha t
  rw [secs_startWith_none ha]
  by_cases hfirst : Instant.first ≤ start w anchor t.secs
  · -- The start is an instant itself, and it is on the grid.
    have hs : (startWith w anchor none t).secs = start w anchor t.secs := by omega
    have hgrid : OnGrid w anchor (startWith w anchor none t).secs := by
      rw [hs]
      exact onGrid_start ha t.inCalendar_secs
    have hself := eq_start ha (startWith w anchor none t).inCalendar_secs hgrid (Int.le_refl _)
      (by have := w.seconds_pos; omega)
    omega
  · -- The calendar has begun since, and the start of its first second is before it as well.
    have hle := start_le (w := w) ha (startWith w anchor none t).inCalendar_secs
    omega

end Instants

/--
**A bucket contains the second it is the bucket of, and starts on the grid unless a
difference was cut off.**  The first holds for all seconds and anchors that have a cell.
The second holds when the distance to the anchor and the start have one: then the start
is the only second of the grid that is at most, but not quite, a width behind, it is as
many widths from the anchor as the bucket's number says, and it starts its own bucket if
its distance has a cell too.  The starts of instants never fall as the instants grow, and
a start is its own start, at the beginning of the calendar too.
-/
theorem start_over_cells (w : Width) :
    (∀ t anchor, Word.Fits t → Word.Fits anchor →
        (start w anchor t ≤ t ∧ t < start w anchor t + w.seconds) ∧
          (Word.Fits (t - anchor) → Word.Fits (t - (t - anchor) % w.seconds) →
            (∀ s, (t - w.seconds < s ∧ s ≤ t ∧ OnGrid w anchor s) ↔ s = start w anchor t) ∧
              start w anchor t = anchor + w.seconds * index w anchor 0 t ∧
              (Word.Fits (start w anchor t - anchor) →
                start w anchor (start w anchor t) = start w anchor t))) ∧
      ∀ anchor, Instant.InCalendar anchor →
        (∀ t, startWith w anchor none (startWith w anchor none t) = startWith w anchor none t) ∧
          ∀ t t', t ≤ t' → startWith w anchor none t ≤ startWith w anchor none t' := by
  refine ⟨?_, ?_⟩
  · intro t anchor ht _
    refine ⟨⟨start_le_of_fits anchor ht, lt_start_add_of_fits anchor ht⟩, ?_⟩
    intro hdist hstart
    refine ⟨fun s => eq_start_iff ht hdist hstart, start_eq_add_index ht hdist hstart, ?_⟩
    intro hself
    have hgrid := ((eq_start_iff (w := w) ht hdist hstart).mpr rfl).2.2
    exact start_eq_self (Word.fits_clamp _) hself hgrid
  · intro anchor ha
    exact ⟨startWith_startWith_none ha, fun _ _ h => monotone_startWith_none ha h⟩

/-- As far from the anchor as can be, the week still contains its second, but does not start on the
grid.  Near the low end of the cell it does, as long as its start has a cell.  The first second of
the calendar is put back to itself. -/
theorem start_over_cells_extremes :
    (start .week Word.least Word.greatest ≤ Word.greatest ∧
        Word.greatest < start .week Word.least Word.greatest + Width.week.seconds) ∧
      ¬ OnGrid .week Word.least (start .week Word.least Word.greatest) ∧
      start .week 0 (Word.least + 604800) =
        0 + Width.week.seconds * index .week 0 0 (Word.least + 604800) ∧
      startWith .week 0 none (startWith .week 0 none (.ofSeconds Instant.first)) =
        startWith .week 0 none (.ofSeconds Instant.first) :=
  ⟨((start_over_cells .week).1 Word.greatest Word.least (by decide) (by decide)).1, by decide,
    (((start_over_cells .week).1 (Word.least + 604800) 0 (by decide) (by decide)).2
      (by decide) (by decide)).2.1,
    ((start_over_cells .week).2 0 (by decide)).1 _⟩

end Bucket

end Rollover
