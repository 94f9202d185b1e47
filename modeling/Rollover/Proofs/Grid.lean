/-
The grid of bucket starts.

The starts of all buckets of one width and one anchor form a grid: they lie whole
widths apart, and the anchor is one of them.  As long as the anchor and the second
that is asked about are seconds of the calendar, no difference comes near the end
of a 64-bit cell, and `Bucket.start` is the plain remainder formula.  From that it
is the only second of the grid that lies at most, but not quite, a width behind.

Everything the remembered edges are trusted for rests on that uniqueness, in the
form of `eq_start_or_next`: a second of the grid that may lie a minute ahead is the
start of the present bucket or of the next one, and nothing else.

The numbers of buckets need none of this.  A difference that stops at the end of
its cell still keeps the order of what it was taken of, so numbers never fall as
time goes on, wherever the anchor is.
-/
import Rollover.Bucket

namespace Rollover

/-! ### Seconds of the calendar -/

/-- The calendar has this second. -/
def Instant.InCalendar (n : Int) : Prop := Instant.first ≤ n ∧ n ≤ Instant.last

theorem Instant.inCalendar_secs (t : Instant) : Instant.InCalendar t.secs :=
  ⟨t.first_le, t.le_last⟩

instance (n : Int) : Decidable (Instant.InCalendar n) := inferInstanceAs (Decidable (_ ∧ _))

theorem Word.sub_eq_of_fits {a b : Int} (h : Fits (a - b)) : sub a b = a - b := clamp_eq_self h

theorem Word.add_eq_of_fits {a b : Int} (h : Fits (a + b)) : add a b = a + b := clamp_eq_self h

/-- A difference that is cut off keeps the order of what it was taken of. -/
theorem Word.sub_le_sub {a a' b b' : Int} (ha : a ≤ a') (hb : b' ≤ b) : sub a b ≤ sub a' b' :=
  clamp_le_clamp (by omega)

/-- The calendar is narrower than a cell, so a sum taken to the nearest end of a cell first
ends up at the same instant. -/
theorem Instant.ofSeconds_add (a b : Int) :
    Instant.ofSeconds (Word.add a b) = Instant.ofSeconds (a + b) := by
  refine Instant.ext_parts ?_ rfl
  simp only [ofSeconds, Word.add, Word.clamp, first, last, Word.least, Word.greatest]
  omega

/-! ### The grid -/

/-- The second lies a whole number of widths from the anchor. -/
def OnGrid (w : Width) (anchor s : Int) : Prop := (s - anchor) % w.seconds = 0

instance (w : Width) (anchor s : Int) : Decidable (OnGrid w anchor s) :=
  inferInstanceAs (Decidable (_ = _))

theorem Width.seconds_eq (w : Width) : w.seconds = 86400 ∨ w.seconds = 604800 := by
  cases w
  · exact Or.inl rfl
  · exact Or.inr rfl

theorem OnGrid.sub_width {w : Width} {anchor s : Int} (h : OnGrid w anchor s) :
    OnGrid w anchor (s - w.seconds) := by
  unfold OnGrid at h ⊢
  rcases w.seconds_eq with hw | hw <;> rw [hw] at h ⊢ <;> omega

theorem OnGrid.add_width {w : Width} {anchor s : Int} (h : OnGrid w anchor s) :
    OnGrid w anchor (s + w.seconds) := by
  unfold OnGrid at h ⊢
  rcases w.seconds_eq with hw | hw <;> rw [hw] at h ⊢ <;> omega

/-- Two seconds of a grid that are less than a width apart are the same second. -/
theorem OnGrid.eq_of_near {w : Width} {anchor s s' : Int} (hs : OnGrid w anchor s)
    (hs' : OnGrid w anchor s') (h : s < s' + w.seconds) (h' : s' < s + w.seconds) : s = s' := by
  unfold OnGrid at hs hs'
  rcases w.seconds_eq with hw | hw <;> rw [hw] at hs hs' h h' <;> omega

namespace Bucket

section Exact

variable {w : Width} {anchor t : Int}

/-- When neither difference is cut off, the start is the remainder formula over plain integers. -/
theorem start_eq_of_fits (hdist : Word.Fits (t - anchor))
    (hstart : Word.Fits (t - (t - anchor) % w.seconds)) :
    start w anchor t = t - (t - anchor) % w.seconds := by
  rw [start, Word.sub_eq_of_fits hdist]
  exact Word.sub_eq_of_fits hstart

theorem onGrid_sub_emod (w : Width) (anchor t : Int) :
    OnGrid w anchor (t - (t - anchor) % w.seconds) := by
  unfold OnGrid
  rcases w.seconds_eq with hw | hw <;> rw [hw] <;> omega

/-- Inside the calendar nothing is cut off. -/
theorem start_eq (ha : Instant.InCalendar anchor) (ht : Instant.InCalendar t) :
    start w anchor t = t - (t - anchor) % w.seconds := by
  have h0 : 0 ≤ (t - anchor) % w.seconds := Int.emod_nonneg _ (Int.ne_of_gt w.seconds_pos)
  have h1 : (t - anchor) % w.seconds < w.seconds := Int.emod_lt_of_pos _ w.seconds_pos
  have hw := w.seconds_le
  unfold Instant.InCalendar Instant.first Instant.last at ha ht
  refine start_eq_of_fits ?_ ?_ <;> unfold Word.Fits Word.least Word.greatest <;> omega

theorem onGrid_start (ha : Instant.InCalendar anchor) (ht : Instant.InCalendar t) :
    OnGrid w anchor (start w anchor t) := by
  rw [start_eq ha ht]
  exact onGrid_sub_emod w anchor t

theorem start_le (ha : Instant.InCalendar anchor) (ht : Instant.InCalendar t) :
    start w anchor t ≤ t := by
  have := Int.emod_nonneg (t - anchor) (Int.ne_of_gt w.seconds_pos)
  rw [start_eq ha ht]
  omega

theorem lt_start_add (ha : Instant.InCalendar anchor) (ht : Instant.InCalendar t) :
    t < start w anchor t + w.seconds := by
  have := Int.emod_lt_of_pos (t - anchor) w.seconds_pos
  rw [start_eq ha ht]
  omega

/-- The end of the bucket has a cell, so it is not cut off either. -/
theorem add_start_width (ha : Instant.InCalendar anchor) (ht : Instant.InCalendar t) :
    Word.add (start w anchor t) w.seconds = start w anchor t + w.seconds := by
  have h0 := start_le (w := w) ha ht
  have h1 := lt_start_add (w := w) ha ht
  have hw := w.seconds_le
  refine Word.add_eq_of_fits ?_
  unfold Instant.InCalendar Instant.first Instant.last at ht
  unfold Word.Fits Word.least Word.greatest
  omega

/-- The start is the only second of the grid from which the bucket covers `t`. -/
theorem eq_start {s : Int} (ha : Instant.InCalendar anchor) (ht : Instant.InCalendar t)
    (hs : OnGrid w anchor s) (hle : s ≤ t) (hlt : t < s + w.seconds) : s = start w anchor t := by
  have h0 := start_le (w := w) ha ht
  have h1 := lt_start_add (w := w) ha ht
  exact hs.eq_of_near (onGrid_start ha ht) (by omega) (by omega)

/-- A second of the grid that covers `t`, or would if `t` were up to a minute later, starts the
bucket of `t` or the next one.  It starts the next one only in the last minute of the bucket. -/
theorem eq_start_or_next {s : Int} (ha : Instant.InCalendar anchor) (ht : Instant.InCalendar t)
    (hs : OnGrid w anchor s) (hle : s ≤ t + 60) (hlt : t < s + w.seconds) :
    s = start w anchor t ∨
      s = start w anchor t + w.seconds ∧ start w anchor t + w.seconds - 60 ≤ t := by
  by_cases h : s ≤ t
  · exact Or.inl (eq_start ha ht hs h hlt)
  · have hw : 60 < w.seconds := by rcases w.seconds_eq with hw | hw <;> omega
    have hprev : s - w.seconds = start w anchor t :=
      eq_start ha ht hs.sub_width (by omega) (by omega)
    exact Or.inr ⟨by omega, by omega⟩

end Exact

/-! ### Numbers of buckets -/

/-- A later second never has a smaller number, and a later anchor or refresh never gives a greater
one. -/
theorem index_le_index (w : Width) {anchor anchor' refresh refresh' t t' : Int}
    (ha : anchor' ≤ anchor) (hr : refresh' ≤ refresh) (ht : t ≤ t') :
    index w anchor refresh t ≤ index w anchor' refresh' t' := by
  have hback : Word.sub t refresh ≤ Word.sub t' refresh' := Word.sub_le_sub ht hr
  exact Int.ediv_le_ediv w.seconds_pos (Word.sub_le_sub hback ha)

/-- Later instants never have smaller numbers, whatever their parts of a second. -/
theorem indexOf_le_indexOf (w : Width) (anchor : Int) (refresh : Option Span) {t t' : Instant}
    (h : t.secs ≤ t'.secs) : indexOf w anchor refresh t ≤ indexOf w anchor refresh t' :=
  index_le_index w (Int.le_refl _) (Int.le_refl _) h

end Bucket

end Rollover
