/-
What the number of a bucket keeps count of.

A number comes from two differences, one taken of the other, and a division.  Either
difference may be cut off at the end of a cell.  A cut keeps the order, and division by a
width rounds down on both sides of zero, so the order is kept all the way: numbers never
fall with the second, and never rise with the anchor or the refresh.  There is no condition
on any of the three.

Counting needs exact differences.  Then a number says how many whole widths the second lies
past the point that buckets roll from, and it follows every move by whole widths: of the
second forwards, of the anchor or the refresh the other way.  A difference that was cut off
does not follow, which is why both ends of such a move are asked to be exact.
-/
import Rollover.Proofs.Boundary

namespace Rollover

namespace Bucket

/-- Neither of the differences that a number is taken from is cut off. -/
def Exact (anchor refresh t : Int) : Prop :=
  Word.Fits (t - refresh) ∧ Word.Fits (t - refresh - anchor)

instance (anchor refresh t : Int) : Decidable (Exact anchor refresh t) :=
  inferInstanceAs (Decidable (_ ∧ _))

section Moves

variable {w : Width} {anchor anchor' refresh refresh' t t' k : Int}

theorem index_eq_of_exact (h : Exact anchor refresh t) :
    index w anchor refresh t = (t - refresh - anchor) / w.seconds := by
  rw [index, Word.sub_eq_of_fits h.1, Word.sub_eq_of_fits h.2]

/-- Two numbers are as many apart as the exact differences are widths apart. -/
theorem index_eq_add (h : Exact anchor refresh t) (h' : Exact anchor' refresh' t')
    (hk : t' - refresh' - anchor' = t - refresh - anchor + k * w.seconds) :
    index w anchor' refresh' t' = index w anchor refresh t + k := by
  rw [index_eq_of_exact h, index_eq_of_exact h', hk]
  exact Int.add_mul_ediv_right _ _ (Int.ne_of_gt w.seconds_pos)

theorem index_add_widths (h : Exact anchor refresh t)
    (h' : Exact anchor refresh (t + k * w.seconds)) :
    index w anchor refresh (t + k * w.seconds) = index w anchor refresh t + k :=
  index_eq_add h h' (by omega)

theorem index_add_widths_refresh (h : Exact anchor refresh t)
    (h' : Exact anchor (refresh + k * w.seconds) t) :
    index w anchor (refresh + k * w.seconds) t = index w anchor refresh t - k := by
  have hback : -k * w.seconds = -(k * w.seconds) := Int.neg_mul k w.seconds
  exact index_eq_add h h' (by omega)

theorem index_add_widths_anchor (h : Exact anchor refresh t)
    (h' : Exact (anchor + k * w.seconds) refresh t) :
    index w (anchor + k * w.seconds) refresh t = index w anchor refresh t - k := by
  have hback : -k * w.seconds = -(k * w.seconds) := Int.neg_mul k w.seconds
  exact index_eq_add h h' (by omega)

end Moves

/--
**Numbers of buckets keep the order and count widths.**  They never fall as the second
grows and never rise as the anchor or the refresh does, wherever a difference is cut off.
When none is, a move of the second by whole widths changes the number by as many, and a
move of the anchor or of the refresh changes it back.  So on any clock a later instant
never has a smaller number.
-/
theorem index_counts_widths (w : Width) :
    (∀ anchor anchor' refresh refresh' t t', anchor' ≤ anchor → refresh' ≤ refresh → t ≤ t' →
        index w anchor refresh t ≤ index w anchor' refresh' t') ∧
      (∀ anchor refresh t k, Exact anchor refresh t →
        (Exact anchor refresh (t + k * w.seconds) →
          index w anchor refresh (t + k * w.seconds) = index w anchor refresh t + k) ∧
        (Exact anchor (refresh + k * w.seconds) t →
          index w anchor (refresh + k * w.seconds) t = index w anchor refresh t - k) ∧
        (Exact (anchor + k * w.seconds) refresh t →
          index w (anchor + k * w.seconds) refresh t = index w anchor refresh t - k)) ∧
      ∀ (c : Clock) refresh t t', t ≤ t' →
        c.bucketIndex w refresh t ≤ c.bucketIndex w refresh t' := by
  refine ⟨?_, ?_, ?_⟩
  · intro anchor anchor' refresh refresh' t t' ha hr ht
    exact index_le_index w ha hr ht
  · intro anchor refresh t k h
    exact ⟨index_add_widths h, index_add_widths_refresh h, index_add_widths_anchor h⟩
  · intro c refresh t t' h
    exact indexOf_le_indexOf w c.anchorSecs refresh (Instant.secs_le_of_le h)

/-- With the anchor at one end of the cell and the refresh at the other, the second before 1970 is
in day 0.  A day more of the second, or less of the refresh, leads to day 1; a day more of the
anchor leads to day -1.  Where all differences are cut off, later is still not less. -/
theorem index_counts_widths_endToEnd :
    index .day Word.greatest Word.greatest Word.least ≤
        index .day Word.greatest Word.greatest (Word.least + 1) ∧
      index .day Word.least Word.greatest (-1 + 1 * Width.day.seconds) =
        index .day Word.least Word.greatest (-1) + 1 ∧
      index .day Word.least (Word.greatest + -1 * Width.day.seconds) (-1) =
        index .day Word.least Word.greatest (-1) - -1 ∧
      index .day (Word.least + 1 * Width.day.seconds) Word.greatest (-1) =
        index .day Word.least Word.greatest (-1) - 1 ∧
      index .day Word.least Word.greatest (-1) = 0 := by
  have hcount := (index_counts_widths .day).2.1 Word.least Word.greatest (-1)
  refine ⟨?_, ?_, ?_, ?_, by decide⟩
  · exact (index_counts_widths .day).1 _ _ _ _ _ _ (by decide) (by decide) (by decide)
  · exact (hcount 1 (by decide)).1 (by decide)
  · exact (hcount (-1) (by decide)).2.1 (by decide)
  · exact (hcount 1 (by decide)).2.2 (by decide)

/-- So far from the anchor a day more makes no difference. -/
example : index .day Word.least 0 (0 + 1 * Width.day.seconds) = index .day Word.least 0 0 := by
  decide

end Bucket

end Rollover
