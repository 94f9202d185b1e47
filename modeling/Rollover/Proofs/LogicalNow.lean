/-
The logical now to the second.

`logicalNow` is computed in two ways: exactly, with the part of a second kept, when
the sum of the source's now and the offset is an instant, and by a saturating sum
when it is not.  To the second both ways give one figure, the second of the calendar
that is nearest to the plain sum.  So the second that a clock shows depends on that
sum alone and never falls when the sum grows, at the ends of the calendar too.
-/
import Rollover.Clock
import Rollover.Proofs.Grid

namespace Rollover

namespace Instant

theorem secs_ofSeconds_le {m n : Int} (h : m ≤ n) : (ofSeconds m).secs ≤ (ofSeconds n).secs := by
  simp only [ofSeconds]
  omega

theorem ofSeconds_of_lt_first {n : Int} (h : n < first) : ofSeconds n = ofSeconds first := by
  refine ext_parts ?_ rfl
  simp only [ofSeconds]
  omega

theorem ofSeconds_of_last_lt {n : Int} (h : last < n) : ofSeconds n = ofSeconds last := by
  refine ext_parts ?_ rfl
  simp only [ofSeconds]
  omega

/-- A second of the calendar that `n` is not before is not cut off. -/
theorem le_secs_ofSeconds {m n : Int} (hm : InCalendar m) (h : m ≤ n) :
    m ≤ (ofSeconds n).secs := by
  have := secs_ofSeconds_le h
  rwa [secs_ofSeconds hm.1 hm.2] at this

/-- Some seconds later the second is the sum, and the part of a second is the same. -/
theorem addSeconds?_eq_some_iff {t u : Instant} {n : Int} :
    t.addSeconds? n = some u ↔ u.secs = t.secs + n ∧ u.nanos = t.nanos := by
  unfold addSeconds? ofParts?
  constructor
  · intro h
    split at h
    · cases h
      exact ⟨rfl, rfl⟩
    · cases h
  · rintro ⟨hsecs, hnanos⟩
    rw [← hsecs, dif_pos ⟨u.first_le, u.le_last, t.nanos_lt⟩]
    exact congrArg some (ext_parts rfl hnanos.symm)

end Instant

namespace Clock

/-- The second of the logical now is that of the plain sum, taken to the calendar. -/
theorem secs_logicalNow (c : Clock) :
    c.logicalNow.secs = (Instant.ofSeconds (c.systemNow.secs + c.offsetSecs)).secs := by
  simp only [logicalNow]
  split
  · rename_i t ht
    -- The exact sum is an instant, so there is nothing to cut off.
    obtain ⟨_, -, hadd⟩ := Option.bind_eq_some_iff.mp ht
    have hsecs := (Instant.addSeconds?_eq_some_iff.mp hadd).1
    rw [← hsecs, Instant.secs_ofSeconds t.first_le t.le_last]
  · rw [Instant.ofSeconds_add]

/-- A sum that is a second of the calendar is not cut off, and the part of a second is kept. -/
theorem logicalNow_of_inCalendar {c : Clock}
    (h : Instant.InCalendar (c.systemNow.secs + c.offsetSecs)) :
    c.logicalNow.secs = c.systemNow.secs + c.offsetSecs ∧
      c.logicalNow.nanos = c.systemNow.nanos := by
  have hsecs : c.logicalNow.secs = c.systemNow.secs + c.offsetSecs := by
    rw [secs_logicalNow, Instant.secs_ofSeconds h.1 h.2]
  refine ⟨hsecs, ?_⟩
  -- No offset is too long for a span if it leads from one second of the calendar to another.
  have hnow := c.systemNow.inCalendar_secs
  have hoffset : -Span.maxSeconds ≤ c.offsetSecs ∧ c.offsetSecs ≤ Span.maxSeconds := by
    unfold Instant.InCalendar Instant.first Instant.last at h hnow
    unfold Span.maxSeconds
    omega
  simp only [logicalNow, Span.ofSeconds?, dif_pos hoffset, Option.bind_some]
  rw [Instant.addSeconds?, Instant.ofParts?, dif_pos ⟨h.1, h.2, c.systemNow.nanos_lt⟩]

/-- A sum that no second of the calendar is becomes the end of the calendar on its side. -/
theorem logicalNow_of_not_inCalendar {c : Clock}
    (h : ¬ Instant.InCalendar (c.systemNow.secs + c.offsetSecs)) :
    c.logicalNow = .ofSeconds (c.systemNow.secs + c.offsetSecs) := by
  simp only [logicalNow]
  split
  · rename_i t ht
    obtain ⟨_, -, hadd⟩ := Option.bind_eq_some_iff.mp ht
    have hsecs := (Instant.addSeconds?_eq_some_iff.mp hadd).1
    exact absurd (hsecs ▸ t.inCalendar_secs) h
  · exact Instant.ofSeconds_add _ _

theorem secs_logicalNow_le {c d : Clock}
    (h : c.systemNow.secs + c.offsetSecs ≤ d.systemNow.secs + d.offsetSecs) :
    c.logicalNow.secs ≤ d.logicalNow.secs := by
  rw [secs_logicalNow, secs_logicalNow]
  exact Instant.secs_ofSeconds_le h

end Clock

end Rollover
