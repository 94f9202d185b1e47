/-
The logical now at the ends of the calendar.

The plain sum of the system's second and the offset may lie outside the calendar, and then
there is no instant for it.  `logicalNow` has two ways to notice that and a third way to
answer: the offset may be no span, the sum may be no instant, and what is left is a sum of
whole seconds that stops at the ends of a cell and then at those of the calendar.  They fit
together without a gap.  The offset of a clock is always a span, so the first never
happens; the second happens exactly when the sum is outside, since the part of a second
plays no part in it; and a cell is wide enough for the third.

So to the second the logical now is the sum taken to the calendar.  Inside, it lies exactly
the offset after the system's time; outside, it is the first or last whole second, and no
part of a second is left.  An offset is cut toward zero when it is set, which keeps the
order of offsets, and so does all the rest.
-/
import Rollover.Proofs.Cells

namespace Rollover

namespace Clock

variable {c : Clock}

/-- The second that the logical now would have if the calendar had no ends. -/
def soughtSecs (c : Clock) : Int := c.systemNow.secs + c.offset.wholeSeconds

theorem Settled.soughtSecs_eq (h : c.Settled) : c.soughtSecs = c.systemNow.secs + c.offsetSecs := by
  rw [soughtSecs, offset, Span.wholeSeconds_ofSeconds h.offset_lo h.offset_hi]

/-- The logical now is the system's time moved by the offset, as far as the calendar reaches. -/
structure Saturates (c : Clock) : Prop where
  secs : c.logicalNow.secs = max Instant.first (min c.soughtSecs Instant.last)
  /-- Inside the calendar the time between the two is the offset, and the part of a second is
  kept. -/
  inside : Instant.InCalendar c.soughtSecs →
    c.systemNow.spanTo c.logicalNow = c.offset ∧ c.logicalNow.nanos = c.systemNow.nanos
  before : c.soughtSecs < Instant.first → c.logicalNow = .ofSeconds Instant.first
  after : Instant.last < c.soughtSecs → c.logicalNow = .ofSeconds Instant.last

theorem Settled.spanTo_logicalNow (h : c.Settled)
    (hin : Instant.InCalendar (c.systemNow.secs + c.offsetSecs)) :
    c.systemNow.spanTo c.logicalNow = c.offset := by
  obtain ⟨hsecs, hnanos⟩ := logicalNow_of_inCalendar hin
  refine Span.ext_nanos ?_
  show (c.logicalNow.secs - c.systemNow.secs) * 1000000000
    + ((c.logicalNow.nanos : Int) - c.systemNow.nanos) = c.offset.nanos
  rw [hsecs, hnanos, offset, Span.nanos_ofSeconds h.offset_lo h.offset_hi]
  omega

theorem Settled.saturates (h : c.Settled) : c.Saturates := by
  have hsought := h.soughtSecs_eq
  refine ⟨?_, ?_, ?_, ?_⟩
  · rw [hsought, secs_logicalNow]
    rfl
  · intro hin
    rw [hsought] at hin
    exact ⟨h.spanTo_logicalNow hin, (logicalNow_of_inCalendar hin).2⟩
  · intro hlt
    rw [hsought] at hlt
    rw [logicalNow_of_not_inCalendar fun hin => absurd hin.1 (Int.not_le.mpr hlt)]
    exact Instant.ofSeconds_of_lt_first hlt
  · intro hlt
    rw [hsought] at hlt
    rw [logicalNow_of_not_inCalendar fun hin => absurd hin.2 (Int.not_le.mpr hlt)]
    exact Instant.ofSeconds_of_last_lt hlt

/-! ### Setting the offset -/

/-- What a clock tells after an offset has been set is the offset cut toward zero. -/
theorem nanos_offset_setOffset (c : Clock) (d : Span) :
    (c.setOffset d).value.offset.nanos = d.nanos.tdiv 1000000000 * 1000000000 := by
  rw [setOffset_value, offset, Span.nanos_ofSeconds d.le_wholeSeconds d.wholeSeconds_le,
    Span.wholeSeconds_eq_tdiv]

/-- A longer offset never leads to an earlier second. -/
theorem secs_logicalNow_setOffset_le (c : Clock) {d d' : Span} (h : d.nanos ≤ d'.nanos) :
    (c.setOffset d).value.logicalNow.secs ≤ (c.setOffset d').value.logicalNow.secs := by
  have hwhole := Span.wholeSeconds_le_wholeSeconds h
  refine secs_logicalNow_le ?_
  show c.systemNow.secs + d.wholeSeconds ≤ c.systemNow.secs + d'.wholeSeconds
  omega

end Clock

namespace Server

/--
**The logical now is the offset away from the system's time, as far as the calendar
reaches.**  This holds after any run and for whatever the source says: exactly and with the
part of a second inside the calendar, as its first or last whole second outside.  An offset
that is set is cut toward zero to whole seconds, and with the source standing still a longer
one never leads to an earlier second.
-/
theorem logicalNow_saturates (src : Source) (fs : Files) (acts : List Act) (now : Source) :
    let c := { ((fresh src fs).run acts).clock with source := now }
    c.Saturates ∧
      ∀ d, (c.setOffset d).value.Saturates ∧
        (c.setOffset d).value.offset.nanos = d.nanos.tdiv 1000000000 * 1000000000 ∧
        ∀ d', d.nanos ≤ d'.nanos →
          (c.setOffset d).value.logicalNow.secs ≤ (c.setOffset d').value.logicalNow.secs := by
  intro c
  have hrun : ((fresh src fs).run acts).clock.Settled := (Clock.settled_over src).run acts
  have h : c.Settled := hrun.tuned (.source now .same)
  refine ⟨h.saturates, ?_⟩
  intro d
  exact ⟨(h.setOffset d).saturates, c.nanos_offset_setOffset d,
    fun _ hd => c.secs_logicalNow_setOffset_le hd⟩

/-- A quarter past this second of the calendar, counted from its first one. -/
def quarterPast (n : Nat) (h : Instant.first + n ≤ Instant.last) : Instant :=
  ⟨Instant.first + n, 250000000, by omega, h, by decide⟩

/-- Two seconds and a half, backwards. -/
def twoAndHalfBack : Span := ⟨-2500000000, by decide, by decide⟩

/-- A clock that was set back by that much, over a source that stands still. -/
def setBackAt (t : Instant) : Clock :=
  { ((fresh (.system t) .empty).run [.setOffset twoAndHalfBack]).clock with source := .fixed t }

/-- The offset is two seconds back.  From the second second of the calendar that leads out of it,
and from the fourth to the second; without an offset the second is no earlier. -/
theorem logicalNow_saturates_setBack :
    (setBackAt (quarterPast 1 (by decide))).logicalNow = .ofSeconds Instant.first ∧
      (setBackAt (quarterPast 3 (by decide))).systemNow.spanTo
          (setBackAt (quarterPast 3 (by decide))).logicalNow = .ofSeconds (-2) ∧
      (setBackAt (quarterPast 3 (by decide))).logicalNow = quarterPast 1 (by decide) ∧
      ((setBackAt (quarterPast 3 (by decide))).setOffset twoAndHalfBack).value.logicalNow.secs ≤
        ((setBackAt (quarterPast 3 (by decide))).setOffset .zero).value.logicalNow.secs := by
  obtain ⟨hone, -⟩ := logicalNow_saturates (.system (quarterPast 1 (by decide))) .empty
    [.setOffset twoAndHalfBack] (.fixed (quarterPast 1 (by decide)))
  obtain ⟨hthree, hset⟩ := logicalNow_saturates (.system (quarterPast 3 (by decide))) .empty
    [.setOffset twoAndHalfBack] (.fixed (quarterPast 3 (by decide)))
  refine ⟨hone.before (by decide), ?_, by decide, ?_⟩
  · exact (hthree.inside (by decide)).1.trans (by decide)
  · exact (hset twoAndHalfBack).2.2 .zero (by decide)

end Server

end Rollover
