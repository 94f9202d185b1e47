/-
What the remembered edges are worth after the anchor has been set.

Setting the anchor drops nothing.  The edges of both widths stay as the last question
left them, for whatever anchor that was, and it is for the test of the next question
to find out.  The test asks for the present grid, so edges that have come off it are
computed anew.  Edges that are still on it, because the anchor moved by whole widths
or came back to where it was, are taken if they cover the present second, and then
they are right; but they are also taken when they begin up to a minute ahead.

That minute is the only way in which an answer can differ from the one that is
computed directly (`Ahead`), and the answer is then the start of the bucket that is
about to begin.  It takes a second that has gone back since the edges were computed,
which the guard minute is meant to absorb, whether the anchor has been set meanwhile
or not.
-/
import Rollover.Proofs.Cells
import Rollover.Proofs.DirectAnswers

namespace Rollover

namespace Clock

/-- The edges remembered for a width are on the grid of the present anchor, and begin after the
present second but within the guard minute. -/
def Ahead (c : Clock) (w : Width) : Prop :=
  OnGrid w c.anchorSecs (c.rememberedEdges w).start ∧
    c.logicalNow.secs < (c.rememberedEdges w).start ∧
    (c.rememberedEdges w).start ≤ c.logicalNow.secs + Edges.guardSeconds

instance (c : Clock) (w : Width) : Decidable (c.Ahead w) :=
  inferInstanceAs (Decidable (_ ∧ _ ∧ _))

variable {c : Clock} {w : Width}

/-- Edges that serve without being ahead have begun. -/
theorem present_of_not_ahead (h : Instant.InCalendar c.anchorSecs) (ha : ¬ c.Ahead w) :
    c.present w = Edges.compute w c.anchorSecs c.logicalNow.secs := by
  by_cases hs : (c.cache.get w).Serve w c.anchorSecs c.logicalNow.secs
  · have hu := (Edges.serve_iff h c.logicalNow.inCalendar_secs).mp hs
    have hbegun : (c.cache.get w).start ≤ c.logicalNow.secs := by
      by_contra hlate
      exact ha ⟨hu.aligned, Int.not_le.mp hlate, hu.guarded⟩
    exact present_eq_compute h (Or.inr hbegun)
  · exact present_of_not_serve hs

/-- Edges that are ahead and a width long are used, and are those of the next bucket. -/
theorem Ahead.present (ha : c.Ahead w) (h : Instant.InCalendar c.anchorSecs)
    (hwhole : (c.rememberedEdges w).stop = (c.rememberedEdges w).start + w.seconds) :
    c.present w = c.rememberedEdges w ∧
      (c.rememberedEdges w).start =
        Bucket.start w c.anchorSecs c.logicalNow.secs + w.seconds := by
  obtain ⟨hgrid, hlate, hguard⟩ := ha
  have hn := c.logicalNow.inCalendar_secs
  have hw := w.seconds_pos
  refine ⟨present_of_usable h ⟨hwhole, hgrid, hguard, ?_⟩, ?_⟩
  · show c.logicalNow.secs < (c.rememberedEdges w).stop
    omega
  · have hle := Bucket.start_le (w := w) h hn
    rcases Bucket.eq_start_or_next h hn hgrid hguard (by omega) with hstart | ⟨hnext, -⟩
    · omega
    · exact hnext

end Clock

namespace Server

/-- What a reachable server remembers for a width is either unset or a width long. -/
theorem Reachable.unread_or_whole {s : Server} (hs : s.Reachable) (w : Width) :
    s.clock.rememberedEdges w = .unread ∨
      (s.clock.rememberedEdges w).stop = (s.clock.rememberedEdges w).start + w.seconds := by
  obtain ⟨src, fs, acts, rfl⟩ := hs
  have hnew : ∀ v, (fresh src fs).clock.cache.get v = .unread := fun v => by cases v <;> rfl
  rcases unread_or_recalled (inCalendar_anchor_fresh src fs) hnew acts w with h | h
  · exact Or.inl h
  · obtain ⟨_, _, _, -, -, hcover⟩ := h
    exact Or.inr (Int.sub_eq_iff_eq_add'.mp hcover.width)

/-- Edges that nobody has set begin too late to be ahead. -/
theorem not_ahead_of_unread {c : Clock} {w : Width} (h : c.rememberedEdges w = .unread) :
    ¬ c.Ahead w := by
  rintro ⟨-, -, hguard⟩
  have hlast := c.logicalNow.le_last
  rw [h] at hguard
  have hstart : Edges.unread.start = 9223372036854775807 := rfl
  unfold Edges.guardSeconds at hguard
  unfold Instant.last at hlast
  omega

/--
**Setting the anchor leaves one stale answer possible, and no other.**  Right after the
anchor has been set, whatever was done before, the start of the current bucket is the
one that is computed from the new anchor, unless the edges remembered for the width
happen to lie on the new grid and to begin within the next minute.  Then, and only
then, the answer differs: it is where those edges begin, which is one width after the
start that is computed.
-/
theorem currentStart_after_setAnchor {s : Server} (hs : s.Reachable) (a : Instant) (w : Width) :
    let c := (s.after (.setAnchor a)).clock
    let answer := (c.ask w (.currentStart none)).value.1
    (¬ c.Ahead w → answer = c.bucketStart w none c.logicalNow) ∧
      (c.Ahead w → answer = .ofSeconds (c.rememberedEdges w).start ∧
        (c.rememberedEdges w).start =
          Bucket.start w c.anchorSecs c.logicalNow.secs + w.seconds ∧
        answer ≠ c.bucketStart w none c.logicalNow) := by
  intro c answer
  have hc : Instant.InCalendar c.anchorSecs := inCalendar_anchor_after _ hs.inCalendar_anchor
  have hanswer : answer = (Question.currentStart none).answer (c.present w) := by
    show (c.ask w (.currentStart none)).value.1 = _
    rw [Clock.ask_value]
  have hdirect := Question.direct_eq_answer (w := w) hc (.currentStart none)
  refine ⟨fun ha => ?_, fun ha => ?_⟩
  · rw [hanswer, Clock.present_of_not_ahead hc ha, ← hdirect]
    rfl
  · have hkept : c.rememberedEdges w = s.clock.rememberedEdges w := by
      show (s.after (.setAnchor a)).clock.cache.get w = s.clock.cache.get w
      rw [cache_after rfl]
    have hwhole : (c.rememberedEdges w).stop = (c.rememberedEdges w).start + w.seconds := by
      rcases hs.unread_or_whole w with hunread | hwhole
      · exact absurd ha (not_ahead_of_unread (hkept.trans hunread))
      · rw [hkept]
        exact hwhole
    obtain ⟨hpresent, hnext⟩ := ha.present hc hwhole
    have hstart : answer = .ofSeconds (c.rememberedEdges w).start := by
      rw [hanswer, hpresent]
      show Instant.ofSeconds ((c.rememberedEdges w).start + 0) = _
      rw [Int.add_zero]
    refine ⟨hstart, hnext, ?_⟩
    -- The two starts differ after they have been taken to the calendar, because the present
    -- second, which lies in it, is between them.
    intro heq
    have hsame : (Instant.ofSeconds (c.rememberedEdges w).start).secs =
        (c.bucketStart w none c.logicalNow).secs := by rw [← hstart, heq]
    have hplain : c.bucketStart w none c.logicalNow =
        .ofSeconds (Bucket.start w c.anchorSecs c.logicalNow.secs + 0) :=
      Instant.ofSeconds_add _ _
    have hn := c.logicalNow.inCalendar_secs
    have hle := Bucket.start_le (w := w) hc hn
    have hlate := ha.2.1
    have hguard := ha.2.2
    have hwidth := w.seconds_eq
    rw [hplain] at hsame
    unfold Instant.InCalendar Instant.first Instant.last at hn
    simp only [Instant.ofSeconds, Instant.first, Instant.last] at hsame
    unfold Edges.guardSeconds at hguard
    omega

/-- The day is asked for at midnight, and then the source goes back by half a minute. -/
def setBack : Server :=
  (fresh (.fixed (.ofSeconds 86400)) .empty).run
    [.ask .day (.currentStart none), .ask .week (.currentStart none),
      .source (.fixed (.ofSeconds 86370))]

theorem reachable_setBack : setBack.Reachable := ⟨_, _, _, rfl⟩

/-- The week has come off its grid and is computed anew; the day is on the new grid. -/
theorem currentStart_after_setAnchor_setBack :
    setBack.Reachable ∧
      ((setBack.after (.setAnchor (.ofSeconds 172800))).clock.ask .week
        (.currentStart none)).value.1 = .ofSeconds (-432000) ∧
      ((setBack.after (.setAnchor (.ofSeconds 172800))).clock.ask .day
        (.currentStart none)).value.1 = .ofSeconds 86400 := by
  have hweek := (currentStart_after_setAnchor reachable_setBack (.ofSeconds 172800) .week).1
    (by decide)
  have hday := ((currentStart_after_setAnchor reachable_setBack (.ofSeconds 172800) .day).2
    (by decide)).1
  exact ⟨reachable_setBack, hweek.trans (by decide), hday.trans (by decide)⟩

/-- The anchor is moved by two days, and the day that has yet to begin is still the answer. -/
theorem stale_edges_outlive_setAnchor :
    setBack.Reachable ∧
      let c := (setBack.after (.setAnchor (.ofSeconds 172800))).clock
      (c.ask .day (.currentStart none)).value.1 = .ofSeconds 86400 ∧
        c.bucketStart .day none c.logicalNow = .ofSeconds 0 :=
  ⟨reachable_setBack, by decide, by decide⟩

end Server

end Rollover
