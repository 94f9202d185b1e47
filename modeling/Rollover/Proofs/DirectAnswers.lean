/-
Without rewinding, remembering changes no answer.

A clock that remembers edges may differ from one that computes every answer anew
only by the guard minute, and the guard minute needs a remembered start that lies
ahead.  If, for each width, the seconds at which the run looks at the remembered
edges never go down, there is none: a start is set no later than the second of that
look, so it lies behind all later ones.

The invariant is `Behind`, over the rest of the run: remembered edges that somebody
has set start no later than any second at which they are still to be looked at.
Nothing is said of the anchor they were computed for.  It may have been changed many
times since, and whether they are on the present grid is for the test to find out.
-/
import Mathlib.Data.List.Chain
import Rollover.Proofs.Run

namespace Rollover

/-- The answer that is computed from the present second and anchor, without remembering. -/
def Question.direct (c : Clock) (w : Width) : Question → Instant
  | currentStart x => c.bucketStart w x c.logicalNow
  | nextStart x =>
    .ofSeconds (Bucket.start w c.anchorSecs c.logicalNow.secs + w.seconds + Span.shiftSeconds x)

theorem Question.direct_eq_answer {c : Clock} {w : Width} (h : Instant.InCalendar c.anchorSecs)
    (q : Question) :
    q.direct c w = q.answer (Edges.compute w c.anchorSecs c.logicalNow.secs) := by
  cases q with
  | currentStart x => exact Instant.ofSeconds_add _ _
  | nextStart x =>
      simp only [direct, answer, edge, extra, Edges.compute,
        Bucket.add_start_width h c.logicalNow.inCalendar_secs]

/-- Edges that nobody has set, or that do not start ahead, answer as if computed anew. -/
theorem Clock.present_eq_compute {c : Clock} {w : Width} (h : Instant.InCalendar c.anchorSecs)
    (hb : c.cache.get w = .unread ∨ (c.cache.get w).start ≤ c.logicalNow.secs) :
    c.present w = Edges.compute w c.anchorSecs c.logicalNow.secs := by
  have hn := c.logicalNow.inCalendar_secs
  by_cases hs : (c.cache.get w).Serve w c.anchorSecs c.logicalNow.secs
  · have hu := (Edges.serve_iff h hn).mp hs
    rw [present_of_serve hs]
    rcases hb with hb | hb
    · rw [hb] at hu
      exact absurd hu Edges.not_usable_unread
    · exact hu.eq_compute h hn hb
  · exact present_of_not_serve hs

namespace Server

/-- The seconds at which a run looks at the remembered edges of a width, in order. -/
def lookups (w : Width) : Server → List Act → List Int
  | _, [] => []
  | s, a :: acts =>
    if a.asks = some w then s.clock.logicalNow.secs :: lookups w (s.after a) acts
    else lookups w (s.after a) acts

/-- No remembered edges start later than a second at which the run is still to look at them. -/
def Behind (s : Server) (acts : List Act) : Prop :=
  ∀ w, s.clock.cache.get w = .unread ∨ ∀ n ∈ s.lookups w acts, (s.clock.cache.get w).start ≤ n

theorem behind_fresh (src : Source) (fs : Files) (acts : List Act) :
    (fresh src fs).Behind acts := by
  intro w
  cases w
  · exact Or.inl rfl
  · exact Or.inl rfl

/-- A look at the edges is made with nothing ahead. -/
theorem Behind.present_eq_compute {s : Server} {a : Act} {acts : List Act} {w : Width}
    (hb : s.Behind (a :: acts)) (hc : Instant.InCalendar s.clock.anchorSecs)
    (ha : a.asks = some w) :
    s.clock.present w = Edges.compute w s.clock.anchorSecs s.clock.logicalNow.secs := by
  refine Clock.present_eq_compute hc ?_
  rcases hb w with hw | hw
  · exact Or.inl hw
  · exact Or.inr (hw _ (by simp [lookups, ha]))

theorem Behind.after {s : Server} {a : Act} {acts : List Act} (hb : s.Behind (a :: acts))
    (hc : Instant.InCalendar s.clock.anchorSecs)
    (h : ∀ w, (s.lookups w (a :: acts)).Pairwise (· ≤ ·)) : (s.after a).Behind acts := by
  intro w
  by_cases ha : a.asks = some w
  · -- The edges of this look start no later than its second, which no later look precedes.
    have hp := h w
    simp only [lookups, ha, if_true, List.pairwise_cons] at hp
    refine Or.inr fun n hn => ?_
    rw [get_cache_after_of_asks ha, hb.present_eq_compute hc ha]
    exact Int.le_trans (Bucket.start_le hc s.clock.logicalNow.inCalendar_secs) (hp.1 n hn)
  · rw [get_cache_after ha]
    simpa [lookups, ha] using hb w

theorem Behind.run {before : List Act} :
    ∀ {s : Server} {rest : List Act}, s.Behind (before ++ rest) →
      Instant.InCalendar s.clock.anchorSecs →
      (∀ w, (s.lookups w (before ++ rest)).Pairwise (· ≤ ·)) →
      (s.run before).Behind rest ∧ Instant.InCalendar (s.run before).clock.anchorSecs := by
  induction before with
  | nil => intro s rest hb hc _; exact ⟨hb, hc⟩
  | cons a before ih =>
      intro s rest hb hc h
      refine ih (hb.after hc h) (inCalendar_anchor_after a hc) ?_
      intro w
      have hw := h w
      rw [List.cons_append, lookups] at hw
      split at hw
      · exact (List.pairwise_cons.mp hw).2
      · exact hw

/--
**Every answer is the direct one.**  In a run from a new clock, if the seconds of
the successive looks at each width's edges never go down, then each question about
a current bucket is answered as the present second and anchor alone would have it.
-/
theorem answers_are_direct (src : Source) (fs : Files) (acts : List Act)
    (h : ∀ w, ((fresh src fs).lookups w acts).IsChain (· ≤ ·))
    (before after : List Act) (w : Width) (q : Question)
    (hacts : acts = before ++ .ask w q :: after) :
    (((fresh src fs).run before).clock.ask w q).value.1 =
      q.direct ((fresh src fs).run before).clock w := by
  subst hacts
  have hc : Instant.InCalendar (fresh src fs).clock.anchorSecs := by
    show Instant.InCalendar 0
    decide
  obtain ⟨hb, hc'⟩ := (behind_fresh src fs _).run hc fun w => List.isChain_iff_pairwise.mp (h w)
  rw [Clock.ask_value, hb.present_eq_compute hc' rfl, Question.direct_eq_answer hc']

/-- The week is asked for before the anchor is set, and again an hour and a reset later. -/
def reanchored : List Act :=
  [.ask .week (.currentStart none), .setAnchor (.ofSeconds 1672617600),
    .execute { zone := .utc } .resetServerTime, .setOffset (.ofSeconds 3600),
    .ask .week (.currentStart none)]

/-- Edges from before the anchor was set do not outlive it. -/
theorem answers_are_direct_reanchored :
    let s := fresh (.fixed (.ofSeconds 1672833600)) .empty
    (∀ w, (s.lookups w reanchored).IsChain (· ≤ ·)) ∧
      ((s.run (reanchored.take 4)).clock.ask .week (.currentStart none)).value.1 =
        .ofSeconds 1672617600 := by
  have h : ∀ w, ((fresh (.fixed (.ofSeconds 1672833600)) .empty).lookups w reanchored).IsChain
      (· ≤ ·) := by
    intro w
    cases w <;> decide
  refine ⟨h, ?_⟩
  rw [answers_are_direct _ _ _ h (reanchored.take 4) [] .week (.currentStart none) rfl]
  decide

end Server

end Rollover
