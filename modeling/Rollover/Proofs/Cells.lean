/-
What the cells of a clock hold.

A clock keeps five things, each in a cell of its own: the anchor, the offset, the sum
of the two, and a pair of edges for each width.  Many acts write them, and none checks
what it writes.  That nothing is ever cut off on the way rests on where the values
come from.  An anchor is the second of an instant, so it lies in the calendar.  An
offset is the whole seconds of a span, so there is a span for it again.  Calendar and
spans are so much narrower than a cell that their sum has always room, and the sum is
renewed with every change of either; so it is the plain sum.

The edges are different, since nobody renews them when something else changes.  They
are what some question about their width has left, and the question that computed
them may be long past: the anchor and the second that they belong to are those of that
moment.  The induction on a run therefore goes from its end, and says of each pair
which act of the run it is from.
-/
import Mathlib.Data.List.Induction
import Rollover.Proofs.KeptOffset
import Rollover.Proofs.Run

namespace Rollover

/-! ### Anchor, offset and sum -/

/-- The settings of a clock lie where settings can lie, and their sum is kept exactly. -/
structure Clock.Settled (c : Clock) : Prop where
  anchor : Instant.InCalendar c.anchorSecs
  offset_lo : -Span.maxSeconds ≤ c.offsetSecs
  offset_hi : c.offsetSecs ≤ Span.maxSeconds
  sum : c.shiftedAnchorSecs = c.anchorSecs + c.offsetSecs

/-- The sum of a second of the calendar and the seconds of a span is not cut off. -/
theorem Word.add_eq_of_inCalendar {a n : Int} (ha : Instant.InCalendar a)
    (lo : -Span.maxSeconds ≤ n) (hi : n ≤ Span.maxSeconds) : add a n = a + n := by
  refine add_eq_of_fits ?_
  unfold Instant.InCalendar Instant.first Instant.last at ha
  unfold Span.maxSeconds at lo hi
  unfold Fits least greatest
  omega

namespace Clock

theorem settled_over (src : Source) : (Clock.over src).Settled :=
  ⟨(by decide : Instant.InCalendar 0), (by decide : -Span.maxSeconds ≤ 0),
    (by decide : 0 ≤ Span.maxSeconds), rfl⟩

variable {c d : Clock}

theorem Settled.setAnchor (h : c.Settled) (t : Instant) : (c.setAnchor t).value.Settled := by
  rw [setAnchor_value]
  exact ⟨t.inCalendar_secs, h.offset_lo, h.offset_hi,
    Word.add_eq_of_inCalendar t.inCalendar_secs h.offset_lo h.offset_hi⟩

theorem Settled.setOffset (h : c.Settled) (x : Span) : (c.setOffset x).value.Settled := by
  rw [setOffset_value]
  exact ⟨h.anchor, x.le_wholeSeconds, x.wholeSeconds_le,
    Word.add_eq_of_inCalendar h.anchor x.le_wholeSeconds x.wholeSeconds_le⟩

theorem Settled.tuned (h : c.Settled) (hd : c.Tuned d) : d.Settled := by
  induction hd with
  | same => exact h
  | source src _ ih => exact ⟨ih.anchor, ih.offset_lo, ih.offset_hi, ih.sum⟩
  | anchor t _ ih => exact ih.setAnchor t
  | offset x _ ih => exact ih.setOffset x

/-- There is a span for the offset, and it is the one that the clock tells. -/
theorem Settled.ofSeconds?_offset (h : c.Settled) : Span.ofSeconds? c.offsetSecs = some c.offset :=
  Span.ofSeconds?_eq_some h.offset_lo h.offset_hi

end Clock

/-- Whatever is done to a server, the settings of its clock stay so. -/
theorem Clock.Settled.after {s : Server} (h : s.clock.Settled) (a : Act) :
    (s.after a).clock.Settled := by
  cases ha : a.asks with
  | none => exact h.tuned (Server.tuned_after ha)
  | some w =>
      rw [Server.after_of_asks ha]
      exact ⟨h.anchor, h.offset_lo, h.offset_hi, h.sum⟩

theorem Clock.Settled.run {s : Server} (h : s.clock.Settled) (acts : List Act) :
    (s.run acts).clock.Settled := by
  induction acts generalizing s with
  | nil => exact h
  | cons a acts ih => exact ih (h.after a)

/-! ### The remembered edges -/

/-- The edges are those of the bucket that second `now` lies in, on the grid of `anchor`. -/
structure Edges.Cover (w : Width) (anchor now : Int) (e : Edges) : Prop where
  width : e.stop - e.start = w.seconds
  recent : now - w.seconds < e.start
  begun : e.start ≤ now
  aligned : OnGrid w anchor e.start

theorem Edges.cover_compute {w : Width} {anchor now : Int} (ha : Instant.InCalendar anchor)
    (hn : Instant.InCalendar now) : (compute w anchor now).Cover w anchor now := by
  have hlt := Bucket.lt_start_add (w := w) ha hn
  have hstop : (compute w anchor now).stop = (compute w anchor now).start + w.seconds :=
    Bucket.add_start_width ha hn
  refine ⟨by omega, ?_, Bucket.start_le ha hn, Bucket.onGrid_start ha hn⟩
  show now - w.seconds < Bucket.start w anchor now
  omega

namespace Server

/-- Some act of the run asked about a width when these were the edges of the present bucket. -/
def Recalled (s : Server) (acts : List Act) (w : Width) (e : Edges) : Prop :=
  ∃ before a later, acts = before ++ a :: later ∧ a.asks = some w ∧
    e.Cover w (s.run before).clock.anchorSecs (s.run before).clock.logicalNow.secs

theorem Recalled.append {s : Server} {acts : List Act} {w : Width} {e : Edges}
    (h : s.Recalled acts w e) (more : List Act) : s.Recalled (acts ++ more) w e := by
  obtain ⟨before, a, later, rfl, ha, he⟩ := h
  exact ⟨before, a, later ++ more, by simp, ha, he⟩

/-- A pair is remembered from the question that computed it, or not at all. -/
theorem unread_or_recalled {s : Server} (h : Instant.InCalendar s.clock.anchorSecs)
    (hnew : ∀ w, s.clock.cache.get w = .unread) (acts : List Act) (w : Width) :
    (s.run acts).clock.cache.get w = .unread ∨
      s.Recalled acts w ((s.run acts).clock.cache.get w) := by
  induction acts using List.reverseRecOn with
  | nil => exact Or.inl (hnew w)
  | append_singleton acts a ih =>
      have hlast : s.run (acts ++ [a]) = (s.run acts).after a := by rw [run_append]; rfl
      rw [hlast]
      -- A pair that was there before is of an act before.
      have hkept : (s.run acts).clock.cache.get w = .unread ∨
          s.Recalled (acts ++ [a]) w ((s.run acts).clock.cache.get w) :=
        ih.imp_right fun hr => hr.append [a]
      by_cases ha : a.asks = some w
      · rw [get_cache_after_of_asks ha]
        by_cases hs : ((s.run acts).clock.cache.get w).Serve w (s.run acts).clock.anchorSecs
            (s.run acts).clock.logicalNow.secs
        · rw [Clock.present_of_serve hs]
          exact hkept
        · rw [Clock.present_of_not_serve hs]
          exact Or.inr ⟨acts, a, [], rfl, ha, Edges.cover_compute (inCalendar_anchor_run acts h)
            (s.run acts).clock.logicalNow.inCalendar_secs⟩
      · rw [get_cache_after ha]
        exact hkept

/--
**No cell is ever cut off.**  After any run from a new clock the anchor is a second of
the calendar, the offset is one that a span can have, and their sum is the plain sum.
The edges remembered for a width are either the ones that nobody has set, or those of
the bucket that some question of the run about this width found itself in: a width
long, and on the grid of the anchor of that moment.
-/
theorem cells_are_exact (src : Source) (fs : Files) (acts : List Act) :
    let c := ((fresh src fs).run acts).clock
    c.Settled ∧ Span.ofSeconds? c.offsetSecs = some c.offset ∧
      Word.add c.anchorSecs c.offsetSecs = c.anchorSecs + c.offsetSecs ∧
      ∀ w, c.rememberedEdges w = .unread ∨
        (fresh src fs).Recalled acts w (c.rememberedEdges w) := by
  intro c
  have h : c.Settled := (Clock.settled_over src).run acts
  refine ⟨h, h.ofSeconds?_offset, ?_, ?_⟩
  · exact Word.add_eq_of_inCalendar h.anchor h.offset_lo h.offset_hi
  · intro w
    exact unread_or_recalled (inCalendar_anchor_fresh src fs) (fun v => by cases v <;> rfl) acts w

end Server

end Rollover
