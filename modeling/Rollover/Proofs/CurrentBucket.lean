/-
Questions about the current bucket, answered through the remembered edges.

A question is answered from one pair of edges, `present`, and leaves that pair
behind.  The test that lets a remembered pair serve looks at four unrelated things,
and for a clock whose anchor is in the calendar they say together that the pair is
`Usable`: a width long, on the grid of the present anchor, not over yet, and begun
no later than a minute from now.  A pair that is computed anew is usable as well.
So whatever pair a width had before, even one that no question would have left, the
next answer comes from a usable pair, and the grid knows only two of those: that of
the present bucket, and in the last minute that of the next one.

Since the pair that was used is the one that is kept, and it stays usable as long as
the present second and the anchor stay, all further questions get it again.
-/
import Rollover.Clock.Timer
import Rollover.Proofs.LogicalNow

namespace Rollover

/-! ### Usable edges -/

/-- The edges may stand for the current bucket of a width, seen from the second `now`. -/
structure Edges.Usable (w : Width) (anchor now : Int) (e : Edges) : Prop where
  whole : e.stop = e.start + w.seconds
  aligned : OnGrid w anchor e.start
  guarded : e.start ≤ now + Edges.guardSeconds
  lasting : now < e.stop

namespace Edges

variable {w : Width} {anchor now : Int} {e : Edges}

/-- The test for serving again is exact as long as nothing comes near the end of a cell. -/
theorem serve_iff (ha : Instant.InCalendar anchor) (hn : Instant.InCalendar now) :
    e.Serve w anchor now ↔ e.Usable w anchor now := by
  have hw : w.seconds = 86400 ∨ w.seconds = 604800 := w.seconds_eq
  unfold Instant.InCalendar Instant.first Instant.last at ha hn
  have hguard : Word.add now guardSeconds = now + guardSeconds := by
    refine Word.add_eq_of_fits ?_
    unfold Word.Fits Word.least Word.greatest guardSeconds
    omega
  rw [Serve, hguard]
  constructor
  · rintro ⟨hwidth, hgrid, hle, hlt⟩
    obtain ⟨-, hwidth⟩ := Word.sub?_eq_some_iff.mp hwidth
    obtain ⟨d, hd, hmod⟩ := (Option.any_eq_true _ _).mp hgrid
    obtain ⟨-, rfl⟩ := Word.sub?_eq_some_iff.mp hd
    exact ⟨by omega, by simpa [OnGrid] using hmod, hle, hlt⟩
  · rintro ⟨hwidth, hgrid, hle, hlt⟩
    unfold guardSeconds at hle
    -- Between the present second and a width before it the start has a cell.
    have hd : Word.sub? e.start anchor = some (e.start - anchor) := by
      refine Word.sub?_eq_some_iff.mpr ⟨?_, rfl⟩
      unfold Word.Fits Word.least Word.greatest
      omega
    refine ⟨Word.sub?_eq_some_iff.mpr ⟨?_, by omega⟩, ?_, hle, hlt⟩
    · unfold Word.Fits Word.least Word.greatest
      omega
    · rw [hd]
      simpa [OnGrid] using hgrid

theorem usable_compute (ha : Instant.InCalendar anchor) (hn : Instant.InCalendar now) :
    (compute w anchor now).Usable w anchor now := by
  have hle := Bucket.start_le (w := w) ha hn
  have hlt := Bucket.lt_start_add (w := w) ha hn
  have hstop : (compute w anchor now).stop = Bucket.start w anchor now + w.seconds :=
    Bucket.add_start_width ha hn
  refine ⟨hstop, Bucket.onGrid_start ha hn, ?_, by rw [hstop]; exact hlt⟩
  show Bucket.start w anchor now ≤ now + 60
  omega

/-- Edges that begin no later than the present second are those of its bucket. -/
theorem Usable.eq_compute (h : e.Usable w anchor now) (ha : Instant.InCalendar anchor)
    (hn : Instant.InCalendar now) (hle : e.start ≤ now) : e = compute w anchor now := by
  have hwhole := h.whole
  have hstart : e.start = Bucket.start w anchor now :=
    Bucket.eq_start ha hn h.aligned hle (by rw [← hwhole]; exact h.lasting)
  have hstop : e.stop = Word.add (Bucket.start w anchor now) w.seconds := by
    rw [hwhole, hstart, Bucket.add_start_width ha hn]
  cases e
  simp only at hstart hstop
  rw [hstart, hstop]
  rfl

/-- The edges that no question has set serve nobody. -/
theorem not_usable_unread : ¬ unread.Usable w anchor now := by
  intro h
  have hwhole : Word.least = Word.greatest + w.seconds := h.whole
  have := w.seconds_pos
  unfold Word.least Word.greatest at hwhole
  omega

end Edges

/-! ### Answering from the remembered edges -/

/-- A question about the current bucket: where it starts, or where the next one does, moved by an
optional shift. -/
inductive Question
  | currentStart (extra : Option Span)
  | nextStart (extra : Option Span)

namespace Question

/-- The edge that is asked for. -/
def edge : Question → Edges → Int
  | currentStart _, e => e.start
  | nextStart _, e => e.stop

def extra : Question → Option Span
  | currentStart x => x
  | nextStart x => x

/-- The answer that a pair of edges gives: the edge and the whole seconds of the shift, summed
without a limit and then taken to the calendar. -/
def answer (q : Question) (e : Edges) : Instant :=
  .ofSeconds (q.edge e + Span.shiftSeconds q.extra)

end Question

@[simp] theorem EdgeCache.set_get_self (c : EdgeCache) (w : Width) : c.set (c.get w) w = c := by
  cases w <;> rfl

namespace Clock

def ask (c : Clock) (w : Width) : Question → Logged (Instant × Clock)
  | .currentStart x => c.currentStart w x
  | .nextStart x => c.nextStart w x

/-- Asks one question after the other. -/
def askAll (c : Clock) (w : Width) : List Question → Logged (List Instant × Clock)
  | [] => return ([], c)
  | q :: qs => do
    let (t, c) ← c.ask w q
    let (ts, c) ← c.askAll w qs
    return (t :: ts, c)

/-- The edges that a question about the current bucket is answered from. -/
def present (c : Clock) (w : Width) : Edges := (c.currentEdges w).value.1

/-- The clock with other edges remembered for a width. -/
def remember (c : Clock) (w : Width) (e : Edges) : Clock := { c with cache := c.cache.set e w }

theorem present_of_serve {c : Clock} {w : Width}
    (h : (c.cache.get w).Serve w c.anchorSecs c.logicalNow.secs) :
    c.present w = c.cache.get w := by
  simp only [present, currentEdges, if_pos h, Logged.value_pure]

theorem present_of_not_serve {c : Clock} {w : Width}
    (h : ¬ (c.cache.get w).Serve w c.anchorSecs c.logicalNow.secs) :
    c.present w = Edges.compute w c.anchorSecs c.logicalNow.secs := by
  simp only [present, currentEdges, if_neg h, Logged.value_bind, Logged.value_pure]

/-- A look at the edges keeps the pair that it used, and changes nothing else. -/
theorem currentEdges_value (c : Clock) (w : Width) :
    (c.currentEdges w).value = (c.present w, c.remember w (c.present w)) := by
  by_cases h : (c.cache.get w).Serve w c.anchorSecs c.logicalNow.secs
  · rw [present_of_serve h]
    simp only [currentEdges, if_pos h, Logged.value_pure, remember, EdgeCache.set_get_self]
  · rw [present_of_not_serve h]
    simp only [currentEdges, if_neg h, Logged.value_bind, Logged.value_pure, remember]

theorem ask_value (c : Clock) (w : Width) (q : Question) :
    (c.ask w q).value = (q.answer (c.present w), c.remember w (c.present w)) := by
  cases q with
  | currentStart x =>
      simp only [ask, currentStart, Logged.value_bind, Logged.value_pure, currentEdges_value,
        shiftEdge, Instant.ofSeconds_add]
      rfl
  | nextStart x =>
      simp only [ask, nextStart, Logged.value_bind, Logged.value_pure, currentEdges_value,
        shiftEdge, Instant.ofSeconds_add]
      rfl

theorem usable_present {c : Clock} (w : Width) (h : Instant.InCalendar c.anchorSecs) :
    (c.present w).Usable w c.anchorSecs c.logicalNow.secs := by
  have hn := c.logicalNow.inCalendar_secs
  by_cases hs : (c.cache.get w).Serve w c.anchorSecs c.logicalNow.secs
  · rw [present_of_serve hs]
    exact (Edges.serve_iff h hn).mp hs
  · rw [present_of_not_serve hs]
    exact Edges.usable_compute h hn

/-- Remembered edges that are usable are the ones that are used. -/
theorem present_of_usable {c : Clock} {w : Width} (h : Instant.InCalendar c.anchorSecs)
    (hu : (c.cache.get w).Usable w c.anchorSecs c.logicalNow.secs) :
    c.present w = c.cache.get w :=
  present_of_serve ((Edges.serve_iff h c.logicalNow.inCalendar_secs).mpr hu)

/-- Only remembered edges can start later than the present second. -/
theorem cache_of_start_ne {c : Clock} {w : Width}
    (h : (c.present w).start ≠ Bucket.start w c.anchorSecs c.logicalNow.secs) :
    c.cache.get w = c.present w := by
  by_cases hs : (c.cache.get w).Serve w c.anchorSecs c.logicalNow.secs
  · exact (present_of_serve hs).symm
  · exact absurd (by rw [present_of_not_serve hs]; rfl) h

theorem askAll_of_usable {c : Clock} {w : Width} (h : Instant.InCalendar c.anchorSecs)
    (hu : (c.cache.get w).Usable w c.anchorSecs c.logicalNow.secs) (qs : List Question) :
    (c.askAll w qs).value = (qs.map (·.answer (c.cache.get w)), c) := by
  have hp := present_of_usable h hu
  have hsame : c.remember w (c.cache.get w) = c := by
    simp only [remember, EdgeCache.set_get_self]
  induction qs with
  | nil => rfl
  | cons q qs ih =>
      simp only [askAll, Logged.value_bind, Logged.value_pure, ask_value, hp, hsame, ih,
        List.map_cons]

/-! ### The envelope of an answer -/

/-- The pair `e` is the one that clock `c` answers questions about a width from. -/
structure Envelope (c : Clock) (w : Width) (e : Edges) : Prop where
  /-- The pair is usable now, which for a start means at most a minute ahead. -/
  usable : e.Usable w c.anchorSecs c.logicalNow.secs
  /-- It is the present bucket, or the next one.  The next one takes the last minute of the present
  bucket and that very pair remembered. -/
  present_or_next : e.start = Bucket.start w c.anchorSecs c.logicalNow.secs ∨
    e.start = Bucket.start w c.anchorSecs c.logicalNow.secs + w.seconds ∧
      Bucket.start w c.anchorSecs c.logicalNow.secs + w.seconds - Edges.guardSeconds
        ≤ c.logicalNow.secs ∧
      c.cache.get w = e
  /-- Every question is answered from it, and leaves it behind without touching anything else. -/
  answered : ∀ q : Question, ∃ c' : Clock, (c.ask w q).value = (q.answer e, c') ∧
    c'.cache.get w = e ∧ (∀ v, v ≠ w → c'.cache.get v = c.cache.get v) ∧
    c'.source = c.source ∧ c'.anchorSecs = c.anchorSecs ∧ c'.offsetSecs = c.offsetSecs ∧
    c'.shiftedAnchorSecs = c.shiftedAnchorSecs
  /-- A clock that has kept it answers any further questions from it, in any order, as long as
  the present second and the anchor are the same. -/
  repeated : ∀ c' : Clock, c'.cache.get w = e → c'.anchorSecs = c.anchorSecs →
    c'.logicalNow.secs = c.logicalNow.secs →
    ∀ qs : List Question, (c'.askAll w qs).value = (qs.map (·.answer e), c')

/--
**One pair of edges answers, and it is one of two.**  Whatever a clock remembers for
a width, its questions are answered from a usable pair, which is that of the present
bucket or, out of memory and within the last minute, that of the next one.
-/
theorem exists_envelope (c : Clock) (w : Width) (h : Instant.InCalendar c.anchorSecs) :
    ∃ e : Edges, Envelope c w e := by
  have hn := c.logicalNow.inCalendar_secs
  have hu := usable_present w h
  have hlasting : c.logicalNow.secs < (c.present w).start + w.seconds := by
    rw [← hu.whole]
    exact hu.lasting
  refine ⟨c.present w, hu, ?_, ?_, ?_⟩
  · rcases Bucket.eq_start_or_next h hn hu.aligned hu.guarded hlasting with hp | ⟨hp, hlate⟩
    · exact Or.inl hp
    · have := w.seconds_pos
      exact Or.inr ⟨hp, hlate, cache_of_start_ne (by omega)⟩
  · intro q
    refine ⟨_, ask_value c w q, EdgeCache.get_set_self _ _ _, ?_, rfl, rfl, rfl, rfl⟩
    intro v hv
    exact EdgeCache.get_set_of_ne _ _ hv
  · rintro c' hcache hanchor hnow qs
    rw [← hanchor] at h
    rw [← hcache, ← hanchor, ← hnow] at hu
    rw [askAll_of_usable h hu qs, hcache]

/-- A clock half a minute before midnight that remembers the edges of the day to come. -/
def lateEvening : Clock :=
  { source := .fixed (.ofSeconds 86370), cache := { day := ⟨86400, 172800⟩ } }

/-- In the last minute the pair of the next bucket does answer, if it is what is remembered. -/
theorem exists_envelope_lateEvening :
    Instant.InCalendar lateEvening.anchorSecs ∧
      ∃ e : Edges, Envelope lateEvening .day e ∧ e = ⟨86400, 172800⟩ := by
  refine ⟨by decide, ?_⟩
  obtain ⟨e, he⟩ := exists_envelope lateEvening .day (by decide)
  obtain ⟨c', hvalue, hcache, -⟩ := he.answered (.currentStart none)
  have hkept : (lateEvening.ask .day (.currentStart none)).value.2.cache.day = ⟨86400, 172800⟩ := by
    decide
  rw [hvalue] at hkept
  exact ⟨e, he, hcache.symm.trans hkept⟩

end Clock

end Rollover
