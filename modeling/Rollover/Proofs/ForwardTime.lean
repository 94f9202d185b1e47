/-
Commands do not turn logical time back, unless one is a reset.

A request for a time is refused when the time lies before the logical now, so what
is left to show is that the offset which is then computed is never too small.  It is
the time from the source's second to the request, cut to whole seconds, and three
things about it pull in different directions: a request may have a part of a second,
it may lie on a leap second, and the cut is toward zero and not down.  All three end
on the right side.  The source's second is whole, so a leap second can only be taken
off where the request itself brings a whole extra second of nanoseconds, and a cut
toward zero never falls below a whole number that the time does not fall below.

So the offset takes the source's second at least to that of the request, and from
there on everything is monotone: the saturating sum, the end of the calendar, the
numbers of buckets.  The reply of the store plays no part, since the clock is moved
before the store is asked.
-/
import Rollover.Proofs.Run

namespace Rollover

/-! ### The offset of a request -/

theorem Span.le_wholeSeconds_of_le {d : Span} {k : Int} (h : k * 1000000000 ≤ d.nanos) :
    k ≤ d.wholeSeconds := by
  unfold wholeSeconds cut
  split <;> omega

/-- From a whole second, no leap second makes the time to a later moment shorter than the seconds
between them. -/
theorem CivilTime.le_nanos_since {a b : CivilTime} (hb : b.nanos = 0) :
    (a.secs - b.secs) * 1000000000 ≤ (a.since b).nanos := by
  have hleap : 0 ≤ leapBetween a b ∨ leapBetween a b = -1 ∧ 1000000000 ≤ a.nanos := by
    unfold leapBetween
    rw [hb]
    repeat' split
    all_goals omega
  show _ ≤ (a.secs - b.secs + leapBetween a b) * 1000000000 + ((a.nanos : Int) - b.nanos)
  omega

theorem CivilTime.not_before_floor {a : CivilTime} {t : Instant}
    (h : ¬ a.before (.ofInstant t.floor)) : t.secs ≤ a.secs := by
  unfold before at h
  simp only [ofInstant, Instant.secs_floor] at h
  omega

/-- The offset that a request asks for takes the source's second at least to the logical now. -/
theorem Handler.Wants.secs_logicalNow_le {h : Handler} {s : Server} {c : Command} {d : Span}
    (hd : h.Wants s c d) (hc : c ≠ .resetServerTime) :
    s.clock.logicalNow.secs ≤ s.clock.systemNow.secs + d.wholeSeconds := by
  cases c with
  | help => exact hd.elim
  | showServerTime => exact hd.elim
  | resetServerTime => exact absurd rfl hc
  | setServerTime t =>
      obtain ⟨requested, -, hpast, rfl⟩ := hd
      have hnow := CivilTime.not_before_floor hpast
      have hoffset := Span.le_wholeSeconds_of_le
        (CivilTime.le_nanos_since (a := requested) (b := .ofInstant s.clock.systemNow.floor) rfl)
      have hsys : (CivilTime.ofInstant s.clock.systemNow.floor).secs = s.clock.systemNow.secs :=
        Instant.secs_floor _
      omega

theorem Clock.le_secs_logicalNow_setOffset {c : Clock} {d : Span} {n : Int}
    (hn : Instant.InCalendar n) (h : n ≤ c.systemNow.secs + d.wholeSeconds) :
    n ≤ (c.setOffset d).value.logicalNow.secs := by
  rw [secs_logicalNow]
  exact Instant.le_secs_ofSeconds hn h

/-! ### One act -/

namespace Server

/-- An act that is no reset and sets nothing by hand, and in which the source's second does not go
down. -/
def Forward (s : Server) : Act → Prop
  | .source src => s.clock.systemNow.secs ≤ src.now.secs
  | .dispatch _ words => Command.ofWords words ≠ .ok .resetServerTime
  | .execute _ c => c ≠ .resetServerTime
  | .setAnchor _ => False
  | .setOffset _ => False
  | .apply _ => False
  | .files _ => True
  | .ask _ _ => True
  | .untilNext _ _ => True
  | .wait _ _ => True

/-- The second server is no earlier in logical time and has the same anchor. -/
structure NotBack (s s' : Server) : Prop where
  secs_le : s.clock.logicalNow.secs ≤ s'.clock.logicalNow.secs
  anchor_eq : s'.clock.anchorSecs = s.clock.anchorSecs

theorem NotBack.trans {s s' s'' : Server} (h : NotBack s s') (h' : NotBack s' s'') :
    NotBack s s'' :=
  ⟨Int.le_trans h.secs_le h'.secs_le, h'.anchor_eq.trans h.anchor_eq⟩

theorem notBack_of_clock_eq {s s' : Server} (h : s'.clock = s.clock) : NotBack s s' := by
  have hsecs : s.clock.logicalNow.secs = s'.clock.logicalNow.secs := by rw [h]
  exact ⟨Int.le_of_eq hsecs, by rw [h]⟩

theorem notBack_execute (h : Handler) (s : Server) {c : Command} (hc : c ≠ .resetServerTime) :
    NotBack s (h.execute s c).value.2 := by
  rcases (h.execute_outcome s c).clock with hclock | ⟨d, hd, hclock⟩
  · exact notBack_of_clock_eq hclock
  · refine ⟨?_, ?_⟩
    · rw [hclock]
      exact Clock.le_secs_logicalNow_setOffset s.clock.logicalNow.inCalendar_secs
        (hd.secs_logicalNow_le hc)
    · rw [hclock, Clock.setOffset_value]

theorem Forward.notBack {s : Server} {a : Act} (ha : s.Forward a) : NotBack s (s.after a) := by
  cases a with
  | source src =>
      refine ⟨Clock.secs_logicalNow_le ?_, rfl⟩
      have hsys : s.clock.systemNow.secs ≤ src.now.secs := ha
      show s.clock.systemNow.secs + s.clock.offsetSecs ≤ src.now.secs + s.clock.offsetSecs
      omega
  | files fs => exact notBack_of_clock_eq rfl
  | setAnchor t => exact ha.elim
  | setOffset d => exact ha.elim
  | apply c => exact ha.elim
  | dispatch h words =>
      rcases h.dispatch_cases s words with ⟨_, -, hv⟩ | ⟨c, hc, hv⟩
      · exact notBack_of_clock_eq (by simp only [after, hv])
      · simp only [after, hv]
        exact notBack_execute h s fun hreset => ha (by rw [hc, hreset])
  | execute h c => exact notBack_execute h s ha
  | ask w q =>
      rw [after_of_asks rfl]
      exact ⟨Int.le_refl _, rfl⟩
  | untilNext w extra =>
      rw [after_of_asks rfl]
      exact ⟨Int.le_refl _, rfl⟩
  | wait w extra =>
      rw [after_of_asks rfl]
      exact ⟨Int.le_refl _, rfl⟩

/-! ### A whole run -/

theorem notBack_run {s : Server} {acts : List Act} (h : s.Allows Forward acts) :
    NotBack s (s.run acts) :=
  run_induction (NotBack s) (fun _ _ ha hs => hs.trans ha.notBack) acts s h
    (notBack_of_clock_eq rfl)

/--
**Logical time goes forward.**  From any point of a run of commands other than
resets to any later one, the second of the logical now does not go down, and neither
does the number of its bucket, for either width and any refresh.  It does not matter
what the replies are, what state the clock and the files were in, or how often the
source goes on in between.
-/
theorem logicalNow_never_falls (s : Server) (before more : List Act)
    (h : s.Allows Forward (before ++ more)) :
    let earlier := (s.run before).clock
    let later := (s.run (before ++ more)).clock
    earlier.logicalNow.secs ≤ later.logicalNow.secs ∧
      ∀ (w : Width) (refresh : Option Span),
        earlier.bucketIndex w refresh earlier.logicalNow ≤
          later.bucketIndex w refresh later.logicalNow := by
  intro earlier later
  have hback : NotBack (s.run before) (s.run (before ++ more)) := by
    rw [run_append]
    exact notBack_run (allows_append.mp h).2
  refine ⟨hback.secs_le, fun w refresh => ?_⟩
  show Bucket.indexOf w earlier.anchorSecs refresh earlier.logicalNow
    ≤ Bucket.indexOf w later.anchorSecs refresh later.logicalNow
  rw [show later.anchorSecs = earlier.anchorSecs from hback.anchor_eq]
  exact Bucket.indexOf_le_indexOf w _ refresh hback.secs_le

/-- A server that is behind its host. -/
def behindHost : Server :=
  ⟨{ source := .fixed (.ofSeconds 80000), offsetSecs := -50000, shiftedAnchorSecs := -50000 },
    .empty⟩

/-- A request for a leap second, made of a handler whose store fails. -/
def leapRequest : Act :=
  .execute { zone := .utc, store := some "" }
    (.setServerTime ⟨30059, 1500000000, by decide, by decide, by decide⟩)

theorem logicalNow_never_falls_leapRequest :
    behindHost.Allows Forward [leapRequest, .source (.fixed (.ofSeconds 80001))] ∧
      behindHost.clock.logicalNow.secs ≤ (behindHost.run
        [leapRequest, .source (.fixed (.ofSeconds 80001))]).clock.logicalNow.secs := by
  have hrequest : behindHost.Forward leapRequest := fun hreset => Command.noConfusion hreset
  have hlater : (behindHost.after leapRequest).Forward (.source (.fixed (.ofSeconds 80001))) := by
    show (Handler.execute _ behindHost _).value.2.clock.source.now.secs ≤ _
    rw [Handler.execute_source]
    decide
  have h : behindHost.Allows Forward [leapRequest, .source (.fixed (.ofSeconds 80001))] :=
    ⟨hrequest, hlater, trivial⟩
  exact ⟨h, (logicalNow_never_falls behindHost [] _ h).1⟩

end Server

end Rollover
