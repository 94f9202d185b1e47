/-
Runs of a server.

A run is a list of acts, done one after the other: time passes or files change
outside, somebody sets the anchor or the offset, settings are applied, a game master
gives a command, or somebody asks about a current bucket.  A question about a given
instant is a function of the clock and leaves no trace, so it is no act; the timers
are here because they look at the current bucket.  A wait is the act of beginning it:
while it sleeps the source goes on, and that is an act of its own.

Acts come in two kinds.  An act that asks about a width leaves the pair of edges that
it used, and nothing else changes.  Every other act only tunes the clock: it may move
the source and set the anchor and the offset, but it leaves all remembered edges as
they are.  What holds of all clocks is proved along `Tuned`, once for each setting
and not once for each act.
-/
import Rollover.Proofs.Commands
import Rollover.Proofs.CurrentBucket

namespace Rollover

/-- What is done to a server, or happens around it. -/
inductive Act
  /-- The source says another time. -/
  | source (s : Source)
  /-- Somebody else changes the files. -/
  | files (fs : Files)
  | setAnchor (t : Instant)
  | setOffset (d : Span)
  | apply (c : Config)
  | dispatch (h : Handler) (words : List String)
  | execute (h : Handler) (c : Command)
  | ask (w : Width) (q : Question)
  | untilNext (w : Width) (extra : Option Span)
  | wait (w : Width) (extra : Option Span)

/-- The width whose remembered edges an act looks at. -/
def Act.asks : Act → Option Width
  | ask w _ => some w
  | untilNext w _ => some w
  | wait w _ => some w
  | _ => none

/-! ### Tuning a clock -/

/-- The clock `c` once its source has gone on and its anchor and offset have been set, each any
number of times. -/
inductive Clock.Tuned (c : Clock) : Clock → Prop
  | same : Tuned c c
  | source {d : Clock} (src : Source) : Tuned c d → Tuned c { d with source := src }
  | anchor {d : Clock} (t : Instant) : Tuned c d → Tuned c (d.setAnchor t).value
  | offset {d : Clock} (x : Span) : Tuned c d → Tuned c (d.setOffset x).value

/-- Tuning does not look at the remembered edges, which is why they may be out of date. -/
theorem Clock.Tuned.cache {c d : Clock} (h : c.Tuned d) : d.cache = c.cache := by
  induction h with
  | same => rfl
  | source src _ ih => exact ih
  | anchor t _ ih => rw [setAnchor_value]; exact ih
  | offset x _ ih => rw [setOffset_value]; exact ih

theorem Clock.Tuned.inCalendar_anchor {c d : Clock} (h : c.Tuned d)
    (hc : Instant.InCalendar c.anchorSecs) : Instant.InCalendar d.anchorSecs := by
  induction h with
  | same => exact hc
  | source src _ ih => exact ih
  | anchor t _ _ => rw [setAnchor_value]; exact t.inCalendar_secs
  | offset x _ ih => rw [setOffset_value]; exact ih

theorem Handler.Outcome.tuned {h : Handler} {s s' : Server} {c : Command} {r : Reply}
    (ho : h.Outcome s c r s') : s.clock.Tuned s'.clock := by
  rcases ho.clock with hc | ⟨d, -, hc⟩
  · rw [hc]
    exact .same
  · rw [hc]
    exact .offset d .same

/-! ### Applying settings -/

/-- The offset that settings restore from the files, if there is an offset file and it holds one. -/
def Config.restored (c : Config) (fs : Files) : Option Span :=
  c.offsetFile.bind fun path =>
    match (OffsetFile.load fs path).value with
    | .ok d => d
    | .error _ => none

/-- The clock once its anchor has been set, and its offset too if there is one to set. -/
def Clock.settle (c : Clock) (anchor : Instant) : Option Span → Clock
  | none => (c.setAnchor anchor).value
  | some d => ((c.setAnchor anchor).value.setOffset d).value

/-- **Settings set the anchor, and the offset if they restore one.** -/
theorem Config.apply_value (c : Config) (fs : Files) (clock : Clock) :
    (c.apply fs clock).value = (c.restored fs, clock.settle c.anchor (c.restored fs)) := by
  unfold apply restored
  cases c.offsetFile with
  | none => rfl
  | some path =>
      simp only [Logged.value_bind, Option.bind_some]
      split
      · rename_i d hload
        simp only [hload]
        rfl
      · rename_i hload
        simp only [hload]
        rfl
      · rename_i e hload
        simp only [hload]
        rfl

theorem Clock.tuned_settle (c : Clock) (anchor : Instant) (offset : Option Span) :
    c.Tuned (c.settle anchor offset) := by
  cases offset with
  | none => exact .anchor anchor .same
  | some d => exact .offset d (.anchor anchor .same)

theorem tuned_apply (c : Config) (fs : Files) (clock : Clock) :
    clock.Tuned (c.apply fs clock).value.2 := by
  rw [c.apply_value]
  exact clock.tuned_settle c.anchor (c.restored fs)

namespace Server

/-- A server that starts with a new clock over a source. -/
def fresh (src : Source) (fs : Files) : Server := ⟨.over src, fs⟩

/-- The server after an act. -/
def after (s : Server) : Act → Server
  | .source src => { s with clock := { s.clock with source := src } }
  | .files fs => { s with files := fs }
  | .setAnchor t => { s with clock := (s.clock.setAnchor t).value }
  | .setOffset d => { s with clock := (s.clock.setOffset d).value }
  | .apply c => { s with clock := (c.apply s.files s.clock).value.2 }
  | .dispatch h words => (h.dispatch s words).value.2
  | .execute h c => (h.execute s c).value.2
  | .ask w q => { s with clock := (s.clock.ask w q).value.2 }
  | .untilNext w extra => { s with clock := (s.clock.untilNextStart w extra).value.2 }
  | .wait w extra => { s with clock := (s.clock.waitNextStart w extra).value.2 }

/-- The server after a run. -/
def run (s : Server) (acts : List Act) : Server := acts.foldl after s

@[simp] theorem run_cons (s : Server) (a : Act) (acts : List Act) :
    s.run (a :: acts) = (s.after a).run acts := rfl

theorem run_append (s : Server) (acts more : List Act) :
    s.run (acts ++ more) = (s.run acts).run more := List.foldl_append

/-- Every act of a run may be done where the run does it. -/
def Allows (P : Server → Act → Prop) : Server → List Act → Prop
  | _, [] => True
  | s, a :: acts => P s a ∧ Allows P (s.after a) acts

theorem allows_append {P : Server → Act → Prop} {acts more : List Act} :
    ∀ {s : Server}, s.Allows P (acts ++ more) ↔ s.Allows P acts ∧ (s.run acts).Allows P more := by
  induction acts with
  | nil => intro s; exact ⟨fun h => ⟨trivial, h⟩, fun h => h.2⟩
  | cons a acts ih =>
      intro s
      simp only [List.cons_append, Allows, run_cons, ih, and_assoc]

/-- What every allowed act keeps, a run of allowed acts keeps. -/
theorem run_induction {P : Server → Act → Prop} (Inv : Server → Prop)
    (hstep : ∀ s a, P s a → Inv s → Inv (s.after a)) :
    ∀ (acts : List Act) (s : Server), s.Allows P acts → Inv s → Inv (s.run acts) := by
  intro acts
  induction acts with
  | nil => intro s _ hinv; exact hinv
  | cons a acts ih =>
      intro s hacts hinv
      exact ih _ hacts.2 (hstep s a hacts.1 hinv)

/-- Some run from a new clock has led to this server. -/
def Reachable (s : Server) : Prop := ∃ src fs acts, s = (fresh src fs).run acts

/-! ### One act -/

theorem untilNextStart_clock (c : Clock) (w : Width) (extra : Option Span) :
    (c.untilNextStart w extra).value.2 = c.remember w (c.present w) := by
  simp only [Clock.untilNextStart, Clock.nextStart, Logged.value_bind, Logged.value_pure,
    Clock.currentEdges_value]

/-- A wait leaves no more on the clock than asking how long it is going to be. -/
theorem waitNextStart_clock (c : Clock) (w : Width) (extra : Option Span) :
    (c.waitNextStart w extra).value.2 = (c.untilNextStart w extra).value.2 := by
  simp only [Clock.waitNextStart, Clock.untilNextStart, Logged.value_bind, Logged.value_pure]

/-- An act that asks about a width leaves the edges that it used, and nothing else changes. -/
theorem after_of_asks {s : Server} {a : Act} {w : Width} (h : a.asks = some w) :
    s.after a = { s with clock := s.clock.remember w (s.clock.present w) } := by
  cases a with
  | ask v q =>
      cases h
      simp only [after, Clock.ask_value]
  | untilNext v extra =>
      cases h
      simp only [after, untilNextStart_clock]
  | wait v extra =>
      cases h
      simp only [after, waitNextStart_clock, untilNextStart_clock]
  | _ => cases h

/-- Acts that ask nothing only tune the clock. -/
theorem tuned_after {s : Server} {a : Act} (h : a.asks = none) :
    s.clock.Tuned (s.after a).clock := by
  cases a with
  | source src => exact .source src .same
  | files fs => exact .same
  | setAnchor t => exact .anchor t .same
  | setOffset d => exact .offset d .same
  | apply c => exact tuned_apply c s.files s.clock
  | dispatch hd words =>
      rcases hd.dispatch_cases s words with ⟨_, -, hv⟩ | ⟨c, -, hv⟩
      · simp only [after, hv]
        exact .same
      · simp only [after, hv]
        exact (hd.execute_outcome s c).tuned
  | execute hd c => exact (hd.execute_outcome s c).tuned
  | ask w q => cases h
  | untilNext w extra => cases h
  | wait w extra => cases h

/-- An act that asks nothing leaves all remembered edges alone. -/
theorem cache_after {s : Server} {a : Act} (h : a.asks = none) :
    (s.after a).clock.cache = s.clock.cache := (tuned_after h).cache

/-- An act leaves the remembered edges of a width alone unless it asks about that very width. -/
theorem get_cache_after {s : Server} {a : Act} {w : Width} (h : a.asks ≠ some w) :
    (s.after a).clock.cache.get w = s.clock.cache.get w := by
  cases ha : a.asks with
  | none => rw [cache_after ha]
  | some v =>
      rw [after_of_asks ha]
      exact EdgeCache.get_set_of_ne _ _ fun hwv => h (ha.trans (congrArg some hwv.symm))

/-- After an act that asks about a width, its remembered edges are those that were used. -/
theorem get_cache_after_of_asks {s : Server} {a : Act} {w : Width} (h : a.asks = some w) :
    (s.after a).clock.cache.get w = s.clock.present w := by
  rw [after_of_asks h]
  exact EdgeCache.get_set_self _ _ _

/-- The anchor stays in the calendar, whatever is done. -/
theorem inCalendar_anchor_after {s : Server} (a : Act)
    (h : Instant.InCalendar s.clock.anchorSecs) :
    Instant.InCalendar (s.after a).clock.anchorSecs := by
  cases ha : a.asks with
  | none => exact (tuned_after ha).inCalendar_anchor h
  | some w =>
      rw [after_of_asks ha]
      exact h

theorem inCalendar_anchor_run {s : Server} (acts : List Act)
    (h : Instant.InCalendar s.clock.anchorSecs) :
    Instant.InCalendar (s.run acts).clock.anchorSecs := by
  induction acts generalizing s with
  | nil => exact h
  | cons a acts ih => exact ih (inCalendar_anchor_after a h)

theorem inCalendar_anchor_fresh (src : Source) (fs : Files) :
    Instant.InCalendar (fresh src fs).clock.anchorSecs := by
  show Instant.InCalendar 0
  decide

theorem Reachable.inCalendar_anchor {s : Server} (hs : s.Reachable) :
    Instant.InCalendar s.clock.anchorSecs := by
  obtain ⟨src, fs, acts, rfl⟩ := hs
  exact inCalendar_anchor_run acts (inCalendar_anchor_fresh src fs)

end Server

end Rollover
