/-
What carrying out a command may come to.

`execute` looks as if it had many ways to end, but the server sees only two: it is
left as it was, or it is moved to an offset that the command asks for.  The commands
are taken apart in one place, with one equation for each way to end; those for a move
leave the move itself closed.  `Outcome` says the same of all commands at once,
together with the reply that goes with each way, and everything proved about runs of
commands starts from it.

A move sets the offset of the clock, which renews the sum beside it and touches
nothing else, and hands what the clock then says to the store.
-/
import Rollover.Handler

namespace Rollover

/-! ### The two settings of a clock -/

namespace Clock

theorem setAnchor_value (c : Clock) (t : Instant) :
    (c.setAnchor t).value =
      { c with anchorSecs := t.secs, shiftedAnchorSecs := Word.add t.secs c.offsetSecs } := by
  simp only [setAnchor, publish, Logged.value_bind, Logged.value_pure, Instant.secs_floor]

theorem setOffset_value (c : Clock) (d : Span) :
    (c.setOffset d).value =
      { c with offsetSecs := d.wholeSeconds,
               shiftedAnchorSecs := Word.add c.anchorSecs d.wholeSeconds } := rfl

end Clock

/-! ### Commands that move the server in time -/

/-- The command gives the server another offset when it is carried out. -/
def Command.Shifts : Command → Prop
  | setServerTime _ => True
  | resetServerTime => True
  | _ => False

namespace Handler

/-! ### One equation for each way to end -/

section Equations

variable {h : Handler} {s : Server} {t u : CivilTime}

theorem execute_of_disabled (hen : ¬ h.enabled = true) (c : Command) :
    (h.execute s c).value = (.error .disabled, s) := by
  unfold execute
  rw [if_pos hen]
  rfl

theorem execute_of_enabled (hen : h.enabled = true) (c : Command) :
    h.execute s c = match c with
      | .help => pure (.ok Command.helpLines, s)
      | .setServerTime t => h.setServerTime s t
      | .showServerTime => pure (.ok (h.showServerTime s), s)
      | .resetServerTime => h.resetServerTime s := by
  unfold execute
  cases c <;> exact if_neg (not_not_intro hen)

theorem setServerTime_out_of_calendar (h : Handler) (s : Server)
    (ht : t.toUtc? h.zone = none) :
    (h.setServerTime s t).value = (.error (.badTime t.text), s) := by
  unfold setServerTime
  rw [ht]
  rfl

theorem setServerTime_of_before (ht : t.toUtc? h.zone = some u)
    (hpast : u.before (.ofInstant s.clock.logicalNow.floor)) :
    (h.setServerTime s t).value =
      (.error (.inPast (s.clock.logicalNow.floor.textIn h.zone) (u.textIn h.zone)), s) := by
  unfold setServerTime
  rw [ht]
  simp only [if_pos hpast, Logged.value_bind, Logged.value_pure]

/-- The answer to a request that was met, by the server that it has led to. -/
def metLines (h : Handler) (u : CivilTime) (s : Server) : List String :=
  ["Server time set to " ++ u.textIn h.zone,
    "Time offset: " ++ OffsetText.text s.clock.offset,
    "Current server time: " ++ s.clock.logicalNow.textIn h.zone]

theorem setServerTime_of_not_before (ht : t.toUtc? h.zone = some u)
    (hpast : ¬ u.before (.ofInstant s.clock.logicalNow.floor)) :
    (h.setServerTime s t).value =
      let moved := (h.moveTo s (u.since (.ofInstant s.clock.systemNow.floor))).value
      (moved.1.map fun _ => h.metLines u moved.2, moved.2) := by
  unfold setServerTime
  rw [ht]
  simp only [if_neg hpast, Logged.value_bind]
  cases hk : (h.moveTo s (u.since (.ofInstant s.clock.systemNow.floor))).value.1 with
  | error e => rfl
  | ok _ => rfl

theorem resetServerTime_value (h : Handler) (s : Server) :
    (h.resetServerTime s).value =
      ((h.moveTo s .zero).value.1.map fun _ => ["Server time reset to system time"],
        (h.moveTo s .zero).value.2) := by
  simp only [resetServerTime, Logged.value_bind]
  cases hk : (h.moveTo s .zero).value.1 with
  | error e => rfl
  | ok _ => rfl

end Equations

/-! ### Outcomes -/

/-- The offset that a command asks for: none for a reset, and for a time that does not lie in the
past what is missing to it from the source's second. -/
def Wants (h : Handler) (s : Server) : Command → Span → Prop
  | .setServerTime t, d => ∃ requested, t.toUtc? h.zone = some requested ∧
      ¬ requested.before (.ofInstant s.clock.logicalNow.floor) ∧
      d = requested.since (.ofInstant s.clock.systemNow.floor)
  | .resetServerTime, d => d = .zero
  | _, _ => False

/-- The reply to a command and the server after it. -/
inductive Outcome (h : Handler) (s : Server) (c : Command) : Reply → Server → Prop
  /-- The command is refused before anything is done. -/
  | refused (e : Command.Error) (he : ∀ f, e ≠ .notKept f) : Outcome h s c (.error e) s
  /-- The command only asks for lines to read. -/
  | told (lines : List String) (hc : ¬ c.Shifts) : Outcome h s c (.ok lines) s
  /-- The clock is moved and the offset is kept. -/
  | moved (d : Span) (lines : List String) (hd : h.Wants s c d)
      (hk : (h.moveTo s d).value.1 = .ok ()) :
      Outcome h s c (.ok lines) (h.moveTo s d).value.2
  /-- The clock is moved, but the store fails. -/
  | unkept (d : Span) (e : Command.Error) (hd : h.Wants s c d)
      (hk : (h.moveTo s d).value.1 = .error e) :
      Outcome h s c (.error e) (h.moveTo s d).value.2

/-- A move is an outcome of every command that wants it, with any lines for the good answer. -/
theorem outcome_of_moveTo {h : Handler} {s : Server} {c : Command} {d : Span} (hd : h.Wants s c d)
    (lines : List String) :
    h.Outcome s c ((h.moveTo s d).value.1.map fun _ => lines) (h.moveTo s d).value.2 := by
  cases hk : (h.moveTo s d).value.1 with
  | error e => exact .unkept d e hd hk
  | ok _ => exact .moved d lines hd hk

theorem setServerTime_outcome (h : Handler) (s : Server) (t : CivilTime) :
    h.Outcome s (.setServerTime t) (h.setServerTime s t).value.1 (h.setServerTime s t).value.2 := by
  cases ht : t.toUtc? h.zone with
  | none =>
      rw [setServerTime_out_of_calendar h s ht]
      exact .refused _ (fun _ hf => Command.Error.noConfusion hf)
  | some u =>
      by_cases hpast : u.before (.ofInstant s.clock.logicalNow.floor)
      · rw [setServerTime_of_before ht hpast]
        exact .refused _ (fun _ hf => Command.Error.noConfusion hf)
      · have hd : h.Wants s (.setServerTime t) (u.since (.ofInstant s.clock.systemNow.floor)) :=
          ⟨u, ht, hpast, rfl⟩
        rw [setServerTime_of_not_before ht hpast]
        exact outcome_of_moveTo hd _

theorem resetServerTime_outcome (h : Handler) (s : Server) :
    h.Outcome s .resetServerTime (h.resetServerTime s).value.1 (h.resetServerTime s).value.2 := by
  have hd : h.Wants s .resetServerTime .zero := rfl
  rw [resetServerTime_value]
  exact outcome_of_moveTo hd _

/-- **Every command ends in one of the four ways.** -/
theorem execute_outcome (h : Handler) (s : Server) (c : Command) :
    h.Outcome s c (h.execute s c).value.1 (h.execute s c).value.2 := by
  by_cases hen : h.enabled = true
  · rw [execute_of_enabled hen]
    cases c with
    | help => exact .told _ id
    | setServerTime t => exact setServerTime_outcome h s t
    | showServerTime => exact .told _ id
    | resetServerTime => exact resetServerTime_outcome h s
  · rw [execute_of_disabled hen]
    exact .refused _ (fun _ hf => Command.Error.noConfusion hf)

/-- A handler that is enabled does move the server to where a command wants it, and the answer is
an error exactly when the move's is. -/
theorem execute_moves {h : Handler} {s : Server} {c : Command} {d : Span}
    (hen : h.enabled = true) (hd : h.Wants s c d) :
    (h.execute s c).value.1.map (fun _ => ()) = (h.moveTo s d).value.1 ∧
      (h.execute s c).value.2 = (h.moveTo s d).value.2 := by
  have hlines : ∀ (r : Except Command.Error Unit) (lines : List String),
      (r.map fun _ => lines).map (fun _ => ()) = r := by
    intro r lines
    cases r <;> rfl
  rw [execute_of_enabled hen]
  cases c with
  | help => exact hd.elim
  | showServerTime => exact hd.elim
  | resetServerTime =>
      cases hd
      change (h.resetServerTime s).value.1.map _ = _ ∧ (h.resetServerTime s).value.2 = _
      rw [resetServerTime_value]
      exact ⟨hlines _ _, rfl⟩
  | setServerTime t =>
      obtain ⟨u, ht, hpast, rfl⟩ := hd
      change (h.setServerTime s t).value.1.map _ = _ ∧ (h.setServerTime s t).value.2 = _
      rw [setServerTime_of_not_before ht hpast]
      exact ⟨hlines _ _, rfl⟩

/-- A command line without a command leaves the server alone; any other is its command. -/
theorem dispatch_cases (h : Handler) (s : Server) (words : List String) :
    (∃ e, Command.ofWords words = .error e ∧ (h.dispatch s words).value = (.error e, s)) ∨
      ∃ c, Command.ofWords words = .ok c ∧ h.dispatch s words = h.execute s c := by
  unfold dispatch
  cases hc : Command.ofWords words with
  | error e => exact Or.inl ⟨e, rfl, rfl⟩
  | ok c => exact Or.inr ⟨c, rfl, rfl⟩

/-! ### What a move does -/

theorem moveTo_clock (h : Handler) (s : Server) (d : Span) :
    (h.moveTo s d).value.2.clock = (s.clock.setOffset d).value := rfl

theorem moveTo_files (h : Handler) (s : Server) (d : Span) :
    (h.moveTo s d).value.2.files =
      (h.keep s.files (s.clock.setOffset d).value.offset).value.2 := rfl

theorem moveTo_reply (h : Handler) (s : Server) (d : Span) :
    (h.moveTo s d).value.1 =
      (h.keep s.files (s.clock.setOffset d).value.offset).value.1.mapError .notKept := rfl

/-- A move fails because its offset cannot be kept, and with the error of the store. -/
theorem keep_of_moveTo {h : Handler} {s : Server} {d : Span} {e : Command.Error}
    (hk : (h.moveTo s d).value.1 = .error e) :
    ∃ f, (h.keep s.files (s.clock.setOffset d).value.offset).value.1 = .error f ∧
      e = .notKept f := by
  rw [moveTo_reply] at hk
  cases hr : (h.keep s.files (s.clock.setOffset d).value.offset).value.1 with
  | ok _ =>
      rw [hr] at hk
      cases hk
  | error f =>
      rw [hr] at hk
      cases hk
      exact ⟨f, rfl, rfl⟩

/-- Whatever the outcome, the clock is the old one, or the old one at another offset. -/
theorem Outcome.clock {h : Handler} {s s' : Server} {c : Command} {r : Reply}
    (ho : h.Outcome s c r s') :
    s'.clock = s.clock ∨ ∃ d, h.Wants s c d ∧ s'.clock = (s.clock.setOffset d).value := by
  cases ho with
  | refused e he => exact Or.inl rfl
  | told lines hc => exact Or.inl rfl
  | moved d lines hd hk => exact Or.inr ⟨d, hd, moveTo_clock h s d⟩
  | unkept d e hd hk => exact Or.inr ⟨d, hd, moveTo_clock h s d⟩

/-- No command touches the source. -/
theorem execute_source (h : Handler) (s : Server) (c : Command) :
    (h.execute s c).value.2.clock.source = s.clock.source := by
  rcases (h.execute_outcome s c).clock with hclock | ⟨d, -, hclock⟩
  · rw [hclock]
  · rw [hclock, Clock.setOffset_value]

end Handler

end Rollover
