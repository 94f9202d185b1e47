/-
What a command that fails leaves behind.

A handler moves the clock first and asks the store to keep the offset afterwards, so
an error does not always mean that nothing has happened.  It does for all errors but
one: a command that is refused leaves the clock and the files alone.  Only when the
store fails the clock has moved to the offset that was asked for, and stays there,
though the answer is an error.

The files mostly come off better.  The file of the store is read as before, and the most
that is left are directories, so the next start, which believes the files and not the
clock, begins where it would have begun without the command.  It does not when the host
breaks off the writing.  Then the old offset is gone from the file too, and the new one
is there in part.
-/
import Rollover.Proofs.Commands
import Rollover.Proofs.FailedStore

namespace Rollover

namespace Handler

/-- The server that a command leaves behind when its answer is an error. -/
inductive Aftermath (h : Handler) (s : Server) (c : Command) : Command.Error → Server → Prop
  /-- The store is not to blame, and nothing has happened. -/
  | refused (e : Command.Error) (he : ∀ f, e ≠ .notKept f) : Aftermath h s c e s
  /-- The store failed, and the clock has the offset that the command asks for.  The source, the
  anchor and the remembered edges are the same. -/
  | unkept (f : OffsetFile.Error) (path : String) (d : Span) (fs : Files)
      (hstore : h.store = some path) (hd : h.Wants s c d)
      (hfiles : OffsetFile.Failed path (Digits.text d.wholeSeconds) f s.files fs) :
      Aftermath h s c (.notKept f)
        ⟨{ s.clock with
            offsetSecs := d.wholeSeconds
            shiftedAnchorSecs := Word.add s.clock.anchorSecs d.wholeSeconds }, fs⟩

/-- Only a handler with a store can fail to keep an offset. -/
theorem failed_of_keep {h : Handler} {fs : Files} {d : Span} {f : OffsetFile.Error}
    (hk : (h.keep fs d).value.1 = .error f) :
    ∃ path, h.store = some path ∧
      OffsetFile.Failed path (Digits.text d.wholeSeconds) f fs (h.keep fs d).value.2 := by
  unfold keep at hk ⊢
  cases hstore : h.store with
  | none =>
      rw [hstore] at hk
      cases hk
  | some path =>
      rw [hstore] at hk
      exact ⟨path, rfl, OffsetFile.failed_of_save hk⟩

theorem aftermath_of_moveTo {h : Handler} {s : Server} {c : Command} {d : Span}
    {e : Command.Error} (hd : h.Wants s c d) (hk : (h.moveTo s d).value.1 = .error e) :
    h.Aftermath s c e (h.moveTo s d).value.2 := by
  obtain ⟨f, hr, rfl⟩ := keep_of_moveTo hk
  obtain ⟨path, hstore, hfiles⟩ := failed_of_keep hr
  -- The clock has cut the offset to whole seconds, and those are the same.
  have hsame : (s.clock.setOffset d).value.offset.wholeSeconds = d.wholeSeconds :=
    Span.wholeSeconds_ofSeconds d.le_wholeSeconds d.wholeSeconds_le
  rw [hsame] at hfiles
  exact .unkept f path d _ hstore hd hfiles

theorem Outcome.aftermath {h : Handler} {s s' : Server} {c : Command} {r : Reply}
    {e : Command.Error} (ho : h.Outcome s c r s') (hr : r = .error e) : h.Aftermath s c e s' := by
  cases ho with
  | refused e' he =>
      cases hr
      exact .refused e he
  | told lines hc => cases hr
  | moved d lines hd hk => cases hr
  | unkept d e' hd hk =>
      cases hr
      exact aftermath_of_moveTo hd hk

/--
**A command that fails has either done nothing or moved the clock without keeping
it.**  For every handler and server, an error that does not come from the store
leaves the server exactly as it was, and with it the logical now and whatever can be
loaded.  After an error from the store only the offset, and the sum beside it, are
those that the command asks for.  What can be loaded is what it was, by a path that
does not go back up, unless the host has broken off the writing of the new offset.
-/
theorem failed_command_aftermath (h : Handler) (s : Server) :
    (∀ c e, (h.execute s c).value.1 = .error e →
        h.Aftermath s c e (h.execute s c).value.2) ∧
      ∀ words e, (h.dispatch s words).value.1 = .error e →
        (Command.ofWords words = .error e ∧ (h.dispatch s words).value.2 = s) ∨
          ∃ c, Command.ofWords words = .ok c ∧ h.Aftermath s c e (h.dispatch s words).value.2 := by
  have hexecute : ∀ c e, (h.execute s c).value.1 = .error e →
      h.Aftermath s c e (h.execute s c).value.2 := fun c _ he =>
    (h.execute_outcome s c).aftermath he
  refine ⟨hexecute, ?_⟩
  intro words e he
  rcases h.dispatch_cases s words with ⟨e', hwords, hv⟩ | ⟨c, hwords, hv⟩
  · rw [hv] at he ⊢
    cases he
    exact Or.inl ⟨hwords, rfl⟩
  · rw [hv] at he ⊢
    exact Or.inr ⟨c, hwords, hexecute c e he⟩

/-- A handler that is enabled answers with the error of the store, after the move. -/
theorem execute_of_unkept {h : Handler} {s : Server} {c : Command} {d : Span} {e : Command.Error}
    (hen : h.enabled = true) (hd : h.Wants s c d) (hk : (h.moveTo s d).value.1 = .error e) :
    (h.execute s c).value = (.error e, (h.moveTo s d).value.2) := by
  obtain ⟨hreply, hs⟩ := execute_moves hen hd
  rw [hk] at hreply
  cases hr : (h.execute s c).value.1 with
  | ok lines =>
      rw [hr] at hreply
      cases hreply
  | error e' =>
      rw [hr] at hreply
      cases hreply
      exact Prod.ext hr hs

/-- Whatever can be loaded is what it was after any error, if the host breaks off nothing and the
path of the store does not go back up. -/
theorem Aftermath.load_eq {h : Handler} {s s' : Server} {c : Command} {e : Command.Error}
    (ha : h.Aftermath s c e s') {path : String} (hstore : h.store = some path)
    (hwhole : ∀ place written kind reason,
      s.files.fault? place ≠ some (.broken written kind reason))
    (hway : (OffsetFile.load s.files path).value = .ok none →
      s.files.Rooted ∧ ['.', '.'] ∉ Files.names path) :
    (OffsetFile.load s'.files path).value = (OffsetFile.load s.files path).value := by
  cases ha with
  | refused _ _ => rfl
  | unkept f path' d fs hstore' hd hfiles =>
      rw [hstore] at hstore'
      cases hstore'
      exact hfiles.left.load_eq hwhole hway

/-! ### A store whose path is a directory -/

/-- A directory has the name that the offset file should have. -/
def obstructed : Server :=
  ⟨.over (.fixed (.ofSeconds 1000)), { entries := [(["offset".toList], .directory)] }⟩

def obstructedKeeper : Handler := { zone := .utc, store := some "offset" }

/-- One o'clock on the first day of 1970. -/
def oneOClock : Command := .setServerTime ⟨3600, 0, by decide, by decide, by decide⟩

theorem wants_oneOClock : obstructedKeeper.Wants obstructed oneOClock (.ofSeconds 2600) :=
  ⟨_, rfl, by decide, by decide⟩

/-- A move is not kept in a file that cannot be written. -/
theorem moveTo_of_not_written {s : Server} {e : Files.Error}
    (h : ∀ text, (s.files.writeText "offset" text).2 = .error e) (d : Span) :
    (obstructedKeeper.moveTo s d).value.1 = .error (.notKept (.unreachable e)) := by
  have hdirs : s.files.makeDirectories (Files.above (Files.names "offset")) =
      (s.files, .ok ()) := by
    rw [show Files.above (Files.names "offset") = [] by decide, Files.makeDirectories_nil]
  have hsave := OffsetFile.save_of_not_written (d := (s.clock.setOffset d).value.offset) hdirs
    (Prod.ext rfl (h _))
  rw [moveTo_reply]
  simp only [keep, obstructedKeeper, hsave]
  rfl

/-- The command fails, and the clock has moved from 1000 seconds to one o'clock. -/
theorem failed_command_moves_clock :
    let s := obstructed
    let after := (obstructedKeeper.execute s oneOClock).value
    after.1 = .error (.notKept (.unreachable .isDirectory)) ∧
      s.clock.offset = .zero ∧ after.2.clock.offset = .ofSeconds 2600 ∧
      s.clock.logicalNow = .ofSeconds 1000 ∧ after.2.clock.logicalNow = .ofSeconds 3600 := by
  intro s after
  have hafter : after = (.error (.notKept (.unreachable .isDirectory)),
      (obstructedKeeper.moveTo obstructed (.ofSeconds 2600)).value.2) :=
    execute_of_unkept rfl wants_oneOClock (moveTo_of_not_written (fun _ => rfl) _)
  rw [hafter]
  refine ⟨rfl, by decide, ?_, by decide, ?_⟩
  · rw [moveTo_clock]
    decide
  · rw [moveTo_clock]
    decide

/-! ### A store whose file is closed to writers -/

/-- The offset file says that it is an hour, and nobody may write it. -/
def readOnly : Server :=
  ⟨.over (.fixed (.ofSeconds 1000)),
    { entries := [(["offset".toList], .file "3600".toUTF8)]
      faults := [(["offset".toList],
        .closed "PermissionDenied" "Permission denied (os error 13)")] }⟩

/-- The command fails and the clock has moved, but the hour is still in the file. -/
theorem failed_command_aftermath_readOnly :
    let denied := Files.Error.host "PermissionDenied" "Permission denied (os error 13)"
    let after := (obstructedKeeper.execute readOnly oneOClock).value
    after.1 = .error (.notKept (.unreachable denied)) ∧
      after.2.clock.offset = .ofSeconds 2600 ∧
      (OffsetFile.load readOnly.files "offset").value = .ok (some (.ofSeconds 3600)) ∧
      (OffsetFile.load after.2.files "offset").value = .ok (some (.ofSeconds 3600)) := by
  intro denied after
  have hafter : after = (.error (.notKept (.unreachable denied)),
      (obstructedKeeper.moveTo readOnly (.ofSeconds 2600)).value.2) :=
    execute_of_unkept rfl ⟨_, rfl, by decide, by decide⟩ (moveTo_of_not_written (fun _ => rfl) _)
  have hload : (OffsetFile.load readOnly.files "offset").value =
      .ok (some (.ofSeconds 3600)) := by
    decide +kernel
  have haftermath := (failed_command_aftermath obstructedKeeper readOnly).1 oneOClock _
    (congrArg Prod.fst hafter)
  refine ⟨congrArg Prod.fst hafter, ?_, hload, ?_⟩
  · rw [hafter, moveTo_clock]
    decide
  · rw [← hload]
    refine haftermath.load_eq rfl ?_ ?_
    · intro place written kind reason hfault
      simp only [Files.fault?, readOnly, List.find?_cons] at hfault
      split at hfault <;> cases hfault
    · intro hnone
      rw [hload] at hnone
      cases hnone

end Handler

end Rollover
