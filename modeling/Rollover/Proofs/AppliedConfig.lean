/-
What applying settings does to a server, and what it leaves alone.

Settings are applied when a server starts, and nothing about them may keep it from
starting.  The anchor is set first, to the nearest second of the calendar.  After that much
can go wrong with the offset: there may be no offset file, or no file where it should be, or
one that cannot be reached, is no text, is no number, or is a number of seconds that no span
has.  All of these come to the same, that nothing is restored and the offset stays as it
was.

An offset that is restored gets into the clock unharmed.  It was read as a number of whole
seconds that a span has, so the clock has nothing to cut off, and tells that very span.  The
sum of anchor and offset is renewed in each case, and nothing else is written.  So settings
that are applied again find their own traces and leave the same.
-/
import Rollover.Proofs.Cells
import Rollover.Proofs.OffsetGrammar

namespace Rollover

/-- What is loaded is a whole number of seconds, and as a span it is that number again. -/
theorem OffsetFile.Holds.ofSeconds_wholeSeconds {content : ByteArray} {d : Span}
    (h : Holds content d) : Span.ofSeconds d.wholeSeconds = d := by
  obtain ⟨-, -, n, -, -, -, ⟨hlo, hhi⟩, hd⟩ := h
  have hspan : d = .ofSeconds n := Span.ext_nanos (hd.trans (Span.nanos_ofSeconds hlo hhi).symm)
  rw [hspan, Span.wholeSeconds_ofSeconds hlo hhi]

/-! ### What is restored -/

namespace Config

variable {c : Config} {fs : Files} {d : Span}

theorem restored_eq_some_iff : c.restored fs = some d ↔
    ∃ path, c.offsetFile = some path ∧ (OffsetFile.load fs path).value = .ok (some d) := by
  unfold restored
  rw [Option.bind_eq_some_iff]
  refine exists_congr fun path => and_congr_right fun _ => ?_
  cases (OffsetFile.load fs path).value with
  | error e => exact iff_of_false (fun h => nomatch h) fun h => nomatch h
  | ok restored => rw [Except.ok.injEq]

/-- An offset is restored exactly if there is an offset file that can be read and holds it. -/
theorem restored_iff_holds : c.restored fs = some d ↔
    ∃ path content, c.offsetFile = some path ∧ fs.readBytes path = .ok content ∧
      OffsetFile.Holds content d := by
  rw [restored_eq_some_iff]
  refine exists_congr fun path => ?_
  constructor
  · rintro ⟨hpath, hload⟩
    obtain ⟨content, hread⟩ := OffsetFile.readBytes_of_load hload
    exact ⟨content, hpath, hread, (OffsetFile.load_eq_some_iff hread).mp hload⟩
  · rintro ⟨content, hpath, hread, hheld⟩
    exact ⟨hpath, (OffsetFile.load_eq_some_iff hread).mpr hheld⟩

end Config

/-! ### What is set -/

namespace Clock

/-- The three cells that settings write. -/
theorem settle_eq (c : Clock) (anchor : Instant) (offset : Option Span) :
    c.settle anchor offset =
      { c with
        anchorSecs := anchor.secs
        offsetSecs := (offset.map Span.wholeSeconds).getD c.offsetSecs
        shiftedAnchorSecs :=
          Word.add anchor.secs ((offset.map Span.wholeSeconds).getD c.offsetSecs) } := by
  cases offset with
  | none => exact setAnchor_value c anchor
  | some d =>
      simp only [settle, setAnchor_value, setOffset_value]
      rfl

/-- What has been settled is settled. -/
theorem settle_settle (c : Clock) (anchor : Instant) (offset : Option Span) :
    (c.settle anchor offset).settle anchor offset = c.settle anchor offset := by
  rw [settle_eq c, settle_eq]
  cases offset <;> rfl

end Clock

namespace Server

theorem Reachable.settled {s : Server} (hs : s.Reachable) : s.clock.Settled := by
  obtain ⟨src, fs, acts, rfl⟩ := hs
  exact (Clock.settled_over src).run acts

theorem after_apply (s : Server) (c : Config) :
    s.after (.apply c) =
      { s with clock := s.clock.settle c.anchor (c.restored s.files) } := by
  simp only [after, c.apply_value]

theorem after_apply_apply (s : Server) (c : Config) :
    (s.after (.apply c)).after (.apply c) = s.after (.apply c) := by
  rw [after_apply s, after_apply]
  simp only [Clock.settle_settle]

/-- What settings have done to a server when `r` is the offset that they have restored. -/
structure Applied (c : Config) (r : Option Span) (s s' : Server) : Prop where
  /-- The anchor is the second of the settings, or the end of the calendar nearest to it. -/
  anchor : s'.clock.anchorSecs = max Instant.first (min c.anchorSecs Instant.last)
  /-- An offset is restored exactly if one is loaded from the offset file. -/
  restored : ∀ d, r = some d ↔
    ∃ path, c.offsetFile = some path ∧ (OffsetFile.load s.files path).value = .ok (some d)
  /-- The clock then has this very offset, and otherwise the one it had. -/
  offset : ∀ d, r = some d → s'.clock.offset = d ∧ s'.clock.offsetSecs = d.wholeSeconds
  unmoved : r = none → s'.clock.offset = s.clock.offset ∧ s'.clock.offsetSecs = s.clock.offsetSecs
  /-- The sum is that of the new anchor and the new offset, and it has a cell. -/
  sum : s'.clock.shiftedAnchor = .ofSeconds (s'.clock.anchorSecs + s'.clock.offsetSecs)
  sum_exact : s.Reachable →
    s'.clock.shiftedAnchorSecs = s'.clock.anchorSecs + s'.clock.offsetSecs
  cache : s'.clock.cache = s.clock.cache
  source : s'.clock.source = s.clock.source
  files : s'.files = s.files

theorem applied_after (s : Server) (c : Config) :
    Applied c (c.restored s.files) s (s.after (.apply c)) := by
  rw [after_apply, Clock.settle_eq]
  refine ⟨rfl, fun d => Config.restored_eq_some_iff, ?_, ?_, ?_, ?_, rfl, rfl, rfl⟩
  · intro d hd
    obtain ⟨-, content, -, -, hheld⟩ := Config.restored_iff_holds.mp hd
    rw [hd]
    exact ⟨hheld.ofSeconds_wholeSeconds, rfl⟩
  · intro hnone
    rw [hnone]
    exact ⟨rfl, rfl⟩
  · exact Instant.ofSeconds_add _ _
  · -- A reachable clock keeps to what a cell can hold, and setting does not leave that.
    intro hs
    have hsettled := hs.settled.tuned (s.clock.tuned_settle c.anchor (c.restored s.files))
    rw [Clock.settle_eq] at hsettled
    exact hsettled.sum

/--
**Settings can always be applied, and touch three cells of the clock.**  Whatever the
settings, the clock and the files are, the anchor is set; the offset is the one that can be
loaded, if there is one, and otherwise stays; their sum is renewed; and the remembered edges,
the source and the files are left alone.  The answer is the offset that was restored, which is
the one that the bytes of the file hold.  The same settings applied again give the same answer
and change nothing.
-/
theorem apply_touches_little (s : Server) (c : Config) :
    let r := (c.apply s.files s.clock).value.1
    let s' := s.after (.apply c)
    Applied c r s s' ∧
      (∀ d, r = some d ↔ ∃ path content, c.offsetFile = some path ∧
        s.files.readBytes path = .ok content ∧ OffsetFile.Holds content d) ∧
      (c.apply s'.files s'.clock).value.1 = r ∧ s'.after (.apply c) = s' := by
  intro r s'
  have hr : r = c.restored s.files := congrArg Prod.fst (c.apply_value s.files s.clock)
  have hfiles : s'.files = s.files := rfl
  refine ⟨?_, ?_, ?_, ?_⟩
  · rw [hr]
    exact applied_after s c
  · intro d
    rw [hr]
    exact Config.restored_iff_holds
  · rw [c.apply_value, hfiles, hr]
  · exact after_apply_apply s c

end Server

end Rollover
