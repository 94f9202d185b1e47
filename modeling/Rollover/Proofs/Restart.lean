/-
A server that is restarted is where it was.

A restart throws the clock away and applies the settings to a new one, so all that
is left of the offset is what the files say.  Two things hold along every run in
which nobody but the handler tunes the clock or writes the offset file, and in which
the store never fails.  The anchor is that of the settings and the offset is the one
that a new clock would be given from the files, which may be none at all: a file
that is missing or makes no sense counts as no offset, at the first start as at any
later one.  And from the first command that moves the server on, the file holds the
very offset of the clock.

Commands that are refused, or only tell something, leave both the clock and the
files alone, so the two can only come apart in a move; and a move that is kept
brings them together again, because the cut to whole seconds is made by the clock
and repeated by the store without a loss.
-/
import Rollover.Proofs.KeptOffset
import Rollover.Proofs.Run

namespace Rollover

/-! ### Starting from settings -/

/-- The seconds that a new clock is moved by for the sake of an offset file. -/
def OffsetFile.seconds (fs : Files) (path : String) : Int :=
  match (load fs path).value with
  | .ok (some d) => d.wholeSeconds
  | _ => 0

namespace Server

/-- A server with a new clock, once settings have been applied. -/
def boot (c : Config) (src : Source) (fs : Files) : Server := (fresh src fs).after (.apply c)

/-! ### One act -/

/-- An act that leaves tuning the clock and writing the file to commands given to one handler,
whose store does not fail. -/
def Undisturbed (h : Handler) (path : String) (s : Server) : Act → Prop
  | .dispatch h' words => h' = h ∧ ∀ e, (h.dispatch s words).value.1 ≠ .error (.notKept e)
  | .execute h' c => h' = h ∧ ∀ e, (h.execute s c).value.1 ≠ .error (.notKept e)
  | .files fs => fs.readText path = s.files.readText path
  | .setAnchor _ => False
  | .setOffset _ => False
  | .apply _ => False
  | .source _ => True
  | .ask _ _ => True
  | .untilNext _ _ => True
  | .wait _ _ => True

/-- The act is a command that moves a server in time, and the answer is no error. -/
def Moves (s : Server) : Act → Prop
  | .dispatch h words => ∃ c lines, Command.ofWords words = .ok c ∧ c.Shifts ∧
      (h.dispatch s words).value.1 = .ok lines
  | .execute h c => ∃ lines, c.Shifts ∧ (h.execute s c).value.1 = .ok lines
  | _ => False

/-- The second server is the first one after a move of the handler that was kept. -/
def Kept (h : Handler) (s s' : Server) : Prop :=
  ∃ d, (h.moveTo s d).value.1 = .ok () ∧ s' = (h.moveTo s d).value.2

theorem kept_of_outcome {h : Handler} {s s' : Server} {c : Command} {r : Handler.Reply}
    {lines : List String} (ho : h.Outcome s c r s') (hc : c.Shifts) (hr : r = .ok lines) :
    Kept h s s' := by
  cases ho with
  | refused e he => cases hr
  | told _ hn => exact absurd hc hn
  | moved d _ hd hk => exact ⟨d, hk, rfl⟩
  | unkept d e hd hk => cases hr

/-- A command to move the server that is answered well was kept. -/
theorem Moves.kept {h : Handler} {path : String} {s : Server} {a : Act} (hm : s.Moves a)
    (ha : Undisturbed h path s a) : Kept h s (s.after a) := by
  cases a with
  | dispatch h' words =>
      obtain ⟨rfl, -⟩ := ha
      obtain ⟨c, lines, hc, hshifts, hr⟩ := hm
      have hv : h'.dispatch s words = h'.execute s c := by
        unfold Handler.dispatch
        rw [hc]
      rw [hv] at hr
      simp only [after, hv]
      exact kept_of_outcome (h'.execute_outcome s c) hshifts hr
  | execute h' c =>
      obtain ⟨rfl, -⟩ := ha
      obtain ⟨lines, hshifts, hr⟩ := hm
      exact kept_of_outcome (h'.execute_outcome s c) hshifts hr
  | _ => exact hm.elim

/-! ### What every act keeps -/

/-- Settings with an offset file, which is not there when the server starts. -/
def keeping : Config := { anchorSecs := 100, offsetFile := some "offset.txt" }

def unmoved : Server := boot keeping (.fixed (.ofSeconds 1000)) .empty

end Server

end Rollover
