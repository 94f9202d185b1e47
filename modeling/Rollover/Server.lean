/-
A server: its clock and its files, and how it starts.
-/
import Rollover.Clock
import Rollover.Config
import Rollover.OffsetFile

namespace Rollover

structure Server where
  clock : Clock
  files : Files
deriving DecidableEq

/-- Applies the settings to a clock.  The anchor is always set; the offset is set, and returned,
if there is an offset file that holds one.  A file that does not is passed over. -/
def Config.apply (c : Config) (fs : Files) (clock : Clock) : Logged (Option Span × Clock) := do
  let clock ← clock.setAnchor c.anchor
  match c.offsetFile with
  | none => return (none, clock)
  | some path =>
    match ← OffsetFile.load fs path with
    | .ok (some offset) => do
      let clock ← clock.setOffset offset
      Logged.log (.offsetRestored offset.wholeSeconds path)
      return (some offset, clock)
    | .ok none => return (none, clock)
    | .error e => do
      Logged.log (.offsetFileIgnored path e)
      return (none, clock)

end Rollover
