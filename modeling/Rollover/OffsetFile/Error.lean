/-
Why a file gives no time offset.
-/
import Rollover.Files
import Rollover.Text.Quoted

namespace Rollover

inductive OffsetFile.Error
  | unreachable (e : Files.Error)
  | badOffset (path value : String)
deriving DecidableEq

def OffsetFile.Error.message : OffsetFile.Error → String
  | unreachable e => "Failed to access offset file: " ++ e.message
  | badOffset path value => "Invalid offset in " ++ path ++ ": " ++ Text.quoted value

end Rollover
