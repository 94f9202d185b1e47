/-
Whole numbers that live in a signed 64-bit cell.

Times and offsets come from operators, from files and from other machines, so the
sum of two of them may have no place in the cell it is meant for.  Nothing here
wraps around: `add` and `sub` stop at the nearer end of the cell, and `sub?` says
that there is no difference to speak of.  The numbers themselves are plain
integers, so that the laws of integer division apply to them; `Fits` says which
of them have a cell.
-/

namespace Rollover

namespace Word

def least : Int := -9223372036854775808

def greatest : Int := 9223372036854775807

/-- The number has a 64-bit cell. -/
def Fits (n : Int) : Prop := least ≤ n ∧ n ≤ greatest

instance (n : Int) : Decidable (Fits n) := inferInstanceAs (Decidable (_ ∧ _))

/-- The number of the cell that is nearest to `n`. -/
def clamp (n : Int) : Int := max least (min n greatest)

def add (a b : Int) : Int := clamp (a + b)

def sub (a b : Int) : Int := clamp (a - b)

/-- The exact difference, if it has a cell. -/
def sub? (a b : Int) : Option Int := if Fits (a - b) then some (a - b) else none

/-! ### Clamping -/

theorem fits_clamp (n : Int) : Fits (clamp n) := by
  unfold Fits clamp least greatest; omega

theorem clamp_eq_self {n : Int} (h : Fits n) : clamp n = n := by
  unfold Fits least greatest at h; unfold clamp least greatest; omega

theorem clamp_le_clamp {m n : Int} (h : m ≤ n) : clamp m ≤ clamp n := by
  unfold clamp least greatest; omega

theorem sub?_eq_some_iff {a b d : Int} : sub? a b = some d ↔ Fits (a - b) ∧ a - b = d := by
  unfold sub?; split <;> simp_all

end Word

end Rollover
