/-
The shortest decimal that stands for a binary number.

A decimal stands for the nearest binary number, so every binary number has an
interval of decimals of its own: half way to the neighbour on either side, the
ends included when its mantissa is even.  Going through the powers of ten from
the largest down, the first grid with a point in the interval has the fewest
digits that can do, and of its points the one nearest to the number is taken.
Only the two grid points on either side of the number need to be looked at.
-/
import Rollover.Number.Binary64
import Rollover.Text.Digits

namespace Rollover

namespace Binary64

/-- The quotient `num / den` over `10 ^ k`, again as a quotient. -/
def overPowerOfTen (num den : Nat) (k : Int) : Nat × Nat :=
  (num * Nat.pow 10 (-k).toNat, den * Nat.pow 10 k.toNat)

/-- Whether `d * 10 ^ k` lies in the interval of decimals that stand for `b`. -/
def standsFor (b : Binary64) (d : Nat) (k : Int) : Bool :=
  let below := if b.mantissa = Nat.pow 2 52 ∧ -1074 < b.exponent then 1 else 2
  let quarter := b.denominator * 4
  let (lo, loDen) := overPowerOfTen ((4 * b.mantissa - below) <<< b.exponent.toNat) quarter k
  let (hi, hiDen) := overPowerOfTen ((4 * b.mantissa + 2) <<< b.exponent.toNat) quarter k
  if b.mantissa % 2 = 0 then lo ≤ d * loDen && d * hiDen ≤ hi
  else lo < d * loDen && d * hiDen < hi

/-- The point of the grid of `10 ^ k` that stands for `b` and is nearest to it. -/
def gridPoint? (b : Binary64) (k : Int) : Option Nat :=
  let (num, den) := overPowerOfTen b.numerator b.denominator k
  let d := num / den
  match standsFor b d k, standsFor b (d + 1) k with
  | false, false => none
  | true, false => some d
  | false, true => some (d + 1)
  | true, true =>
    let r := 2 * (num % den)
    if r < den ∨ (r = den ∧ d % 2 = 0) then some d else some (d + 1)

/-- The shortest decimal for `b`, as digits and the power of ten of the last one. -/
def shortest (b : Binary64) : Nat × Int :=
  if b.mantissa = 0 then (0, 0)
  else
    let powers := (List.range 700).map fun i : Nat => (310 : Int) - i
    (powers.findSome? fun k => (b.gridPoint? k).map fun d => (d, k)).getD (0, 0)

/-! ### Writing -/

/-- How numbers are laid out: with a point from `10 ^ -5` up to below `10 ^ 16`, and otherwise
with one digit before the point and a signed exponent. -/
def text (b : Binary64) : List Char :=
  let (d, k) := b.shortest
  let ds := Digits.ofNat d
  let point : Int := ds.length + k
  if d = 0 then ['0', '.', '0']
  else if 0 ≤ k ∧ point ≤ 16 then ds ++ List.replicate k.toNat '0' ++ ['.', '0']
  else if 0 < point ∧ point ≤ 16 then ds.take point.toNat ++ '.' :: ds.drop point.toNat
  else if -5 < point ∧ point ≤ 0 then
    '0' :: '.' :: (List.replicate (-point).toNat '0' ++ ds)
  else
    let fraction := if ds.length = 1 then [] else '.' :: ds.drop 1
    let sign := if point - 1 < 0 then '-' else '+'
    ds.take 1 ++ fraction ++ 'e' :: sign :: Digits.ofNat (point - 1).natAbs

end Binary64

end Rollover
