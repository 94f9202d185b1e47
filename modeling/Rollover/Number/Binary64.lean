/-
Non-negative numbers of 64-bit binary floating point.

A number is a mantissa of at most 53 bits times a power of two no smaller than
2^-1074, and zero is the one with mantissa 0.  Every operation takes the exact
result as a quotient of two integers and rounds it once, to the nearest number
and to the even mantissa when two are equally near; a result that would round to
2^1024 or more is no number.  Nothing here depends on floating-point hardware.
-/

namespace Rollover

/-- The number `mantissa * 2 ^ exponent`. -/
structure Binary64 where
  mantissa : Nat
  exponent : Int
deriving DecidableEq

namespace Binary64

def zero : Binary64 := ⟨0, -1074⟩

/-- The quotient of `num * 2 ^ up` by `den * 2 ^ down`, to the nearest integer, ties to even. -/
def roundQuotient (num den up down : Nat) : Nat :=
  let n := num <<< up
  let d := den <<< down
  let q := n / d
  let r := 2 * (n % d)
  if r < d ∨ (r = d ∧ q % 2 = 0) then q else q + 1

/-- The exponent at which `num / den` has a mantissa of 53 bits, or the least exponent. -/
def exponentOf (num den : Nat) : Int :=
  let e : Int := (num.log2 : Int) - den.log2 - 52
  let e := if num <<< (-e).toNat < den <<< (52 + e.toNat) then e - 1 else e
  max e (-1074)

/-- The number nearest to `num / den`, unless that is too large. -/
def ofQuotient? (num den : Nat) : Option Binary64 :=
  if num = 0 then some zero
  else
    let e := exponentOf num den
    let m := roundQuotient num den (-e).toNat e.toNat
    let b : Binary64 := if m = Nat.pow 2 53 then ⟨Nat.pow 2 52, e + 1⟩ else ⟨m, e⟩
    if 971 < b.exponent then none else some b

def ofNat? (n : Nat) : Option Binary64 := ofQuotient? n 1

/-- The exact value as a quotient of two integers. -/
def numerator (b : Binary64) : Nat := b.mantissa <<< b.exponent.toNat

def denominator (b : Binary64) : Nat := 1 <<< (-b.exponent).toNat

def mul? (a b : Binary64) : Option Binary64 :=
  ofQuotient? (a.numerator * b.numerator) (a.denominator * b.denominator)

def div? (a b : Binary64) : Option Binary64 :=
  ofQuotient? (a.numerator * b.denominator) (a.denominator * b.numerator)

end Binary64

end Rollover
