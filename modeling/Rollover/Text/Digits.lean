/-
Decimal numbers as text.

`ofNat` writes a number with the fewest digits, `padded` with at least so many,
and `ofInt` puts a minus sign before a negative one.  `value` reads any run of
digits back, whatever zeros stand in front.
-/

namespace Rollover

namespace Digits

def isDigit (c : Char) : Bool := '0' ≤ c && c ≤ '9'

def ofDigit (d : Nat) : Char := Char.ofNat (48 + d)

def digitValue (c : Char) : Nat := c.toNat - 48

/-- The digits of a number, the most significant first. -/
def ofNat (n : Nat) : List Char :=
  if n < 10 then [ofDigit n] else ofNat (n / 10) ++ [ofDigit (n % 10)]
termination_by n

/-- The digits of a number, with zeros in front up to a given count. -/
def padded (width n : Nat) : List Char :=
  let ds := ofNat n
  List.replicate (width - ds.length) '0' ++ ds

def ofInt (n : Int) : List Char :=
  if n < 0 then '-' :: ofNat n.natAbs else ofNat n.natAbs

/-- The number that a run of digits stands for. -/
def value (ds : List Char) : Nat := ds.foldl (fun n d => 10 * n + digitValue d) 0

/-- The digits in front of a text, at most `most` of them, and the rest of the text. -/
def take (most : Nat) : List Char → List Char × List Char
  | [] => ([], [])
  | c :: s =>
    match most with
    | 0 => ([], c :: s)
    | most + 1 =>
      if isDigit c then
        let (ds, rest) := take most s
        (c :: ds, rest)
      else ([], c :: s)

/-- A number of either sign: an optional sign, then digits alone and at least one. -/
def int? (s : List Char) : Option Int :=
  let unsigned (ds : List Char) : Option Nat :=
    if ds ≠ [] ∧ ds.all isDigit then some (value ds) else none
  match s with
  | '-' :: ds => (unsigned ds).map (fun n => -(n : Int))
  | '+' :: ds => (unsigned ds).map Int.ofNat
  | ds => (unsigned ds).map Int.ofNat

/-- The number as a string. -/
def text (n : Int) : String := String.ofList (ofInt n)

/-! ### Reading digits back -/

theorem isDigit_ofDigit {d : Nat} (h : d < 10) : isDigit (ofDigit d) = true := by
  have : ∀ d : Fin 10, isDigit (ofDigit d) = true := by decide
  exact this ⟨d, h⟩

theorem digitValue_ofDigit {d : Nat} (h : d < 10) : digitValue (ofDigit d) = d := by
  have : ∀ d : Fin 10, digitValue (ofDigit d) = d := by decide
  exact this ⟨d, h⟩

theorem value_append (s : List Char) (d : Char) :
    value (s ++ [d]) = 10 * value s + digitValue d := by
  simp [value, List.foldl_append]

theorem value_ofNat (n : Nat) : value (ofNat n) = n := by
  induction n using Nat.strongRecOn with
  | ind n ih =>
    rw [ofNat]
    split
    · next h => simp [value, digitValue_ofDigit h]
    · rw [value_append, ih (n / 10) (by omega), digitValue_ofDigit (by omega)]; omega

theorem all_isDigit_ofNat (n : Nat) : (ofNat n).all isDigit = true := by
  induction n using Nat.strongRecOn with
  | ind n ih =>
    rw [ofNat]
    split
    · next h => simp [isDigit_ofDigit h]
    · rw [List.all_append, ih (n / 10) (by omega)]
      simp [isDigit_ofDigit (d := n % 10) (by omega)]

theorem ofNat_ne_nil (n : Nat) : ofNat n ≠ [] := by
  rw [ofNat]; split <;> simp

end Digits

end Rollover
