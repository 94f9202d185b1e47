/-
Numbers inside a document.

A number has an integer part without useless zeros, and may have a fraction and a
power of ten.  Without those two it is a whole number, as long as its digits fit
64 bits and, after a minus sign, its value fits a signed cell; minus zero is not
whole.  Any other number is binary: the leading digits that fit 64 bits, without
a sign, are scaled by the power of ten that is left, with one rounding for each
step.  A number too large to be binary is a fault.

`readNumber` gives the number and `skipNumber` passes over it.  Both start after
the minus sign.  They differ in one point: where the text ends too early, the one
says so and the other finds the number misspelt.
-/
import Rollover.Document.Fault

namespace Rollover

namespace Document

/-- The largest number that 64 bits without a sign can hold. -/
def largestUnsigned : Nat := 18446744073709551615

/-- Appends digits to `n` while 64 bits hold the result; the second part is how many were left. -/
def appendDigits (n : Nat) : List Char → Nat × Nat
  | [] => (n, 0)
  | c :: s =>
    let m := 10 * n + Digits.digitValue c
    if m ≤ largestUnsigned then appendDigits m s else (n, s.length + 1)

/-- `10 ^ k` as a binary number, for `k` up to 308. -/
def powerOfTen (k : Nat) : Binary64 := (Binary64.ofNat? (Nat.pow 10 k)).getD .zero

/-- `size * 10 ^ power`, by steps of at most 308 powers. -/
def scale (size : Binary64) (power : Int) : Except Fault Binary64 :=
  if size = .zero then .ok size
  else if 308 < power then .error .numberTooLarge
  else if 0 ≤ power then
    match size.mul? (powerOfTen power.toNat) with
    | some b => .ok b
    | none => .error .numberTooLarge
  else if -308 ≤ power then .ok ((size.div? (powerOfTen (-power).toNat)).getD .zero)
  else scale ((size.div? (powerOfTen 308)).getD .zero) (power + 308)
termination_by power.natAbs

def binary (negative : Bool) (n : Nat) (power : Int) : Except Fault Number :=
  (scale ((Binary64.ofNat? n).getD .zero) power).map (Number.binary negative)

/-- A whole number, or a binary one if there is no cell for it. -/
def whole (negative : Bool) (n : Nat) : Except Fault Number :=
  if negative then
    if 0 < n ∧ n ≤ 9223372036854775808 then .ok (.whole (-(n : Int))) else binary true n 0
  else .ok (.whole n)

def takeDigits (s : List Char) : List Char × List Char :=
  (s.takeWhile Digits.isDigit, s.dropWhile Digits.isDigit)

/-- The sign of a power of ten, true for minus, and what follows it. -/
def powerSign : List Char → Bool × List Char
  | '+' :: s => (false, s)
  | '-' :: s => (true, s)
  | s => (false, s)

/-- What follows the letter of a power of ten, for the digits `n` and the power so far. -/
def readPower (negative : Bool) (n : Nat) (power : Int) (s : List Char) :
    Except Fault (Number × List Char) :=
  let (minus, s) := powerSign s
  match takeDigits s with
  | ([], []) => .error .endOfValue
  | ([], _) => .error .badNumber
  | (ds, rest) =>
    let k := Digits.value ds
    if 2147483647 < k then
      if n ≠ 0 ∧ ¬ minus then .error .numberTooLarge else .ok (.binary negative .zero, rest)
    else (binary negative n (if minus then power - k else power + k)).map fun b => (b, rest)

/-- The end of a number that is binary: a power of ten or nothing. -/
def readTail (negative : Bool) (n : Nat) (power : Int) (s : List Char) :
    Except Fault (Number × List Char) :=
  match s with
  | 'e' :: s | 'E' :: s => readPower negative n power s
  | s => (binary negative n power).map fun b => (b, s)

/-- What follows the point. -/
def readFraction (negative : Bool) (n : Nat) (power : Int) (s : List Char) :
    Except Fault (Number × List Char) :=
  match takeDigits s with
  | ([], []) => .error .endOfValue
  | ([], _) => .error .badNumber
  | (ds, rest) =>
    let (n, left) := appendDigits n ds
    readTail negative n (power - (ds.length - left : Nat)) rest

/-- What follows the integer part, of which `left` digits did not fit. -/
def readRest (negative : Bool) (n left : Nat) (s : List Char) :
    Except Fault (Number × List Char) :=
  match s with
  | '.' :: s => readFraction negative n left s
  | 'e' :: s | 'E' :: s => readPower negative n left s
  | s => (if left = 0 then whole negative n else binary negative n left).map fun b => (b, s)

def readNumber (negative : Bool) (s : List Char) : Except Fault (Number × List Char) :=
  match takeDigits s with
  | ([], []) => .error .endOfValue
  | ([], _) => .error .badNumber
  | ('0' :: _ :: _, _) => .error .badNumber
  | (ds, rest) =>
    let (n, left) := appendDigits 0 ds
    readRest negative n left rest

/-! ### Passing over a number -/

def skipPower (s : List Char) : Except Fault (List Char) :=
  match takeDigits (powerSign s).2 with
  | ([], _) => .error .badNumber
  | (_, rest) => .ok rest

def skipTail (s : List Char) : Except Fault (List Char) :=
  match s with
  | 'e' :: s | 'E' :: s => skipPower s
  | s => .ok s

def skipNumber (s : List Char) : Except Fault (List Char) :=
  match takeDigits s with
  | ([], _) => .error .badNumber
  | ('0' :: _ :: _, _) => .error .badNumber
  | (_, '.' :: rest) =>
    match takeDigits rest with
    | ([], _) => .error .badNumber
    | (_, rest) => skipTail rest
  | (_, rest) => skipTail rest

/-! ### A number takes no more than there is -/

theorem length_takeDigits_le (s : List Char) : (takeDigits s).2.length ≤ s.length :=
  (List.dropWhile_suffix Digits.isDigit).length_le

theorem length_powerSign_le (s : List Char) : (powerSign s).2.length ≤ s.length := by
  unfold powerSign; split <;> simp

theorem length_of_takeDigits {s ds rest : List Char} (h : takeDigits s = (ds, rest)) :
    rest.length ≤ s.length := by
  have := length_takeDigits_le s; rw [h] at this; exact this

theorem length_of_readPower {negative : Bool} {n : Nat} {power : Int} {s : List Char}
    {x : Number} {rest : List Char} (h : readPower negative n power s = .ok (x, rest)) :
    rest.length ≤ s.length := by
  simp only [readPower] at h
  split at h
  · simp at h
  · simp at h
  · next heq =>
    have h1 := length_of_takeDigits heq
    have h2 := length_powerSign_le s
    split at h
    · split at h
      · simp at h
      · simp only [Except.ok.injEq, Prod.mk.injEq] at h; rw [← h.2]; omega
    · simp only [Except.map] at h
      split at h
      · simp at h
      · simp only [Except.ok.injEq, Prod.mk.injEq] at h; rw [← h.2]; omega

theorem length_of_readTail {negative : Bool} {n : Nat} {power : Int} {s : List Char}
    {x : Number} {rest : List Char} (h : readTail negative n power s = .ok (x, rest)) :
    rest.length ≤ s.length := by
  unfold readTail at h
  split at h
  · have := length_of_readPower h; simp only [List.length_cons]; omega
  · have := length_of_readPower h; simp only [List.length_cons]; omega
  · simp only [Except.map] at h
    split at h <;> simp_all

theorem length_of_readFraction {negative : Bool} {n : Nat} {power : Int} {s : List Char}
    {x : Number} {rest : List Char} (h : readFraction negative n power s = .ok (x, rest)) :
    rest.length ≤ s.length := by
  unfold readFraction at h
  split at h
  · simp at h
  · simp at h
  · next heq =>
    have h1 := length_of_takeDigits heq
    have h2 := length_of_readTail h
    omega

theorem length_of_readRest {negative : Bool} {n left : Nat} {s : List Char}
    {x : Number} {rest : List Char} (h : readRest negative n left s = .ok (x, rest)) :
    rest.length ≤ s.length := by
  unfold readRest at h
  split at h
  · have := length_of_readFraction h; simp only [List.length_cons]; omega
  · have := length_of_readPower h; simp only [List.length_cons]; omega
  · have := length_of_readPower h; simp only [List.length_cons]; omega
  · simp only [Except.map] at h
    split at h
    · simp at h
    · simp only [Except.ok.injEq, Prod.mk.injEq] at h; simp [h.2]

theorem length_of_readNumber {negative : Bool} {s : List Char} {x : Number} {rest : List Char}
    (h : readNumber negative s = .ok (x, rest)) : rest.length ≤ s.length := by
  unfold readNumber at h
  split at h
  · simp at h
  · simp at h
  · simp at h
  · next heq =>
    have h1 := length_of_takeDigits heq
    have h2 := length_of_readRest h
    omega

theorem length_of_skipTail {s rest : List Char} (h : skipTail s = .ok rest) :
    rest.length ≤ s.length := by
  have key : ∀ {t : List Char}, skipPower t = .ok rest → rest.length ≤ t.length := by
    intro t ht
    unfold skipPower at ht
    split at ht
    · simp at ht
    · next heq =>
      have h1 := length_of_takeDigits heq
      have h2 := length_powerSign_le t
      simp only [Except.ok.injEq] at ht
      rw [← ht]; omega
  unfold skipTail at h
  split at h
  · have := key h; simp only [List.length_cons]; omega
  · have := key h; simp only [List.length_cons]; omega
  · simp only [Except.ok.injEq] at h; simp [h]

theorem length_of_skipNumber {s rest : List Char} (h : skipNumber s = .ok rest) :
    rest.length < s.length := by
  have taken : ∀ {ds t : List Char}, takeDigits s = (ds, t) → ds ≠ [] → t.length < s.length := by
    intro ds t heq hne
    simp only [takeDigits, Prod.mk.injEq] at heq
    have hs := congrArg List.length (List.takeWhile_append_dropWhile (p := Digits.isDigit) (l := s))
    have := List.length_pos_iff.2 hne
    rw [List.length_append, heq.1, heq.2] at hs
    omega
  unfold skipNumber at h
  split at h
  · simp at h
  · simp at h
  · next hne _ heq =>
    have h1 := taken heq (by simpa using hne)
    split at h
    · simp at h
    · next heq' =>
      have h2 := length_of_takeDigits heq'
      have h3 := length_of_skipTail h
      simp only [List.length_cons] at h1; omega
  · next hne _ _ heq =>
    have h1 := taken heq (by simpa using hne)
    have h2 := length_of_skipTail h
    omega

end Document

end Rollover
