/-
Texts inside a document.

A text stands between double quotes.  A backslash starts an escape: one of eight
letters, or `u` and the four hexadecimal digits of a 16-bit unit.  A character
beyond 16 bits takes two units, a leading and a trailing half, each of which is
worthless alone.  Control characters must be escaped.

`readText` gives the text, `skipText` passes over it without a look at the halves.
Both start after the opening quote and return what follows the closing one.
`writeText` escapes the quote, the backslash and the control characters, and
nothing else.
-/
import Rollover.Document.Fault

namespace Rollover

namespace Document

def hexValue? (c : Char) : Option Nat :=
  if '0' ≤ c ∧ c ≤ '9' then some (c.toNat - 48)
  else if 'a' ≤ c ∧ c ≤ 'f' then some (c.toNat - 87)
  else if 'A' ≤ c ∧ c ≤ 'F' then some (c.toNat - 55)
  else none

/-- The 16-bit unit of four hexadecimal digits.  A text that ends within four bytes is cut short,
any other is misspelt. -/
def unit (s : List Char) : Except Fault Nat :=
  match s with
  | a :: b :: c :: d :: _ =>
    match hexValue? a, hexValue? b, hexValue? c, hexValue? d with
    | some a, some b, some c, some d => .ok (4096 * a + 256 * b + 16 * c + d)
    | _, _, _, _ => .error .badEscape
  | _ => .error (if (String.ofList s).utf8ByteSize < 4 then .endOfText else .badEscape)

/-- The character that a backslash and a letter stand for. -/
def letterEscape? (c : Char) : Option Char :=
  if c = '"' ∨ c = '\\' ∨ c = '/' then some c
  else if c = 'b' then some '\x08'
  else if c = 'f' then some '\x0c'
  else if c = 'n' then some '\n'
  else if c = 'r' then some '\r'
  else if c = 't' then some '\t'
  else none

def isLeadingHalf (n : Nat) : Bool := 0xd800 ≤ n && n ≤ 0xdbff

def isTrailingHalf (n : Nat) : Bool := 0xdc00 ≤ n && n ≤ 0xdfff

/-- The character of an escape and the number of characters that it takes after the backslash. -/
def readEscape (s : List Char) : Except Fault (Char × Nat) :=
  match s with
  | [] => .error .endOfText
  | 'u' :: s => do
    let n ← unit s
    if isTrailingHalf n then throw .strayHalf
    else if isLeadingHalf n then
      match s.drop 4 with
      | [] | ['\\'] => throw .endOfText
      | '\\' :: 'u' :: s => do
        let m ← unit s
        if isTrailingHalf m then
          return (Char.ofNat (0x10000 + 1024 * (n - 0xd800) + (m - 0xdc00)), 11)
        else throw .strayHalf
      | _ => throw .halfPair
    else return (Char.ofNat n, 5)
  | c :: _ =>
    match letterEscape? c with
    | some d => .ok (d, 1)
    | none => .error .badEscape

/-- The number of characters that an escape takes after the backslash. -/
def skipEscape (s : List Char) : Except Fault Nat :=
  match s with
  | [] => .error .endOfText
  | 'u' :: s => (unit s).map fun _ => 5
  | c :: _ => if (letterEscape? c).isSome then .ok 1 else .error .badEscape

def readText : List Char → Except Fault (List Char × List Char)
  | [] => .error .endOfText
  | c :: s =>
    if c = '"' then .ok ([], s)
    else if c = '\\' then do
      let (d, n) ← readEscape s
      let (t, rest) ← readText (s.drop n)
      return (d :: t, rest)
    else if c.toNat < 0x20 then .error .controlCharacter
    else do
      let (t, rest) ← readText s
      return (c :: t, rest)
termination_by s => s.length
decreasing_by all_goals simp only [List.length_drop, List.length_cons]; omega

def skipText : List Char → Except Fault (List Char)
  | [] => .error .endOfText
  | c :: s =>
    if c = '"' then .ok s
    else if c = '\\' then do
      let n ← skipEscape s
      skipText (s.drop n)
    else if c.toNat < 0x20 then .error .controlCharacter
    else skipText s
termination_by s => s.length
decreasing_by all_goals simp only [List.length_drop, List.length_cons]; omega

/-! ### Writing -/

def writeChar (c : Char) : List Char :=
  if c = '"' ∨ c = '\\' then ['\\', c]
  else if c = '\x08' then ['\\', 'b']
  else if c = '\x0c' then ['\\', 'f']
  else if c = '\n' then ['\\', 'n']
  else if c = '\r' then ['\\', 'r']
  else if c = '\t' then ['\\', 't']
  else if c.toNat < 0x20 then
    ['\\', 'u', '0', '0', Text.hexDigit (c.toNat / 16), Text.hexDigit (c.toNat % 16)]
  else [c]

def writeText (s : List Char) : List Char := '"' :: s.flatMap writeChar ++ ['"']

/-! ### A text takes something -/

theorem length_of_readText {s t rest : List Char} (h : readText s = .ok (t, rest)) :
    rest.length < s.length := by
  fun_induction readText s generalizing t rest with
  | case1 => simp at h
  | case2 s =>
    simp only [Except.ok.injEq, Prod.mk.injEq] at h
    simp [h.2]
  | case3 s _ ih =>
    simp only [bind, Except.bind] at h
    split at h
    · simp at h
    · split at h
      · simp at h
      · next heq =>
        simp only [pure, Except.pure, Except.ok.injEq, Prod.mk.injEq] at h
        have := ih _ heq
        simp only [List.length_drop] at this
        simp only [List.length_cons, ← h.2]; omega
  | case4 => simp at h
  | case5 c s _ _ _ ih =>
    simp only [bind, Except.bind] at h
    split at h
    · simp at h
    · next heq =>
      simp only [pure, Except.pure, Except.ok.injEq, Prod.mk.injEq] at h
      have := ih heq
      simp only [List.length_cons, ← h.2]; omega

theorem length_of_skipText {s rest : List Char} (h : skipText s = .ok rest) :
    rest.length < s.length := by
  fun_induction skipText s generalizing rest with
  | case1 => simp at h
  | case2 s => simp_all
  | case3 s _ ih =>
    simp only [bind, Except.bind] at h
    split at h
    · simp at h
    · have := ih _ h
      simp only [List.length_drop] at this
      simp only [List.length_cons]; omega
  | case4 => simp at h
  | case5 c s _ _ _ ih =>
    have := ih h
    simp only [List.length_cons]; omega

end Document

end Rollover
