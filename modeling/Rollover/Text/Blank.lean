/-
Blank characters, and what they separate.

A blank is a character with the property White_Space of the Unicode standard:
the space and the five controls around the line feed, the next-line control, and
the separators of the other scripts.  Neither the zero-width characters nor the
byte-order mark are blank.
-/

namespace Rollover

namespace Text

def isBlank (c : Char) : Bool :=
  let n := c.toNat
  (9 ≤ n && n ≤ 13) || n == 0x20 || n == 0x85 || n == 0xa0 || n == 0x1680 ||
  (0x2000 ≤ n && n ≤ 0x200a) || n == 0x2028 || n == 0x2029 || n == 0x202f ||
  n == 0x205f || n == 0x3000

def trimStart (s : List Char) : List Char := s.dropWhile isBlank

def trimEnd (s : List Char) : List Char := (s.reverse.dropWhile isBlank).reverse

/-- The text without the blanks at its two ends. -/
def trim (s : List Char) : List Char := trimEnd (trimStart s)

/-- The words of a text, without the blanks that separate them. -/
def words : List Char → List (List Char)
  | [] => []
  | c :: s =>
    if isBlank c then words s
    else match s, words s with
      | [], _ => [[c]]
      | d :: _, ws => if isBlank d then [c] :: ws else (c :: ws.headD []) :: ws.tail

theorem words_blank {c : Char} (h : isBlank c = true) (s : List Char) : words (c :: s) = words s := by
  simp [words, h]

end Text

end Rollover
