/-
What a document is, without a reader.

The readers say what a document is by what they do with one.  Here the same is said the
other way round, by relations between what is meant and the characters that say it:
what a text inside a document spells, which characters are a number, and how items and
members are put between brackets.  Nothing is computed from left to right, so a relation
can leave open what a reader has to settle: how long a gap is, which of its spellings a
character has, and how deep a value goes.

A member is its name and the characters of its value.  The name is what the key spells.
A key can be spelt well and still spell nothing, when it has half of a pair of units in
it; such a member has no name.

In front of a value, behind it and between its parts there may be gaps, and every
relation puts them where they may stand.  Behind a value there is a gap, a comma or a
closing bracket, or nothing more (`Over`).
-/
import Rollover.Document.Reader

namespace Rollover

namespace Document

/-! ### Gaps -/

def Gaps (g : List Char) : Prop := ∀ c ∈ g, isGap c = true

theorem gaps_nil : Gaps [] := fun _ hc => nomatch hc

theorem skipGaps_append {g : List Char} (hg : Gaps g) (s : List Char) :
    skipGaps (g ++ s) = skipGaps s :=
  List.dropWhile_append_of_pos hg

theorem skipGaps_cons {c : Char} (h : isGap c = false) (s : List Char) :
    skipGaps (c :: s) = c :: s := by
  rw [skipGaps, List.dropWhile_cons_of_neg (by simp [h])]

/-- What may follow a value: nothing, a gap, a comma, or the end of the list or the object that
it is in. -/
def Over (s : List Char) : Prop :=
  ∀ c ∈ s.head?, isGap c = true ∨ c = ',' ∨ c = ']' ∨ c = '\x7d'

theorem over_nil : Over [] := fun _ hc => nomatch hc

theorem over_cons {c : Char} (h : isGap c = true ∨ c = ',' ∨ c = ']' ∨ c = '\x7d')
    (s : List Char) : Over (c :: s) := by
  intro d hd
  cases hd
  exact h

theorem Gaps.over_append {g s : List Char} (hg : Gaps g) (hs : Over s) : Over (g ++ s) := by
  cases g with
  | nil => exact hs
  | cons c g => exact over_cons (.inl (hg c List.mem_cons_self)) (g ++ s)

/-! ### Texts -/

/-- The four hexadecimal digits of a 16-bit unit. -/
inductive HexUnit : List Char → Nat → Prop
  | digits {a b c d : Char} {i j k l : Nat} (ha : hexValue? a = some i) (hb : hexValue? b = some j)
      (hc : hexValue? c = some k) (hd : hexValue? d = some l) :
      HexUnit [a, b, c, d] (4096 * i + 256 * j + 16 * k + l)

/-- A character that stands for itself. -/
def IsPlain (c : Char) : Prop := c ≠ '"' ∧ c ≠ '\\' ∧ ¬ c.toNat < 0x20

instance (c : Char) : Decidable (IsPlain c) :=
  inferInstanceAs (Decidable (c ≠ '"' ∧ c ≠ '\\' ∧ ¬ c.toNat < 0x20))

/-- The characters between the quotes of a text that is spelt well. -/
inductive IsLiteral : List Char → Prop
  | nil : IsLiteral []
  | plain {c : Char} {k : List Char} (hc : IsPlain c) (hk : IsLiteral k) : IsLiteral (c :: k)
  | letter {e c : Char} {k : List Char} (he : letterEscape? e = some c) (hk : IsLiteral k) :
      IsLiteral ('\\' :: e :: k)
  | unit {ds : List Char} {n : Nat} {k : List Char} (hds : HexUnit ds n) (hk : IsLiteral k) :
      IsLiteral ('\\' :: 'u' :: (ds ++ k))

/-- The text `s` is what `k` between quotes says. -/
inductive Spells : List Char → List Char → Prop
  | nil : Spells [] []
  | plain {c : Char} {s k : List Char} (hc : IsPlain c) (hk : Spells s k) : Spells (c :: s) (c :: k)
  | letter {e c : Char} {s k : List Char} (he : letterEscape? e = some c) (hk : Spells s k) :
      Spells (c :: s) ('\\' :: e :: k)
  | unit {ds : List Char} {n : Nat} {s k : List Char} (hds : HexUnit ds n)
      (hleading : isLeadingHalf n = false) (htrailing : isTrailingHalf n = false)
      (hk : Spells s k) : Spells (Char.ofNat n :: s) ('\\' :: 'u' :: (ds ++ k))
  /-- Two units, each of which is worthless alone. -/
  | pair {ds es : List Char} {n m : Nat} {s k : List Char} (hds : HexUnit ds n)
      (hes : HexUnit es m) (hleading : isLeadingHalf n = true) (htrailing : isTrailingHalf m = true)
      (hk : Spells s k) :
      Spells (Char.ofNat (0x10000 + 1024 * (n - 0xd800) + (m - 0xdc00)) :: s)
        ('\\' :: 'u' :: (ds ++ '\\' :: 'u' :: (es ++ k)))

theorem Spells.isLiteral {s k : List Char} (h : Spells s k) : IsLiteral k := by
  induction h with
  | nil => exact .nil
  | plain hc _ ih => exact .plain hc ih
  | letter he _ ih => exact .letter he ih
  | unit hds _ _ _ ih => exact .unit hds ih
  | pair hds hes _ _ _ ih => exact .unit hds (.unit hes ih)

theorem spells_self {s : List Char} (h : ∀ c ∈ s, IsPlain c) : Spells s s := by
  induction s with
  | nil => exact .nil
  | cons c s ih =>
      exact .plain (h c List.mem_cons_self) (ih fun d hd => h d (List.mem_cons_of_mem c hd))

/-- What a key names. -/
inductive Key : Option (List Char) → List Char → Prop
  | named {s k : List Char} (hk : Spells s k) : Key (some s) k
  | nameless {k : List Char} (hk : IsLiteral k) (h : ∀ s, ¬ Spells s k) : Key none k

/-- A text as it stands in a document. -/
def quotedText (k : List Char) : List Char := '"' :: (k ++ ['"'])

/-! ### Numbers -/

/-- Digits, and at least one. -/
def IsDigits (ds : List Char) : Prop := ds ≠ [] ∧ ∀ c ∈ ds, Digits.isDigit c = true

/-- A point and digits, or nothing. -/
def IsFraction (f : List Char) : Prop := f = [] ∨ ∃ ds, IsDigits ds ∧ f = '.' :: ds

/-- A power of ten, or nothing. -/
def IsPower (p : List Char) : Prop :=
  p = [] ∨ ∃ e sign ds, (e = 'e' ∨ e = 'E') ∧ (sign = [] ∨ sign = ['+'] ∨ sign = ['-']) ∧
    IsDigits ds ∧ p = e :: (sign ++ ds)

/-- A number without its sign. -/
inductive IsNumeral : List Char → Prop
  | parts {ds f p : List Char} (hds : IsDigits ds) (hzero : ds.head? = some '0' → ds = ['0'])
      (hf : IsFraction f) (hp : IsPower p) : IsNumeral (ds ++ (f ++ p))

/-! ### Lists and objects -/

section

variable {α : Type}

/-- What follows an item: further items, each behind a comma. -/
inductive More (T : α → List Char → Prop) : List α → List Char → Prop
  | nil {g : List Char} (hg : Gaps g) : More T [] g
  | cons {g g' p t : List Char} {a : α} {as : List α} (hg : Gaps g) (hg' : Gaps g') (hp : T a p)
      (ht : More T as t) : More T (a :: as) (g ++ ',' :: (g' ++ (p ++ t)))

/-- What stands between two brackets: items with commas between them. -/
inductive Items (T : α → List Char → Prop) : List α → List Char → Prop
  | nil {g : List Char} (hg : Gaps g) : Items T [] g
  | cons {g p t : List Char} {a : α} {as : List α} (hg : Gaps g) (hp : T a p) (ht : More T as t) :
      Items T (a :: as) (g ++ (p ++ t))

/-- Behind an item there is a comma or the closing bracket, and perhaps a gap before it. -/
theorem More.over {T : α → List Char → Prop} {as : List α} {t : List Char} (h : More T as t)
    {s : List Char} (hs : Over s) : Over (t ++ s) := by
  cases h with
  | nil hg => exact hg.over_append hs
  | cons hg =>
      rw [List.append_assoc, List.cons_append]
      exact hg.over_append (over_cons (.inr (.inl rfl)) _)

end

/-- A member of an object: what its key names, and the characters of its value. -/
structure Member where
  name : Option (List Char)
  value : List Char

/-- A key, a colon and a value. -/
inductive MemberText : Member → List Char → Prop
  | parts {m : Member} {k g g' : List Char} (hk : Key m.name k) (hg : Gaps g) (hg' : Gaps g') :
      MemberText m (quotedText k ++ (g ++ ':' :: (g' ++ m.value)))

def ObjectText (ms : List Member) (t : List Char) : Prop :=
  ∃ b, Items MemberText ms b ∧ t = '\x7b' :: (b ++ ['\x7d'])

def ListText (vs : List (List Char)) (t : List Char) : Prop :=
  ∃ b, Items (· = ·) vs b ∧ t = '[' :: (b ++ [']'])

/-! ### Values -/

/-- A value of any kind and depth. -/
inductive IsValue : List Char → Prop
  | null : IsValue "null".toList
  | flag (b : Bool) : IsValue (if b then "true".toList else "false".toList)
  | number {t : List Char} (h : IsNumeral t) : IsValue t
  | minus {t : List Char} (h : IsNumeral t) : IsValue ('-' :: t)
  | text {k : List Char} (h : IsLiteral k) : IsValue (quotedText k)
  | list {vs : List (List Char)} {t : List Char} (ht : ListText vs t) (h : ∀ v ∈ vs, IsValue v) :
      IsValue t
  | object {ms : List Member} {t : List Char} (ht : ObjectText ms t)
      (h : ∀ m ∈ ms, IsValue m.value) : IsValue t

theorem not_isGap_of_isDigit {c : Char} (h : Digits.isDigit c = true) : isGap c = false := by
  simp only [isGap, Bool.or_eq_false_iff, beq_eq_false_iff_ne]
  refine ⟨⟨⟨?_, ?_⟩, ?_⟩, ?_⟩ <;> rintro rfl <;> exact absurd h (by decide)

theorem IsNumeral.exists_cons {t : List Char} (h : IsNumeral t) :
    ∃ c s, t = c :: s ∧ Digits.isDigit c = true := by
  obtain ⟨⟨hne, hds⟩, -, -, -⟩ := h
  obtain ⟨c, ds, rfl⟩ := List.exists_cons_of_ne_nil hne
  exact ⟨c, _, rfl, hds c List.mem_cons_self⟩

/-- A value starts with a character of its own. -/
theorem IsValue.exists_cons {v : List Char} (h : IsValue v) :
    ∃ c s, v = c :: s ∧ isGap c = false ∧ c ≠ ']' := by
  cases h with
  | null => exact ⟨_, _, rfl, by decide, by decide⟩
  | flag b => cases b <;> exact ⟨_, _, rfl, by decide, by decide⟩
  | number h =>
      obtain ⟨c, s, rfl, hc⟩ := h.exists_cons
      refine ⟨c, s, rfl, not_isGap_of_isDigit hc, ?_⟩
      rintro rfl
      exact absurd hc (by decide)
  | minus h => exact ⟨_, _, rfl, by decide, by decide⟩
  | text h => exact ⟨_, _, rfl, by decide, by decide⟩
  | list ht h =>
      obtain ⟨b, -, rfl⟩ := ht
      exact ⟨_, _, rfl, by decide, by decide⟩
  | object ht h =>
      obtain ⟨b, -, rfl⟩ := ht
      exact ⟨_, _, rfl, by decide, by decide⟩

end Document

end Rollover
