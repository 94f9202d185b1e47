/-
How numbers are spelt, without a reader.

`Digits.int?` says what number a text is by folding over its digits, and `Text.trim` says
what is left of a text by dropping from both ends.  Here the same is said the other way
round, by what a text consists of.  A numeral is a digit, or a numeral with one more digit
behind it; a number of either sign is a numeral that may have a sign in front; and a text
is trimmed when blanks around it make up the whole and it has none at its own ends.

Each of the two functions is then shown to find exactly what the relation allows.  For
numbers this goes in both directions, since a text that is no number has to be refused.
For trimming it comes down to uniqueness: however the blanks are split off, the same text
is left.
-/
import Mathlib.Data.List.DropRight
import Rollover.Text.Blank
import Rollover.Text.Digits

namespace Rollover

/-! ### Texts without the blanks at their ends -/

namespace Text

/-- The text `s` is `t` with blanks around it, and `t` neither begins nor ends with one. -/
structure Trimmed (s t : List Char) : Prop where
  around : ∃ g g', s = g ++ (t ++ g') ∧ (∀ c ∈ g, isBlank c = true) ∧ ∀ c ∈ g', isBlank c = true
  begins : ∀ c ∈ t.head?, isBlank c = false
  ends : ∀ c ∈ t.getLast?, isBlank c = false

theorem trimmed_trim (s : List Char) : Trimmed s (trim s) := by
  have hsplit : trim s ++ (trimStart s).rtakeWhile isBlank = trimStart s :=
    List.rdropWhile_append_rtakeWhile
  refine ⟨⟨s.takeWhile isBlank, (trimStart s).rtakeWhile isBlank, ?_, ?_, ?_⟩, ?_, ?_⟩
  · rw [hsplit]
    exact List.takeWhile_append_dropWhile.symm
  · exact fun c hc => List.mem_takeWhile_imp hc
  · exact fun c hc => List.mem_rtakeWhile_imp hc
  · -- What is left of the front is where the whole text stops being blank.
    intro c hc
    have hhead : c ∈ (trimStart s).head? := by
      rw [← hsplit]
      exact List.mem_head?_append_of_mem_head? hc
    have hstop := List.head?_dropWhile_not isBlank s
    rw [show (s.dropWhile isBlank).head? = some c from hhead] at hstop
    exact hstop
  · intro c hc
    obtain ⟨hne, hlast⟩ := List.mem_getLast?_eq_getLast hc
    have hstop := List.rdropWhile_last_not isBlank (trimStart s) hne
    rw [hlast]
    exact Bool.eq_false_iff.mpr hstop

/-- Blanks in front of a text are dropped, and the text itself is not touched. -/
theorem trimStart_blanks_append {g t : List Char} (hg : ∀ c ∈ g, isBlank c = true)
    (ht : ∀ c ∈ t.head?, isBlank c = false) : trimStart (g ++ t) = t := by
  rw [trimStart, List.dropWhile_append_of_pos hg]
  cases t with
  | nil => rfl
  | cons c t => exact List.dropWhile_cons_of_neg (by simp [ht c rfl])

theorem trimEnd_append_blanks {t g : List Char} (hg : ∀ c ∈ g, isBlank c = true)
    (ht : ∀ c ∈ t.getLast?, isBlank c = false) : trimEnd (t ++ g) = t := by
  have hback : trimStart (g.reverse ++ t.reverse) = t.reverse :=
    trimStart_blanks_append (fun c hc => hg c (List.mem_reverse.mp hc)) (by simpa using ht)
  have h : trimEnd (t ++ g) = (trimStart (t ++ g).reverse).reverse := rfl
  rw [h, List.reverse_append, hback, List.reverse_reverse]

/-- There is only one way to trim a text. -/
theorem Trimmed.trim_eq {s t : List Char} (h : Trimmed s t) : trim s = t := by
  obtain ⟨⟨g, g', rfl, hg, hg'⟩, hbegins, hends⟩ := h
  cases t with
  | nil =>
      -- Then the text is blank throughout, and the front takes all of it.
      have hblank : ∀ c ∈ g ++ g', isBlank c = true := fun c hc =>
        (List.mem_append.mp hc).elim (hg c) (hg' c)
      have hnone : trimStart (g ++ g' ++ []) = [] :=
        trimStart_blanks_append hblank fun _ hc => nomatch hc
      rw [List.append_nil] at hnone
      rw [List.nil_append, trim, hnone]
      rfl
  | cons c t =>
      rw [trim, trimStart_blanks_append hg (by simpa using hbegins)]
      exact trimEnd_append_blanks hg' hends

end Text

/-! ### Numerals -/

namespace Digits

/-- The digits of a numeral and its number.  Zeros in front make no difference. -/
inductive Numeral : List Char → Nat → Prop
  | digit {d : Nat} (hd : d < 10) : Numeral [ofDigit d] d
  | more {ds : List Char} {n d : Nat} (h : Numeral ds n) (hd : d < 10) :
      Numeral (ds ++ [ofDigit d]) (10 * n + d)

/-- A number of either sign: a numeral that may have a sign in front. -/
inductive Signed : List Char → Int → Prop
  | plain {ds : List Char} {n : Nat} (h : Numeral ds n) : Signed ds n
  | plus {ds : List Char} {n : Nat} (h : Numeral ds n) : Signed ('+' :: ds) n
  | minus {ds : List Char} {n : Nat} (h : Numeral ds n) : Signed ('-' :: ds) (-n)

theorem eq_ofDigit_of_isDigit {c : Char} (h : isDigit c = true) :
    digitValue c < 10 ∧ c = ofDigit (digitValue c) := by
  have hd : 48 ≤ c.toNat ∧ c.toNat ≤ 57 := by
    simpa [isDigit, Char.le_def, UInt32.le_iff_toNat_le] using h
  refine ⟨by unfold digitValue; omega, ?_⟩
  have hc : 48 + (c.toNat - 48) = c.toNat := by omega
  rw [ofDigit, digitValue, hc, Char.ofNat_toNat]

/-- A digit is no sign. -/
theorem ne_sign_of_isDigit {c : Char} (h : isDigit c = true) : c ≠ '-' ∧ c ≠ '+' := by
  refine ⟨?_, ?_⟩ <;> rintro rfl <;> exact absurd h (by decide)

/-- Any digits, if there are some, are a numeral of the number they stand for. -/
theorem numeral_value {ds : List Char} (hne : ds ≠ []) (hds : ds.all isDigit = true) :
    Numeral ds (value ds) := by
  induction ds using List.reverseRecOn with
  | nil => exact absurd rfl hne
  | append_singleton ds c ih =>
      rw [List.all_append, Bool.and_eq_true] at hds
      have hc : isDigit c = true := by simpa using hds.2
      obtain ⟨hlt, heq⟩ := eq_ofDigit_of_isDigit hc
      -- A first digit is a numeral by itself, and every other one goes behind a numeral.
      by_cases hnil : ds = []
      · subst hnil
        have hvalue : value [c] = digitValue c := by simp [value]
        have h := Numeral.digit hlt
        rwa [← heq, ← hvalue] at h
      · have h := Numeral.more (ih hnil hds.1) hlt
        rwa [← heq, ← value_append] at h

theorem Numeral.spec {ds : List Char} {n : Nat} (h : Numeral ds n) :
    (ds ≠ [] ∧ ds.all isDigit = true) ∧ value ds = n := by
  induction h with
  | digit hd => exact ⟨⟨by simp, by simp [isDigit_ofDigit hd]⟩, by
      simp [value, digitValue_ofDigit hd]⟩
  | more _ hd ih =>
      obtain ⟨⟨-, hds⟩, hvalue⟩ := ih
      refine ⟨⟨by simp, by simp [hds, isDigit_ofDigit hd]⟩, ?_⟩
      rw [value_append, hvalue, digitValue_ofDigit hd]

/-- A numeral does not begin with a sign. -/
theorem Numeral.head_ne_sign {c : Char} {ds : List Char} {n : Nat} (h : Numeral (c :: ds) n) :
    c ≠ '-' ∧ c ≠ '+' := by
  obtain ⟨⟨-, hds⟩, -⟩ := h.spec
  rw [List.all_cons, Bool.and_eq_true] at hds
  exact ne_sign_of_isDigit hds.1

/-- What `int?` takes behind the sign is a numeral. -/
theorem unsigned_eq_some_iff {ds : List Char} {n : Nat} :
    (if ds ≠ [] ∧ ds.all isDigit = true then some (value ds) else none) = some n ↔
      Numeral ds n := by
  constructor
  · intro h
    split at h
    · rename_i hds
      cases h
      exact numeral_value hds.1 hds.2
    · cases h
  · intro h
    obtain ⟨hds, hvalue⟩ := h.spec
    rw [if_pos hds, hvalue]

/-- **Exactly the numbers of either sign are read.** -/
theorem int?_eq_some_iff {s : List Char} {n : Int} : int? s = some n ↔ Signed s n := by
  unfold int?
  split
  · rename_i ds
    simp only [bind_pure_comp, Option.map_eq_map, Option.map_map, Option.map_eq_some_iff,
      unsigned_eq_some_iff]
    constructor
    · rintro ⟨m, hm, rfl⟩
      exact .minus hm
    · intro h
      cases h with
      | plain h => exact absurd rfl h.head_ne_sign.1
      | minus h => exact ⟨_, h, rfl⟩
  · rename_i ds
    simp only [Option.map_eq_some_iff, unsigned_eq_some_iff]
    constructor
    · rintro ⟨m, hm, rfl⟩
      exact .plus hm
    · intro h
      cases h with
      | plain h => exact absurd rfl h.head_ne_sign.2
      | plus h => exact ⟨_, h, rfl⟩
  · rename_i hminus hplus
    simp only [Option.map_eq_some_iff, unsigned_eq_some_iff]
    constructor
    · rintro ⟨m, hm, rfl⟩
      exact .plain hm
    · intro h
      cases h with
      | plain h => exact ⟨_, h, rfl⟩
      | plus h => exact absurd rfl (hplus _)
      | minus h => exact absurd rfl (hminus _)

/-- A number that is written is spelt as one. -/
theorem signed_ofInt (n : Int) : Signed (ofInt n) n := by
  have h : Numeral (ofNat n.natAbs) n.natAbs := by
    have hvalue := numeral_value (ofNat_ne_nil n.natAbs) (all_isDigit_ofNat n.natAbs)
    rwa [value_ofNat] at hvalue
  unfold ofInt
  by_cases hn : n < 0
  · have hneg := Signed.minus h
    rw [if_pos hn]
    rwa [show -(n.natAbs : Int) = n by omega] at hneg
  · have hpos := Signed.plain h
    rw [if_neg hn]
    rwa [Int.natAbs_of_nonneg (by omega)] at hpos

end Digits

end Rollover
