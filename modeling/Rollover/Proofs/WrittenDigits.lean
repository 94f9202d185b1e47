/-
Digits in front of a text.

A number that was written is read back as soon as the reader knows where it ends, and
it ends where no digit follows.  What comes after the number is therefore part of the
statements here, through the one thing a reader looks at: whether it starts with a
digit (`NoDigit`).  A field of fixed width ends by itself, but only if the number fits
its width; so the length of what was written belongs here too.
-/
import Mathlib.Algebra.Group.Nat.Defs
import Rollover.Proofs.KeptOffset

namespace Rollover

namespace Digits

/-- The text does not go on with a digit. -/
def NoDigit (s : List Char) : Prop := ∀ c ∈ s.head?, isDigit c = false

theorem noDigit_nil : NoDigit [] := fun _ h => by cases h

theorem noDigit_cons {c : Char} (h : isDigit c = false) (s : List Char) : NoDigit (c :: s) := by
  intro d hd
  cases hd
  exact h

/-! ### Taking digits off -/

/-- Digits that are few enough are taken off as far as they go. -/
theorem take_append {ds s : List Char} {most : Nat} (hds : ∀ c ∈ ds, isDigit c = true)
    (hlen : ds.length ≤ most) (hs : NoDigit s) : take most (ds ++ s) = (ds, s) := by
  induction ds generalizing most with
  | nil =>
      cases s with
      | nil => simp [take]
      | cons c s =>
          have hc : isDigit c = false := hs c rfl
          cases most with
          | zero => rfl
          | succ most => simp [take, hc]
  | cons d ds ih =>
      rw [List.length_cons] at hlen
      cases most with
      | zero => exact absurd hlen (Nat.not_succ_le_zero _)
      | succ most =>
          have hd : isDigit d = true := hds d List.mem_cons_self
          have hrest := ih (fun c hc => hds c (List.mem_cons_of_mem _ hc))
            (Nat.le_of_succ_le_succ hlen)
          simp only [List.cons_append, take, hd, if_true, hrest]

/-! ### How long a number is -/

theorem length_ofNat_le {n k : Nat} (hk : 0 < k) (h : n < 10 ^ k) : (ofNat n).length ≤ k := by
  induction k generalizing n with
  | zero => omega
  | succ k ih =>
      rw [ofNat]
      split
      · simp
      · rename_i hn
        have hpos : 0 < k := by
          rcases Nat.eq_zero_or_pos k with rfl | hpos
          · omega
          · exact hpos
        have hdiv : n / 10 < 10 ^ k := by
          rw [Nat.pow_succ] at h
          omega
        simpa using ih hpos hdiv

/-- A number has no useless zero in front. -/
theorem head?_ofNat {n : Nat} (h : 0 < n) : (ofNat n).head? ≠ some '0' := by
  induction n using Nat.strongRecOn with
  | ind n ih =>
      rw [ofNat]
      split
      · rename_i hn
        have hdigit : ∀ d : Fin 10, 0 < d.val → ofDigit d ≠ '0' := by decide
        intro heq
        exact hdigit ⟨n, hn⟩ h (Option.some.inj heq)
      · rename_i hn
        have hhead := ih (n / 10) (by omega) (by omega)
        obtain ⟨c, ds, hds⟩ := List.exists_cons_of_ne_nil (ofNat_ne_nil (n / 10))
        rw [hds] at hhead ⊢
        exact hhead

/-! ### Zeros in front -/

theorem value_replicate_zero_append (k : Nat) (ds : List Char) :
    value (List.replicate k '0' ++ ds) = value ds := by
  induction k with
  | zero => rfl
  | succ k ih =>
      rw [← ih]
      rfl

theorem value_padded (width n : Nat) : value (padded width n) = n := by
  rw [padded, value_replicate_zero_append, value_ofNat]

theorem isDigit_of_mem_padded {width n : Nat} {c : Char} (h : c ∈ padded width n) :
    isDigit c = true := by
  rcases List.mem_append.mp h with h | h
  · rw [List.eq_of_mem_replicate h]
    decide
  · exact isDigit_of_mem_ofNat h

theorem padded_ne_nil (width n : Nat) : padded width n ≠ [] :=
  List.append_ne_nil_of_right_ne_nil _ (ofNat_ne_nil n)

theorem length_padded {width n : Nat} (hw : 0 < width) (h : n < 10 ^ width) :
    (padded width n).length = width := by
  have hlen := length_ofNat_le hw h
  simp only [padded, List.length_append, List.length_replicate]
  omega

end Digits

end Rollover
