/-
What is written into a document is what its readers read.

A value inside a document is followed by the rest of the object that it is in, and a
reader has to stop at the right place without being told where that is.  So the
statement about a reader and a text (`Reader.Reads`) is about the text in front of any
rest with which a value is over (`Over`).  It says both what is read and what is left.
Statements of this shape fit together: the rest of one value starts with the comma before
the next, or with the bracket that closes them all.

A text has many spellings, and what is written is one of them (`spells_writeText`).  So
its reader is looked at for all spellings at once, unit by unit.

What readers make of texts that nobody has written is a question of its own, and the last
section answers the part of it that needs no look at the text: which values can come out.
-/
import Rollover.Proofs.DocumentGrammar
import Rollover.Proofs.WrittenDigits

namespace Rollover

namespace Document

theorem Over.noDigit {s : List Char} (h : Over s) : Digits.NoDigit s := by
  intro c hc
  rcases h c hc with hgap | rfl | rfl | rfl
  · cases hdigit : Digits.isDigit c with
    | false => rfl
    | true => rw [not_isGap_of_isDigit hdigit] at hgap; cases hgap
  · decide
  · decide
  · decide

/-! ### Steps that went well -/

theorem ok_of_bind {α β : Type} {x : Except Fault α} {f : α → Except Fault β} {b : β}
    (h : x >>= f = .ok b) : ∃ a, x = .ok a ∧ f a = .ok b := by
  cases x with
  | error e => cases h
  | ok a => exact ⟨a, rfl, h⟩

theorem ok_of_map {α β : Type} {x : Except Fault α} {f : α → β} {b : β}
    (h : x.map f = .ok b) : ∃ a, x = .ok a ∧ f a = b := by
  cases x with
  | error e => cases h
  | ok a => exact ⟨a, rfl, Except.ok.inj h⟩

/-! ### Numbers -/

theorem le_foldl_digits (ds : List Char) (n : Nat) :
    n ≤ ds.foldl (fun n d => 10 * n + Digits.digitValue d) n := by
  induction ds generalizing n with
  | nil => exact Nat.le_refl n
  | cons d ds ih =>
      have hd := ih (10 * n + Digits.digitValue d)
      rw [List.foldl_cons]
      omega

/-- No digit is left over if the whole number has room. -/
theorem appendDigits_eq {ds : List Char} {n : Nat}
    (h : ds.foldl (fun n d => 10 * n + Digits.digitValue d) n ≤ largestUnsigned) :
    appendDigits n ds = (ds.foldl (fun n d => 10 * n + Digits.digitValue d) n, 0) := by
  induction ds generalizing n with
  | nil => rfl
  | cons d ds ih =>
      rw [List.foldl_cons] at h ⊢
      have hroom := Nat.le_trans (le_foldl_digits ds _) h
      rw [appendDigits, if_pos hroom, ih h]

theorem appendDigits_ofNat {n : Nat} (h : n ≤ largestUnsigned) :
    appendDigits 0 (Digits.ofNat n) = (n, 0) := by
  have hvalue : (Digits.ofNat n).foldl (fun n d => 10 * n + Digits.digitValue d) 0 = n :=
    Digits.value_ofNat n
  rw [appendDigits_eq (by rw [hvalue]; exact h), hvalue]

theorem takeDigits_append {ds rest : List Char} (hds : ∀ c ∈ ds, Digits.isDigit c = true)
    (hrest : Digits.NoDigit rest) : takeDigits (ds ++ rest) = (ds, rest) := by
  have hstop : rest.takeWhile Digits.isDigit = [] ∧ rest.dropWhile Digits.isDigit = rest := by
    cases rest with
    | nil => exact ⟨rfl, rfl⟩
    | cons c rest => simp [hrest c rfl]
  rw [takeDigits, List.takeWhile_append_of_pos hds, List.dropWhile_append_of_pos hds, hstop.1,
    hstop.2, List.append_nil]

/-- A number that has neither a fraction nor a power of ten is whole if it can be. -/
theorem readRest_of_over {rest : List Char} (h : Over rest) (negative : Bool) (n : Nat) :
    readRest negative n 0 rest = (whole negative n).map fun b => (b, rest) := by
  unfold readRest
  split
  · exact absurd (h _ rfl) (by decide)
  · exact absurd (h _ rfl) (by decide)
  · exact absurd (h _ rfl) (by decide)
  · rfl

theorem readNumber_ofNat {n : Nat} (hn : n ≤ largestUnsigned) {rest : List Char} (h : Over rest)
    (negative : Bool) :
    readNumber negative (Digits.ofNat n ++ rest) = (whole negative n).map fun b => (b, rest) := by
  have htake : takeDigits (Digits.ofNat n ++ rest) = (Digits.ofNat n, rest) :=
    takeDigits_append (fun _ hc => Digits.isDigit_of_mem_ofNat hc) h.noDigit
  unfold readNumber
  rw [htake]
  split
  · rename_i heq
    exact absurd (Prod.mk.inj heq).1 (Digits.ofNat_ne_nil n)
  · rename_i heq
    exact absurd (Prod.mk.inj heq).1 (Digits.ofNat_ne_nil n)
  · rename_i c s _ heq
    -- only zero starts with a zero, and it has no second digit
    have hds : Digits.ofNat n = '0' :: c :: s := (Prod.mk.inj heq).1
    rcases Nat.eq_zero_or_pos n with rfl | hpos
    · rw [Digits.ofNat] at hds
      cases hds
    · exact absurd (by rw [hds]; rfl) (Digits.head?_ofNat hpos)
  · rename_i heq
    obtain ⟨rfl, rfl⟩ := Prod.mk.inj heq
    rw [appendDigits_ofNat hn]
    exact readRest_of_over h negative n

/-- A number with a cell, of which the sign has been read. -/
theorem readNumber_natAbs {n : Int} (hn : Word.Fits n) {rest : List Char} (h : Over rest) :
    readNumber (n < 0) (Digits.ofNat n.natAbs ++ rest) = .ok (.whole n, rest) := by
  have hsize : n.natAbs ≤ 9223372036854775808 := by
    unfold Word.Fits Word.least Word.greatest at hn
    omega
  have hwhole : whole (n < 0) n.natAbs = .ok (.whole n) := by
    unfold whole
    by_cases hneg : n < 0
    · have habs : -(n.natAbs : Int) = n := by omega
      rw [if_pos (decide_eq_true hneg), if_pos ⟨by omega, hsize⟩, habs]
    · have habs : (n.natAbs : Int) = n := by omega
      rw [if_neg (by simp [hneg]), habs]
  rw [readNumber_ofNat (by unfold largestUnsigned; omega) h, hwhole]
  rfl

theorem isNumeral_ofNat (n : Nat) : IsNumeral (Digits.ofNat n) := by
  have hdigits : IsDigits (Digits.ofNat n) :=
    ⟨Digits.ofNat_ne_nil n, fun _ hc => Digits.isDigit_of_mem_ofNat hc⟩
  have hzero : (Digits.ofNat n).head? = some '0' → Digits.ofNat n = ['0'] := by
    intro hhead
    rcases Nat.eq_zero_or_pos n with rfl | hpos
    · rw [Digits.ofNat]
      rfl
    · exact absurd hhead (Digits.head?_ofNat hpos)
  have hparts := IsNumeral.parts hdigits hzero (.inl rfl) (.inl rfl)
  rwa [List.append_nil, List.append_nil] at hparts

theorem isValue_ofInt (n : Int) : IsValue (Digits.ofInt n) := by
  unfold Digits.ofInt
  split
  · exact .minus (isNumeral_ofNat _)
  · exact .number (isNumeral_ofNat _)

/-! ### Texts -/

theorem hexValue?_hexDigit {d : Nat} (h : d < 16) : hexValue? (Text.hexDigit d) = some d := by
  have hall : ∀ d : Fin 16, hexValue? (Text.hexDigit d) = some d.val := by decide
  exact hall ⟨d, h⟩

theorem HexUnit.length_eq {ds : List Char} {n : Nat} (h : HexUnit ds n) : ds.length = 4 := by
  cases h
  rfl

theorem HexUnit.unit_append {ds : List Char} {n : Nat} (h : HexUnit ds n) (s : List Char) :
    unit (ds ++ s) = .ok n := by
  obtain ⟨ha, hb, hc, hd⟩ := h
  simp only [List.cons_append, List.nil_append, unit, ha, hb, hc, hd]

/-- A control character is the unit of its two digits. -/
theorem hexUnit_hexDigit {n : Nat} (h : n < 0x20) :
    HexUnit ['0', '0', Text.hexDigit (n / 16), Text.hexDigit (n % 16)] n := by
  have hzero : hexValue? '0' = some 0 := by decide
  have hunit := HexUnit.digits hzero hzero (hexValue?_hexDigit (d := n / 16) (by omega))
    (hexValue?_hexDigit (d := n % 16) (by omega))
  rwa [show 4096 * 0 + 256 * 0 + 16 * (n / 16) + n % 16 = n by omega] at hunit

/-- After a backslash comes an escape, and the text goes on where the escape ends. -/
theorem readText_backslash {s : List Char} {c : Char} {n : Nat} (h : readEscape s = .ok (c, n)) :
    readText ('\\' :: s) = (readText (s.drop n)).map fun (t, rest) => (c :: t, rest) := by
  rw [readText, if_neg (by decide), if_pos rfl, h]
  rfl

/-- A character that is not escaped stands for itself. -/
theorem readText_plain {c : Char} (h : IsPlain c) (s : List Char) :
    readText (c :: s) = (readText s).map fun (t, rest) => (c :: t, rest) := by
  rw [readText, if_neg h.1, if_neg h.2.1, if_neg h.2.2]
  rfl

theorem ne_u_of_letterEscape? {e c : Char} (h : letterEscape? e = some c) : e ≠ 'u' := by
  rintro rfl
  cases h

theorem readText_letter {e c : Char} (h : letterEscape? e = some c) (s : List Char) :
    readText ('\\' :: e :: s) = (readText s).map fun (t, rest) => (c :: t, rest) := by
  have hescape : readEscape (e :: s) = .ok (c, 1) := by
    unfold readEscape
    split
    · rename_i heq
      cases heq
    · rename_i heq
      exact absurd (List.cons.inj heq).1 (ne_u_of_letterEscape? h)
    · rename_i heq
      rw [← (List.cons.inj heq).1, h]
  exact readText_backslash hescape

/-- A unit that is neither half of a pair is a character. -/
theorem readText_unit {ds : List Char} {n : Nat} (hds : HexUnit ds n)
    (hleading : isLeadingHalf n = false) (htrailing : isTrailingHalf n = false) (s : List Char) :
    readText ('\\' :: 'u' :: (ds ++ s)) =
      (readText s).map fun (t, rest) => (Char.ofNat n :: t, rest) := by
  have hescape : readEscape ('u' :: (ds ++ s)) = .ok (Char.ofNat n, 5) := by
    simp only [readEscape, hds.unit_append, bind, Except.bind, htrailing, hleading]
    rfl
  have hdrop : ('u' :: (ds ++ s)).drop 5 = s := List.drop_left' hds.length_eq
  rw [readText_backslash hescape, hdrop]

/-- A pair takes eleven characters after its first backslash. -/
theorem drop_pair {ds es : List Char} {n m : Nat} (hds : HexUnit ds n) (hes : HexUnit es m)
    (s : List Char) : ('u' :: (ds ++ '\\' :: 'u' :: (es ++ s))).drop 11 = s := by
  show (ds ++ '\\' :: 'u' :: (es ++ s)).drop (4 + 6) = s
  rw [← List.drop_drop, List.drop_left' hds.length_eq]
  exact List.drop_left' hes.length_eq

theorem readText_pair {ds es : List Char} {n m : Nat} (hds : HexUnit ds n) (hes : HexUnit es m)
    (hleading : isLeadingHalf n = true) (htrailing : isTrailingHalf m = true) (s : List Char) :
    readText ('\\' :: 'u' :: (ds ++ '\\' :: 'u' :: (es ++ s))) = (readText s).map fun (t, rest) =>
      (Char.ofNat (0x10000 + 1024 * (n - 0xd800) + (m - 0xdc00)) :: t, rest) := by
  have hnot : isTrailingHalf n = false := by
    simp only [isLeadingHalf, isTrailingHalf, Bool.and_eq_true, Bool.and_eq_false_iff,
      decide_eq_true_eq, decide_eq_false_iff_not] at hleading ⊢
    omega
  have hdrop : ∀ t, (ds ++ t).drop 4 = t := fun t => List.drop_left' hds.length_eq
  have hescape : readEscape ('u' :: (ds ++ '\\' :: 'u' :: (es ++ s))) =
      .ok (Char.ofNat (0x10000 + 1024 * (n - 0xd800) + (m - 0xdc00)), 11) := by
    simp only [readEscape, hds.unit_append, bind, Except.bind, hnot, hleading, hdrop,
      hes.unit_append, htrailing]
    rfl
  rw [readText_backslash hescape, drop_pair hds hes]

/-- **A text is read as what it spells.** -/
theorem Spells.readText_eq {s k : List Char} (h : Spells s k) (rest : List Char) :
    readText (k ++ '"' :: rest) = .ok (s, rest) := by
  induction h with
  | nil => simp [readText]
  | plain hc _ ih =>
      rw [List.cons_append, readText_plain hc, ih]
      rfl
  | letter he _ ih =>
      rw [List.cons_append, List.cons_append, readText_letter he, ih]
      rfl
  | unit hds hleading htrailing _ ih =>
      rw [List.cons_append, List.cons_append, List.append_assoc,
        readText_unit hds hleading htrailing, ih]
      rfl
  | pair hds hes hleading htrailing _ ih =>
      simp only [List.cons_append, List.append_assoc]
      rw [readText_pair hds hes hleading htrailing, ih]
      rfl

/-- What is written for a character spells that character. -/
theorem spells_writeChar {s k : List Char} (h : Spells s k) (c : Char) :
    Spells (c :: s) (writeChar c ++ k) := by
  unfold writeChar
  split
  · rename_i hc
    rcases hc with rfl | rfl <;> exact .letter rfl h
  rename_i hself
  -- the five control characters with a letter of their own
  iterate 5
    split
    · subst c
      exact .letter rfl h
  split
  · rename_i hcontrol
    have htrailing : isTrailingHalf c.toNat = false := by
      simp only [isTrailingHalf, Bool.and_eq_false_iff, decide_eq_false_iff_not]
      omega
    have hleading : isLeadingHalf c.toNat = false := by
      simp only [isLeadingHalf, Bool.and_eq_false_iff, decide_eq_false_iff_not]
      omega
    have hspells := Spells.unit (hexUnit_hexDigit hcontrol) hleading htrailing h
    rwa [Char.ofNat_toNat] at hspells
  · rename_i hplain
    exact .plain ⟨fun h => hself (.inl h), fun h => hself (.inr h), hplain⟩ h

/-- **A text that was written spells what was to be written.** -/
theorem spells_writeText (s : List Char) : Spells s (s.flatMap writeChar) := by
  induction s with
  | nil => exact .nil
  | cons c s ih =>
      rw [List.flatMap_cons]
      exact spells_writeChar ih c

/-! ### Readers of values -/

namespace Reader

/-- The reader takes the whole of `t`, in front of any rest with which a value is over, and
gives `a`. -/
def Reads {α : Type} (r : Reader α) (t : List Char) (a : α) : Prop :=
  ∀ rest, Over rest → r.run (t ++ rest) = .ok (a, rest)

variable {α β : Type}

theorem ok_of_run_bind {r : Reader α} {f : α → Reader β} {s rest : List Char} {b : β}
    (h : (r >>= f).run s = .ok (b, rest)) :
    ∃ a t, r.run s = .ok (a, t) ∧ (f a).run t = .ok (b, rest) := by
  rw [run_bind] at h
  split at h
  · cases h
  · rename_i a t heq
    exact ⟨a, t, heq, h⟩

theorem Reads.map {r : Reader α} {t : List Char} {a : α} (h : r.Reads t a) (f : α → β) :
    Reads (r >>= fun x => pure (f x)) t (f a) := by
  intro rest hrest
  rw [run_bind, h rest hrest]
  rfl

/-- A number that has a cell and is within the bounds of the reader. -/
theorem reads_whole {lo hi n : Int} (wanted : String) (hcell : Word.Fits n) (hlo : lo ≤ n)
    (hhi : n ≤ hi) : (whole lo hi wanted).Reads (Digits.ofInt n) n := by
  intro rest hrest
  have hread := readNumber_natAbs hcell hrest
  by_cases hneg : n < 0
  · rw [decide_eq_true hneg] at hread
    rw [Digits.ofInt, if_pos hneg, List.cons_append]
    have hpeek := skipGaps_cons (c := '-') (by decide) (Digits.ofNat n.natAbs ++ rest)
    simp only [whole, run_bind, peek, skip, number, hpeek, List.head?_cons, List.tail_cons, hread,
      if_pos (And.intro hlo hhi), run_pure]
  · rw [decide_eq_false hneg] at hread
    rw [Digits.ofInt, if_neg hneg]
    obtain ⟨c, s, hs⟩ := List.exists_cons_of_ne_nil (Digits.ofNat_ne_nil n.natAbs)
    have hdigit : Digits.isDigit c = true :=
      Digits.isDigit_of_mem_ofNat (hs ▸ List.mem_cons_self)
    have hgap : isGap c = false := not_isGap_of_isDigit hdigit
    have hpeek := skipGaps_cons hgap (s ++ rest)
    rw [hs, List.cons_append] at hread ⊢
    simp only [whole, run_bind, peek, hpeek, List.head?_cons]
    split
    · rename_i heq
      cases heq
      exact absurd hdigit (by decide)
    · rename_i heq
      cases heq
      simp only [if_pos hdigit, run_bind, number, hread, if_pos (And.intro hlo hhi), run_pure]
    · rename_i heq
      cases heq

theorem reads_flag (b : Bool) (wanted : String) :
    (flag wanted).Reads (if b then "true".toList else "false".toList) b := by
  intro rest _
  cases b <;> rfl

theorem reads_quoted {s k : List Char} (h : Spells s k) (wanted : String) :
    (quoted wanted).Reads (quotedText k) s := by
  intro rest _
  show readText (k ++ ['"'] ++ rest) = .ok (s, rest)
  rw [List.append_assoc]
  exact h.readText_eq rest

theorem reads_optional_null (r : Reader α) : (optional r).Reads "null".toList none :=
  fun _ _ => rfl

theorem reads_optional_text {r : Reader α} {k : List Char} {a : α}
    (h : r.Reads (quotedText k) a) : (optional r).Reads (quotedText k) (some a) := by
  intro rest hrest
  show (r >>= fun a => pure (some a)).run (quotedText k ++ rest) = _
  exact h.map some rest hrest

/-! ### What a reader can give

A document that says a number that the reader does not take is a fault, so what does come
out is known without a look at the document.
-/

/-- Whatever the reader gives has the property. -/
def Yields (r : Reader α) (P : α → Prop) : Prop :=
  ∀ s a rest, r.run s = .ok (a, rest) → P a

variable {r : Reader α} {f : α → Reader β} {P : α → Prop} {Q : β → Prop}

theorem yields_any (r : Reader α) : r.Yields fun _ => True := fun _ _ _ _ => trivial

theorem Yields.of_read {s : List Char} {a : α} (hr : r.Yields P) (h : Reader.read r s = .ok a) :
    P a := by
  obtain ⟨⟨b, rest⟩, hrun, h⟩ := ok_of_bind h
  dsimp only at h
  split at h
  · cases h
    exact hr s a rest hrun
  · cases h

theorem yields_pure {a : α} (h : P a) : (pure a : Reader α).Yields P := by
  intro s b rest hrun
  rw [run_pure] at hrun
  cases hrun
  exact h

theorem yields_fault (e : Fault) : (fault e : Reader α).Yields P := by
  intro s a rest hrun
  cases hrun

theorem Yields.bind (hr : r.Yields P) (hf : ∀ a, P a → (f a).Yields Q) : (r >>= f).Yields Q := by
  intro s b rest hrun
  obtain ⟨a, t, hfirst, hrun⟩ := ok_of_run_bind hrun
  exact hf a (hr s a t hfirst) t b rest hrun

/-- What a reader gives is of no matter if the property holds in any case. -/
theorem yields_bind (hf : ∀ a, (f a).Yields Q) : (r >>= f).Yields Q :=
  (yields_any r).bind fun a _ => hf a

theorem yields_refuse (wanted : String) : (refuse wanted : Reader α).Yields P := by
  unfold refuse
  refine yields_bind fun c => ?_
  -- a word, a sign or a text is taken off first; whatever it says, a fault comes behind it
  split
  · exact yields_bind fun _ => yields_bind fun _ => yields_fault _
  · exact yields_bind fun _ => yields_bind fun _ => yields_fault _
  · exact yields_bind fun _ => yields_bind fun _ => yields_fault _
  · exact yields_bind fun _ => yields_bind fun _ => yields_fault _
  · exact yields_bind fun _ => yields_bind fun _ => yields_fault _
  · exact yields_fault _
  · exact yields_fault _
  · split
    · exact yields_bind fun _ => yields_fault _
    · exact yields_fault _
  · exact yields_fault _

/-- A number that has been looked at is within the bounds. -/
theorem yields_check (lo hi : Int) (wanted : String) (n : Number) :
    Yields (match n with
      | .whole n => if lo ≤ n ∧ n ≤ hi then pure n else fault (.outOfRange n wanted)
      | n => fault (.wrongKind (.number n) wanted)) fun n => lo ≤ n ∧ n ≤ hi := by
  cases n with
  | whole n =>
      by_cases h : lo ≤ n ∧ n ≤ hi
      · simp only [if_pos h]
        exact yields_pure h
      · simp only [if_neg h]
        exact yields_fault _
  | binary negative size => exact yields_fault _

theorem yields_whole (lo hi : Int) (wanted : String) :
    (whole lo hi wanted).Yields fun n => lo ≤ n ∧ n ≤ hi := by
  unfold whole
  refine yields_bind fun c => ?_
  split
  · exact yields_bind fun _ => yields_bind (yields_check lo hi wanted)
  · split
    · exact yields_bind (yields_check lo hi wanted)
    · exact yields_refuse wanted
  · exact yields_fault _

theorem yields_item (h : r.Yields P) (first : Bool) :
    (item first r).Yields fun o => ∀ a ∈ o, P a := by
  have hnone : (pure none : Reader (Option α)).Yields fun o => ∀ a ∈ o, P a :=
    yields_pure fun a ha => nomatch ha
  have hsome : (r >>= fun a => pure (some a)).Yields fun o => ∀ a ∈ o, P a :=
    h.bind fun a ha => yields_pure fun b hb => Option.some.inj hb ▸ ha
  unfold item
  refine yields_bind fun o => ?_
  split
  · exact yields_fault _
  · split
    · exact hnone
    · split
      · exact hsome
      · split
        · refine yields_bind fun _ => yields_bind fun o => ?_
          split
          · exact yields_fault _
          · exact hsome
          · exact yields_fault _
        · exact yields_fault _

theorem yields_members {P : σ → Prop} (h : ∀ acc key, P acc → (member acc key).Yields P)
    (hacc : P acc) : (members member acc).Yields P := by
  intro s final rest hrun
  replace hrun : readMembers member true acc s = .ok (final, rest) := hrun
  generalize true = first at hrun
  fun_induction readMembers member first acc s with
  | case1 => cases hrun
  | case2 =>
    cases hrun
    exact hacc
  | case3 => cases hrun
  | case4 first acc s key t heq next u heq' ih => exact ih (h acc key hacc _ _ _ heq') hrun

end Reader

end Document

end Rollover
