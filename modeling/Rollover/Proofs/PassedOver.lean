/-
Every value is passed over, and nothing else.

`skipOpen` keeps its place with a stack, so nothing about it can be proved for one value
alone: inside a list it does not stop behind an item but goes on with the next.  What it
does behind a value depends on the stack and on what follows (`settle`), and the value
has no part in it.  So the statement for a value is that passing over it, with any stack
and in front of any rest, is the same as settling what comes behind it (`Passed`).

In this form the statement is an induction over the value.  Lists and objects are one
case, since `settle` and `enter` ask a frame only for its closing bracket and for what
stands in front of a value in it (`Heads`).

The readers of texts, numbers and words see more of a value than this one does, but they
take the same off the text.  So a value that is read, of whichever kind, is read to its
end.
-/
import Rollover.Proofs.WrittenDocument

namespace Rollover

namespace Document

/-! ### Texts -/

theorem skipText_backslash {s : List Char} {n : Nat} (h : skipEscape s = .ok n) :
    skipText ('\\' :: s) = skipText (s.drop n) := by
  rw [skipText, if_neg (by decide), if_pos rfl, h]
  rfl

theorem skipText_unit {s : List Char} {n : Nat} (h : unit s = .ok n) :
    skipText ('\\' :: 'u' :: s) = skipText (s.drop 4) := by
  have hescape : skipEscape ('u' :: s) = .ok 5 := by
    simp only [skipEscape, h]
    rfl
  rw [skipText_backslash hescape, List.drop_succ_cons]

theorem skipText_letter {e c : Char} (h : letterEscape? e = some c) (s : List Char) :
    skipText ('\\' :: e :: s) = skipText s := by
  have hescape : skipEscape (e :: s) = .ok 1 := by
    unfold skipEscape
    split
    · rename_i heq
      cases heq
    · rename_i heq
      exact absurd (List.cons.inj heq).1 (ne_u_of_letterEscape? h)
    · rename_i heq
      rw [← (List.cons.inj heq).1, h]
      rfl
  exact skipText_backslash hescape

theorem IsLiteral.skipText_eq {k : List Char} (h : IsLiteral k) (rest : List Char) :
    skipText (k ++ '"' :: rest) = .ok rest := by
  induction h with
  | nil => simp [skipText]
  | plain hc _ ih =>
      rw [List.cons_append, skipText, if_neg hc.1, if_neg hc.2.1, if_neg hc.2.2, ih]
  | letter he _ ih => exact (skipText_letter he _).trans ih
  | unit hds _ ih =>
      rw [List.cons_append, List.cons_append, List.append_assoc, skipText_unit (hds.unit_append _),
        List.drop_left' hds.length_eq, ih]

/-! ### Numbers -/

theorem IsPower.noDigit_append {p rest : List Char} (h : IsPower p) (hrest : Over rest) :
    Digits.NoDigit (p ++ rest) := by
  rcases h with rfl | ⟨e, sign, ds, he, -, -, rfl⟩
  · exact hrest.noDigit
  · refine Digits.noDigit_cons ?_ _
    rcases he with rfl | rfl <;> decide

theorem takeDigits_of_isDigits {ds rest : List Char} (h : IsDigits ds)
    (hrest : Digits.NoDigit rest) : takeDigits (ds ++ rest) = (ds, rest) :=
  takeDigits_append h.2 hrest

theorem IsPower.skipTail_eq {p rest : List Char} (h : IsPower p) (hrest : Over rest) :
    skipTail (p ++ rest) = .ok rest := by
  rcases h with rfl | ⟨e, sign, ds, he, hsign, hds, rfl⟩
  · rw [List.nil_append]
    unfold skipTail
    split
    · exact absurd (hrest _ rfl) (by decide)
    · exact absurd (hrest _ rfl) (by decide)
    · rfl
  · have htail : skipTail (e :: (sign ++ ds) ++ rest) = skipPower (sign ++ (ds ++ rest)) := by
      rw [List.cons_append, List.append_assoc]
      rcases he with rfl | rfl <;> rfl
    obtain ⟨d, ds, rfl⟩ := List.exists_cons_of_ne_nil hds.1
    have hd := hds.2 d List.mem_cons_self
    have hpower : (powerSign (sign ++ (d :: ds ++ rest))).2 = d :: ds ++ rest := by
      rcases hsign with rfl | rfl | rfl
      · -- no sign, and a digit is none
        rw [List.nil_append, List.cons_append]
        unfold powerSign
        split
        · rename_i heq
          exact absurd hd (by rw [(List.cons.inj heq).1]; decide)
        · rename_i heq
          exact absurd hd (by rw [(List.cons.inj heq).1]; decide)
        · rfl
      · rfl
      · rfl
    rw [htail, skipPower, hpower, takeDigits_of_isDigits hds hrest.noDigit]

theorem IsNumeral.skipNumber_eq {t rest : List Char} (h : IsNumeral t) (hrest : Over rest) :
    skipNumber (t ++ rest) = .ok rest := by
  obtain ⟨hds, hzero, hf, hp⟩ := h
  rename_i ds f p
  have hnodigit : Digits.NoDigit (f ++ (p ++ rest)) := by
    rcases hf with rfl | ⟨es, -, rfl⟩
    · exact hp.noDigit_append hrest
    · exact Digits.noDigit_cons (by decide) _
  rw [List.append_assoc, List.append_assoc, skipNumber, takeDigits_of_isDigits hds hnodigit]
  split
  · rename_i heq
    exact absurd (Prod.mk.inj heq).1 hds.1
  · rename_i heq
    rw [(Prod.mk.inj heq).1] at hzero
    cases hzero rfl
  · rename_i heq
    rcases hf with rfl | ⟨es, hes, rfl⟩
    · have hpoint := (Prod.mk.inj heq).2
      rcases hp with rfl | ⟨e, sign, es, he, -, -, rfl⟩
      · rw [List.nil_append, List.nil_append] at hpoint
        rw [hpoint] at hrest
        exact absurd (hrest _ rfl) (by decide)
      · rw [List.nil_append, List.cons_append] at hpoint
        rw [(List.cons.inj hpoint).1] at he
        exact absurd he (by decide)
    · have hrest' : es ++ (p ++ rest) = _ := (List.cons.inj (Prod.mk.inj heq).2).2
      rw [← hrest', takeDigits_of_isDigits hes (hp.noDigit_append hrest)]
      split
      · rename_i heq'
        exact absurd (Prod.mk.inj heq').1 hes.1
      · rename_i heq'
        rw [← (Prod.mk.inj heq').2]
        exact hp.skipTail_eq hrest
  · rename_i hnot heq
    rw [← (Prod.mk.inj heq).2]
    rcases hf with rfl | ⟨es, -, rfl⟩
    · exact hp.skipTail_eq hrest
    · exact absurd (Prod.mk.inj heq).2.symm (hnot _)

/-! ### The stack -/

/-- Goes on with the next value if something is open. -/
def proceed : Except Fault (List Frame × List Char) → Except Fault (List Char)
  | .error e => .error e
  | .ok ([], rest) => .ok rest
  | .ok (f :: fs, rest) => skipOpen (f :: fs) rest

theorem skipOpen_eq_proceed (fs : List Frame) (s : List Char) :
    skipOpen fs s = proceed (advance fs s) := by
  rw [skipOpen_eq]
  unfold proceed
  rfl

theorem skipOpen_gaps {g : List Char} (hg : Gaps g) (fs : List Frame) (s : List Char) :
    skipOpen fs (g ++ s) = skipOpen fs s := by
  rw [skipOpen_eq_proceed, skipOpen_eq_proceed]
  unfold advance
  rw [skipGaps_append hg]

/-- Passing over the value leaves what is behind it to be settled. -/
def Passed (v : List Char) : Prop :=
  ∀ (fs : List Frame) (rest : List Char), Over rest →
    skipOpen fs (v ++ rest) = proceed (settle fs rest)

/-- A value without parts is passed over in one step. -/
theorem passed_of_advance {v : List Char}
    (h : ∀ fs rest, Over rest → advance fs (v ++ rest) = settle fs rest) : Passed v := by
  intro fs rest hrest
  rw [skipOpen_eq_proceed, h fs rest hrest]

theorem isGap_closer (f : Frame) : isGap f.closer = false := by cases f <;> decide

theorem closer_ne_comma (f : Frame) : f.closer ≠ ',' := by cases f <;> decide

theorem over_closer (f : Frame) (s : List Char) : Over (f.closer :: s) := by
  refine over_cons ?_ s
  cases f <;> decide

variable {f : Frame} {fs : List Frame} {g s rest : List Char}

theorem settle_close (hg : Gaps g) : settle (f :: fs) (g ++ f.closer :: rest) = settle fs rest := by
  rw [settle, skipGaps_append hg, skipGaps_cons (isGap_closer f)]
  simp only [if_neg (closer_ne_comma f), if_pos]

theorem settle_comma (hg : Gaps g) :
    settle (f :: fs) (g ++ ',' :: s) = (f.skipHead s).map fun s => (f :: fs, s) := by
  rw [settle, skipGaps_append hg, skipGaps_cons (by decide)]
  simp only [if_pos]

theorem enter_close (hg : Gaps g) : enter f fs (g ++ f.closer :: rest) = settle fs rest := by
  rw [enter, skipGaps_append hg, skipGaps_cons (isGap_closer f)]
  simp only [if_pos]

theorem enter_head {c : Char} (hg : Gaps g) (hc : isGap c = false) (hne : c ≠ f.closer) :
    enter f fs (g ++ c :: s) = (f.skipHead (c :: s)).map fun s => (f :: fs, s) := by
  rw [enter, skipGaps_append hg, skipGaps_cons hc]
  simp only [if_neg hne]

section

variable {α : Type} {T : α → List Char → Prop} {value : α → List Char}

/-- What stands in front of the value of an item is what the frame takes off, and the item does
not look like the end. -/
def Heads (f : Frame) (T : α → List Char → Prop) (value : α → List Char) : Prop :=
  ∀ a p, T a p → IsValue (value a) →
    (∃ c s, p = c :: s ∧ isGap c = false ∧ c ≠ f.closer) ∧
      ∀ g rest, Gaps g →
        ∃ g', Gaps g' ∧ f.skipHead (g ++ (p ++ rest)) = .ok (g' ++ (value a ++ rest))

/-- The first value inside a frame, once it has been come to. -/
theorem proceed_skipHead {a : α} {p : List Char} (hf : Heads f T value) (hp : T a p)
    (hvalue : IsValue (value a)) (hpassed : Passed (value a)) (hg : Gaps g) (hrest : Over rest) :
    proceed ((f.skipHead (g ++ (p ++ rest))).map fun s => (f :: fs, s)) =
      proceed (settle (f :: fs) rest) := by
  obtain ⟨g', hg', hhead⟩ := (hf a p hp hvalue).2 g rest hg
  rw [hhead]
  show skipOpen (f :: fs) (g' ++ (value a ++ rest)) = _
  rw [skipOpen_gaps hg', hpassed _ _ hrest]

/-- The induction is over the items that are left. -/
theorem proceed_more (hf : Heads f T value) {as : List α} {t : List Char} (ht : More T as t)
    (hvalue : ∀ a ∈ as, IsValue (value a)) (hpassed : ∀ a ∈ as, Passed (value a)) :
    proceed (settle (f :: fs) (t ++ f.closer :: rest)) = proceed (settle fs rest) := by
  induction ht with
  | nil hg => rw [settle_close hg]
  | @cons g g' p t a as hg hg' hp ht ih =>
      have hover : Over (t ++ f.closer :: rest) := ht.over (over_closer f rest)
      simp only [List.append_assoc, List.cons_append]
      rw [settle_comma hg, proceed_skipHead hf hp (hvalue a List.mem_cons_self)
        (hpassed a List.mem_cons_self) hg' hover]
      exact ih (fun b hb => hvalue b (List.mem_cons_of_mem _ hb))
        fun b hb => hpassed b (List.mem_cons_of_mem _ hb)

theorem proceed_enter (hf : Heads f T value) {as : List α} {b : List Char} (hb : Items T as b)
    (hvalue : ∀ a ∈ as, IsValue (value a)) (hpassed : ∀ a ∈ as, Passed (value a)) :
    proceed (enter f fs (b ++ f.closer :: rest)) = proceed (settle fs rest) := by
  cases hb with
  | nil hg => rw [enter_close hg]
  | @cons g p t a as hg hp ht =>
      have hover : Over (t ++ f.closer :: rest) := ht.over (over_closer f rest)
      have hvalue' := hvalue a List.mem_cons_self
      obtain ⟨c, s, rfl, hc, hne⟩ := (hf a p hp hvalue').1
      have hhead : proceed ((f.skipHead ([] ++ (c :: s ++ (t ++ f.closer :: rest)))).map
          fun s => (f :: fs, s)) = proceed (settle (f :: fs) (t ++ f.closer :: rest)) :=
        proceed_skipHead hf hp hvalue' (hpassed a List.mem_cons_self) gaps_nil hover
      simp only [List.append_assoc, List.cons_append]
      rw [enter_head hg hc hne]
      refine hhead.trans (proceed_more hf ht (fun b hb => hvalue b (List.mem_cons_of_mem _ hb))
        fun b hb => hpassed b (List.mem_cons_of_mem _ hb))

end

theorem heads_list : Heads .list (· = ·) id := by
  rintro v p rfl hv
  obtain ⟨c, s, hs, hc, hne⟩ := hv.exists_cons
  exact ⟨⟨c, s, hs, hc, hne⟩, fun g rest hg => ⟨g, hg, rfl⟩⟩

theorem Key.isLiteral {name : Option (List Char)} {k : List Char} (h : Key name k) :
    IsLiteral k := by
  cases h with
  | named hk => exact hk.isLiteral
  | nameless hk _ => exact hk

theorem heads_object : Heads .object MemberText Member.value := by
  rintro m p ⟨hk, hg, hg'⟩ -
  rename_i k g g'
  refine ⟨⟨_, _, rfl, by decide, by decide⟩, fun g'' rest hg'' => ⟨g', hg', ?_⟩⟩
  have hkey := hk.isLiteral.skipText_eq (g ++ ':' :: (g' ++ (m.value ++ rest)))
  simp only [quotedText, List.cons_append, List.append_assoc, List.nil_append]
  simp only [Frame.skipHead, skipGaps_append hg'', skipGaps_cons (c := '"') (by decide), hkey, bind,
    Except.bind, skipGaps_append hg, skipGaps_cons (c := ':') (by decide)]
  rfl

/-! ### Values -/

theorem advance_cons {c : Char} (h : isGap c = false) (fs : List Frame) (s : List Char) :
    advance fs (c :: s) =
      if c = '[' then enter .list fs s
      else if c = '\x7b' then enter .object fs s
      else if c = '"' then do settle fs (← skipText s)
      else if c = '-' then do settle fs (← skipNumber s)
      else if Digits.isDigit c then do settle fs (← skipNumber (c :: s))
      else if c = 'n' then do settle fs (← takeWord ['u', 'l', 'l'] s)
      else if c = 't' then do settle fs (← takeWord ['r', 'u', 'e'] s)
      else if c = 'f' then do settle fs (← takeWord ['a', 'l', 's', 'e'] s)
      else .error .noValue := by
  unfold advance
  rw [skipGaps_cons h]

theorem advance_digit {c : Char} (h : Digits.isDigit c = true) (fs : List Frame) (s : List Char) :
    advance fs (c :: s) = (do settle fs (← skipNumber (c :: s))) := by
  have hne : ∀ d, Digits.isDigit d = false → c ≠ d := by
    rintro d hd rfl
    rw [h] at hd
    cases hd
  rw [advance_cons (not_isGap_of_isDigit h), if_neg (hne _ (by decide)), if_neg (hne _ (by decide)),
    if_neg (hne _ (by decide)), if_neg (hne _ (by decide)), if_pos h]

/-- **Every value is passed over to its end.** -/
theorem IsValue.passed {v : List Char} (h : IsValue v) : Passed v := by
  induction h with
  | null => exact passed_of_advance fun _ _ _ => rfl
  | flag b => cases b <;> exact passed_of_advance fun _ _ _ => rfl
  | number ht =>
      refine passed_of_advance fun fs rest hrest => ?_
      have hskip := ht.skipNumber_eq hrest
      obtain ⟨c, s, rfl, hc⟩ := ht.exists_cons
      rw [List.cons_append] at hskip ⊢
      rw [advance_digit hc, hskip]
      rfl
  | @minus t ht =>
      refine passed_of_advance fun fs rest hrest => ?_
      show (do settle fs (← skipNumber (t ++ rest))) = _
      rw [ht.skipNumber_eq hrest]
      rfl
  | @text k hk =>
      refine passed_of_advance fun fs rest hrest => ?_
      have hskip := hk.skipText_eq rest
      show (do settle fs (← skipText (k ++ ['"'] ++ rest))) = _
      rw [List.append_assoc, List.singleton_append, hskip]
      rfl
  | list ht hv ih =>
      obtain ⟨b, hb, rfl⟩ := ht
      intro fs rest _
      rw [skipOpen_eq_proceed]
      show proceed (enter .list fs (b ++ [']'] ++ rest)) = _
      rw [List.append_assoc]
      exact proceed_enter heads_list hb hv ih
  | object ht hv ih =>
      obtain ⟨b, hb, rfl⟩ := ht
      intro fs rest _
      rw [skipOpen_eq_proceed]
      show proceed (enter .object fs (b ++ ['\x7d'] ++ rest)) = _
      rw [List.append_assoc]
      exact proceed_enter heads_object hb hv ih

theorem IsValue.skipValue_eq {v rest : List Char} (h : IsValue v) (hrest : Over rest) :
    skipValue (v ++ rest) = .ok rest :=
  h.passed [] rest hrest

/-! ### What is read is what is passed over -/

/-- A pair of halves is one escape to the one and two to the other. -/
theorem skipText_of_readEscape {s : List Char} {c : Char} {n : Nat}
    (h : readEscape s = .ok (c, n)) : skipText ('\\' :: s) = skipText (s.drop n) := by
  unfold readEscape at h
  split at h
  · cases h
  · rename_i s
    obtain ⟨m, hm, h⟩ := ok_of_bind h
    rw [skipText_unit hm]
    split at h
    · cases h
    split at h
    · split at h
      · cases h
      · cases h
      · rename_i s' hs'
        obtain ⟨m', hm', h⟩ := ok_of_bind h
        split at h
        · obtain ⟨-, rfl⟩ := Prod.mk.inj (Except.ok.inj h)
          have hdrop : s.drop 10 = s'.drop 4 := by
            rw [show 10 = 4 + 6 from rfl, ← List.drop_drop, hs']
            rfl
          rw [hs', skipText_unit hm', List.drop_succ_cons, hdrop]
        · cases h
      · cases h
    · cases h
      rw [List.drop_succ_cons]
  · split at h
    · rename_i hletter
      cases h
      exact skipText_letter hletter _
    · cases h

theorem skipText_of_readText {s t rest : List Char} (h : readText s = .ok (t, rest)) :
    skipText s = .ok rest := by
  fun_induction readText s generalizing t rest with
  | case1 => cases h
  | case2 s =>
      cases h
      rw [skipText, if_pos rfl]
  | case3 s _ ih =>
      obtain ⟨⟨d, n⟩, hescape, h⟩ := ok_of_bind h
      obtain ⟨_, hread, h⟩ := ok_of_bind h
      cases h
      exact (skipText_of_readEscape hescape).trans (ih n hread)
  | case4 => cases h
  | case5 c s hquote hback hcontrol ih =>
      obtain ⟨_, hread, h⟩ := ok_of_bind h
      cases h
      rw [skipText, if_neg hquote, if_neg hback, if_neg hcontrol]
      exact ih hread

section

variable {negative : Bool} {n left : Nat} {power : Int} {s rest : List Char} {x : Number}

theorem skipPower_of_readPower (h : readPower negative n power s = .ok (x, rest)) :
    skipPower s = .ok rest := by
  simp only [readPower] at h
  unfold skipPower
  split at h
  · cases h
  · cases h
  · rename_i ds rest' _ hne heq
    have hrest : rest' = rest := by
      split at h
      · split at h
        · cases h
        · cases h
          rfl
      · obtain ⟨_, -, h⟩ := ok_of_map h
        exact (Prod.mk.inj h).2
    rw [heq, ← hrest]
    split
    · rename_i heq'
      exact (hne (Prod.mk.inj heq').1).elim
    · rename_i heq'
      rw [(Prod.mk.inj heq').2]

theorem skipTail_of_readTail (h : readTail negative n power s = .ok (x, rest)) :
    skipTail s = .ok rest := by
  unfold readTail at h
  unfold skipTail
  split at h
  · exact skipPower_of_readPower h
  · exact skipPower_of_readPower h
  · obtain ⟨_, -, h⟩ := ok_of_map h
    rw [(Prod.mk.inj h).2]

/-- A fraction has digits, and the number goes on behind them. -/
theorem skipTail_of_readFraction (h : readFraction negative n power s = .ok (x, rest)) :
    ∃ ds rest', ds ≠ [] ∧ takeDigits s = (ds, rest') ∧ skipTail rest' = .ok rest := by
  unfold readFraction at h
  split at h
  · cases h
  · cases h
  · rename_i ds rest' _ hne heq
    exact ⟨ds, rest', hne, heq, skipTail_of_readTail h⟩

theorem skipTail_of_readRest (hs : ∀ t, s ≠ '.' :: t)
    (h : readRest negative n left s = .ok (x, rest)) : skipTail s = .ok rest := by
  unfold readRest at h
  unfold skipTail
  split at h
  · exact absurd rfl (hs _)
  · exact skipPower_of_readPower h
  · exact skipPower_of_readPower h
  · rename_i _ he hE
    obtain ⟨_, -, h⟩ := ok_of_map h
    split
    · exact (he _ rfl).elim
    · exact (hE _ rfl).elim
    · rw [(Prod.mk.inj h).2]

theorem skipNumber_of_readNumber (h : readNumber negative s = .ok (x, rest)) :
    skipNumber s = .ok rest := by
  unfold readNumber at h
  unfold skipNumber
  split at h
  · cases h
  · cases h
  · cases h
  · rename_i ds rest' _ hne hzero heq
    rw [heq]
    split
    · rename_i heq'
      exact (hne (Prod.mk.inj heq').1).elim
    · rename_i heq'
      exact (hzero _ _ (Prod.mk.inj heq').1).elim
    · rename_i heq'
      rw [(Prod.mk.inj heq').2] at h
      obtain ⟨es, rest'', hes, htake, htail⟩ := skipTail_of_readFraction h
      rw [htake]
      split
      · rename_i heq''
        exact absurd (Prod.mk.inj heq'').1 hes
      · rename_i heq''
        rw [← (Prod.mk.inj heq'').2, htail]
    · rename_i hpoint heq'
      obtain ⟨rfl, rfl⟩ := Prod.mk.inj heq'
      exact skipTail_of_readRest (fun t ht => hpoint t ht) h

end

/-! ### Readers -/

namespace Reader

variable {α β : Type}

/-- A value that is read is read to its end. -/
def Passes (r : Reader α) : Prop := ∀ s a rest, r.run s = .ok (a, rest) → skipValue s = .ok rest

/-- A value that is refused is not read. -/
theorem passes_refuse (wanted : String) : (refuse wanted : Reader α).Passes :=
  fun s a rest hrun => (yields_refuse (P := fun _ => False) wanted s a rest hrun).elim

theorem Passes.map {r : Reader α} (h : r.Passes) (f : α → β) :
    Passes (r >>= fun a => pure (f a)) := by
  intro s b rest hrun
  obtain ⟨a, t, hfirst, hrun⟩ := ok_of_run_bind hrun
  cases hrun
  exact h s a rest hfirst

/-- A reader that starts with a look at the next character starts where it stands. -/
theorem passes_peek {f : Option Char → Reader α}
    (hnone : ∀ a rest, (f none).run [] = .ok (a, rest) → skipValue [] = .ok rest)
    (hsome : ∀ c s a rest, isGap c = false → (f (some c)).run (c :: s) = .ok (a, rest) →
      skipValue (c :: s) = .ok rest) : Passes (peek >>= f) := by
  intro s a rest hrun
  replace hrun : (f (skipGaps s).head?).run (skipGaps s) = .ok (a, rest) := hrun
  have hskip : skipValue s = skipValue (skipGaps s) := by
    have hsplit : s.takeWhile isGap ++ skipGaps s = s := List.takeWhile_append_dropWhile
    have hgaps : Gaps (s.takeWhile isGap) := List.all_eq_true.mp List.all_takeWhile
    have hmoved := skipOpen_gaps hgaps [] (skipGaps s)
    rwa [hsplit] at hmoved
  rw [hskip]
  cases hs : skipGaps s with
  | nil =>
      rw [hs] at hrun
      exact hnone a rest hrun
  | cons c t =>
      rw [hs] at hrun
      have hc : isGap c = false := by
        have hhead := List.head?_dropWhile_not isGap s
        rw [show s.dropWhile isGap = c :: t from hs] at hhead
        exact hhead
      exact hsome c t a rest hc hrun

/-- The rest of a word, behind its first letter. -/
theorem takeWord_of_run {c : Char} {w s rest : List Char} {a b : α}
    (h : (do skip; word w; return a : Reader α).run (c :: s) = .ok (b, rest)) :
    takeWord w s = .ok rest := by
  obtain ⟨_, t, hskip, h⟩ := ok_of_run_bind h
  cases hskip
  obtain ⟨_, t, hword, h⟩ := ok_of_run_bind h
  cases h
  obtain ⟨t, htake, ht⟩ := ok_of_map hword
  cases ht
  exact htake

/-- A value that is passed over in one step ends where the step does. -/
theorem skipValue_of_advance {s rest : List Char} {r : Except Fault (List Char)}
    (h : r = .ok rest) (hstep : advance [] s = (do settle [] (← r))) :
    skipValue s = .ok rest := by
  rw [skipValue, skipOpen_eq_proceed, hstep, h]
  rfl

theorem passes_flag (wanted : String) : (flag wanted).Passes := by
  refine passes_peek (fun a rest => passes_refuse wanted [] a rest) fun c s a rest _ hrun => ?_
  split at hrun
  · rename_i heq
    cases heq
    exact skipValue_of_advance (takeWord_of_run hrun) rfl
  · rename_i heq
    cases heq
    exact skipValue_of_advance (takeWord_of_run hrun) rfl
  · exact passes_refuse wanted _ _ _ hrun

/-- Looking at a number takes nothing off the text. -/
theorem rest_of_check {lo hi : Int} {wanted : String} {n : Number} {s rest : List Char} {k : Int}
    (h : (match n with
      | .whole n => if lo ≤ n ∧ n ≤ hi then pure n else fault (.outOfRange n wanted)
      | n => fault (.wrongKind (.number n) wanted) : Reader Int).run s = .ok (k, rest)) :
    s = rest := by
  split at h
  · split at h
    · cases h
      rfl
    · cases h
  · cases h

theorem passes_whole (lo hi : Int) (wanted : String) : (whole lo hi wanted).Passes := by
  refine passes_peek (fun _ _ hrun => nomatch hrun) fun c s a rest _ hrun => ?_
  split at hrun
  · rename_i heq
    cases heq
    obtain ⟨_, t, hskip, hrun⟩ := ok_of_run_bind hrun
    cases hskip
    obtain ⟨n, t, hnumber, hrun⟩ := ok_of_run_bind hrun
    cases rest_of_check hrun
    exact skipValue_of_advance (skipNumber_of_readNumber hnumber) rfl
  · rename_i heq
    cases heq
    split at hrun
    · rename_i hdigit
      obtain ⟨n, t, hnumber, hrun⟩ := ok_of_run_bind hrun
      cases rest_of_check hrun
      exact skipValue_of_advance (skipNumber_of_readNumber hnumber) (advance_digit hdigit [] s)
    · exact passes_refuse wanted _ _ _ hrun
  · rename_i heq
    cases heq

theorem passes_quoted (wanted : String) : (quoted wanted).Passes := by
  refine passes_peek (fun a rest => passes_refuse wanted [] a rest) fun c s a rest _ hrun => ?_
  split at hrun
  · rename_i heq
    cases heq
    obtain ⟨_, t, hskip, hrun⟩ := ok_of_run_bind hrun
    cases hskip
    exact skipValue_of_advance (skipText_of_readText hrun) rfl
  · exact passes_refuse wanted _ _ _ hrun

theorem passes_optional {r : Reader α} (h : r.Passes) : (optional r).Passes := by
  have hmap := h.map some
  refine passes_peek (fun a rest => hmap [] a rest) fun c s a rest _ hrun => ?_
  split at hrun
  · rename_i heq
    cases heq
    exact skipValue_of_advance (takeWord_of_run hrun) rfl
  · exact hmap _ _ _ hrun

theorem passes_ignored : ignored.Passes := by
  intro s a rest hrun
  obtain ⟨t, hskip, ht⟩ := ok_of_map hrun
  cases ht
  exact hskip

end Reader

end Document

end Rollover
