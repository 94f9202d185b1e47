/-
A manual clock adds up its moves.

The clock keeps a count of milliseconds in a cell, and three things on the way from its
moves to its reading lose something.  An instant that it is set to is rounded down to a
millisecond, and a move is cut toward zero, each at once and once for all, so neither
depends on what else is done.  The count stops at the ends of the cell.  And the reading
stops at the ends of the calendar, but only the reading: the count goes on outside, a
thousand times as far as the calendar reaches.

So as long as the count stays in its cell it is a plain sum.  The order of the moves then
makes no difference, and a clock that was moved out of the calendar is back where it was as
soon as its moves cancel.  A move and the same move back always cancel, because a cut
toward zero treats both alike.

Past the ends of the cell a sum is cut off, and the order matters.  What is left is that a
move forward never makes the count smaller, so the clock never goes back by a second.  It
may go back by less: behind the last millisecond of the calendar the last whole second is
shown.
-/
import Mathlib
import Rollover.Proofs.RefreshLoop

namespace Rollover

/-! ### Reading a count of milliseconds -/

namespace Instant

/-- What is shown of a count of milliseconds: its instant, or the first or the last whole second if
the calendar does not have it. -/
structure Shows (m : Int) (t : Instant) : Prop where
  inside : InCalendar (m / 1000) → t.totalNanos = m * 1000000
  before : m / 1000 < first → t = .ofSeconds first
  after : last < m / 1000 → t = .ofSeconds last

theorem ofMillis_of_not_inCalendar {m : Int} (h : ¬ InCalendar (m / 1000)) :
    ofMillis m = ofSeconds (m / 1000) := dif_neg h

theorem shows_ofMillis (m : Int) : Shows m (ofMillis m) := by
  refine ⟨totalNanos_ofMillis, ?_, ?_⟩
  · intro h
    rw [ofMillis_of_not_inCalendar fun hin => absurd hin.1 (Int.not_le.mpr h)]
    exact ofSeconds_of_lt_first h
  · intro h
    rw [ofMillis_of_not_inCalendar fun hin => absurd hin.2 (Int.not_le.mpr h)]
    exact ofSeconds_of_last_lt h

/-- The second that is shown is the nearest one of the calendar, in it and outside. -/
theorem secs_ofMillis (m : Int) : (ofMillis m).secs = (ofSeconds (m / 1000)).secs := by
  by_cases h : InCalendar (m / 1000)
  · obtain ⟨lo, hi⟩ := h
    rw [ofMillis, dif_pos ⟨lo, hi⟩, secs_ofSeconds lo hi]
  · rw [ofMillis_of_not_inCalendar h]

theorem secs_ofMillis_le {m n : Int} (h : m ≤ n) : (ofMillis m).secs ≤ (ofMillis n).secs := by
  rw [secs_ofMillis, secs_ofMillis]
  exact secs_ofSeconds_le (Int.ediv_le_ediv (by decide) h)

theorem millis_eq (t : Instant) : t.millis = t.totalNanos / 1000000 := by
  unfold millis totalNanos
  omega

theorem fits_millis (t : Instant) : Word.Fits t.millis := by
  have hlo := t.first_le
  have hhi := t.le_last
  have hlt := t.nanos_lt
  unfold first at hlo
  unfold last at hhi
  unfold Word.Fits Word.least Word.greatest millis
  omega

end Instant

/-! ### Moves -/

namespace Span

/-- The same span in the other direction. -/
def back (d : Span) : Span :=
  ⟨-d.nanos, by have := d.le_limit; omega, by have := d.neg_limit_le; omega⟩

theorem wholeMillis_eq_tdiv (d : Span) : d.wholeMillis = d.nanos.tdiv 1000000 :=
  cut_eq_tdiv 1000000 d.nanos

theorem wholeMillis_back (d : Span) : d.back.wholeMillis = -d.wholeMillis := by
  rw [wholeMillis_eq_tdiv, wholeMillis_eq_tdiv]
  exact Int.neg_tdiv _ _

theorem wholeMillis_nonneg {d : Span} (h : 0 ≤ d.nanos) : 0 ≤ d.wholeMillis := by
  rw [wholeMillis_eq_tdiv]
  exact Int.tdiv_nonneg h (by decide)

theorem wholeMillis_nonpos {d : Span} (h : d.nanos ≤ 0) : d.wholeMillis ≤ 0 := by
  have hback : 0 ≤ d.back.wholeMillis := wholeMillis_nonneg (Int.neg_nonneg_of_nonpos h)
  rw [wholeMillis_back] at hback
  omega

/-- The milliseconds of some spans together, each cut toward zero by itself. -/
def sumMillis (ds : List Span) : Int := (ds.map fun d => d.nanos.tdiv 1000000).sum

@[simp] theorem sumMillis_nil : sumMillis [] = 0 := rfl

@[simp] theorem sumMillis_cons (d : Span) (ds : List Span) :
    sumMillis (d :: ds) = d.wholeMillis + sumMillis ds := by
  rw [sumMillis, List.map_cons, List.sum_cons, wholeMillis_eq_tdiv, sumMillis]

/-- Counted from `m`, the milliseconds of these spans have a cell before and after each of them. -/
def StayInCell (m : Int) (ds : List Span) : Prop :=
  ∀ before, before <+: ds → Word.Fits (m + sumMillis before)

instance (m : Int) (ds : List Span) : Decidable (StayInCell m ds) :=
  decidable_of_iff (∀ before ∈ ds.inits, Word.Fits (m + sumMillis before)) <| by
    simp only [List.mem_inits, StayInCell]

theorem StayInCell.fits {m : Int} {ds : List Span} (h : StayInCell m ds) : Word.Fits m := by
  simpa using h [] List.nil_prefix

theorem stayInCell_cons {m : Int} {d : Span} {ds : List Span} :
    StayInCell m (d :: ds) ↔ Word.Fits m ∧ StayInCell (m + d.wholeMillis) ds := by
  constructor
  · intro h
    refine ⟨h.fits, ?_⟩
    intro before hbefore
    have hd := h (d :: before) (List.cons_prefix_cons.mpr ⟨rfl, hbefore⟩)
    rwa [sumMillis_cons, ← Int.add_assoc] at hd
  · rintro ⟨hm, h⟩ before hbefore
    rcases List.prefix_cons_iff.mp hbefore with rfl | ⟨rest, rfl, hrest⟩
    · simpa using hm
    · rw [sumMillis_cons, ← Int.add_assoc]
      exact h rest hrest

theorem StayInCell.of_append {m : Int} {ds es : List Span} (h : StayInCell m (ds ++ es)) :
    StayInCell m ds ∧ StayInCell (m + sumMillis ds) es := by
  refine ⟨fun before hbefore => h before (hbefore.trans (List.prefix_append ds es)), ?_⟩
  intro before hbefore
  have hall := h (ds ++ before) ((List.prefix_append_right_inj ds).mpr hbefore)
  rwa [sumMillis, List.map_append, List.sum_append, ← Int.add_assoc] at hall

end Span

namespace ManualClock

/-- The clock after some moves, one after the other. -/
def advanceAll (c : ManualClock) (ds : List Span) : ManualClock := ds.foldl advance c

@[simp] theorem advanceAll_nil (c : ManualClock) : c.advanceAll [] = c := rfl

@[simp] theorem advanceAll_cons (c : ManualClock) (d : Span) (ds : List Span) :
    c.advanceAll (d :: ds) = (c.advance d).advanceAll ds := rfl

theorem advanceAll_append (c : ManualClock) (ds es : List Span) :
    c.advanceAll (ds ++ es) = (c.advanceAll ds).advanceAll es := List.foldl_append

/-! ### Inside the cell -/

theorem advance_of_fits {c : ManualClock} {d : Span} (h : Word.Fits (c.millis + d.wholeMillis)) :
    c.advance d = { c with millis := c.millis + d.wholeMillis } := by
  rw [advance, Word.add_eq_of_fits h]

/-- **As long as it stays in its cell, the count is the sum of the moves.** -/
theorem advanceAll_eq {c : ManualClock} {ds : List Span} (h : Span.StayInCell c.millis ds) :
    c.advanceAll ds = { c with millis := c.millis + Span.sumMillis ds } := by
  induction ds generalizing c with
  | nil => rw [advanceAll_nil, Span.sumMillis_nil, Int.add_zero]
  | cons d ds ih =>
      obtain ⟨-, hrest⟩ := Span.stayInCell_cons.mp h
      rw [advanceAll_cons, advance_of_fits hrest.fits, ih hrest, Span.sumMillis_cons, Int.add_assoc]

/-- The same moves in another order lead to the same clock. -/
theorem advanceAll_eq_of_perm {c : ManualClock} {ds es : List Span} (hp : ds.Perm es)
    (hd : Span.StayInCell c.millis ds) (he : Span.StayInCell c.millis es) :
    c.advanceAll es = c.advanceAll ds := by
  rw [advanceAll_eq hd, advanceAll_eq he, Span.sumMillis, Span.sumMillis, (hp.map _).sum_eq]

/-- Moves that cancel leave the clock as it was, wherever they have led it in between. -/
theorem advanceAll_eq_self {c : ManualClock} {ds : List Span} (h : Span.StayInCell c.millis ds)
    (hsum : Span.sumMillis ds = 0) : c.advanceAll ds = c := by
  rw [advanceAll_eq h, hsum, Int.add_zero]

theorem advance_back {c : ManualClock} {d : Span} (hc : Word.Fits c.millis)
    (hd : Word.Fits (c.millis + d.wholeMillis)) : (c.advance d).advance d.back = c := by
  have hsum : c.millis + d.wholeMillis + d.back.wholeMillis = c.millis := by
    rw [Span.wholeMillis_back]
    omega
  rw [advance_of_fits hd, advance_of_fits (by rwa [hsum])]
  simp only [hsum]

/-- Moves that are taken back, the last one first, leave the clock as it was. -/
theorem advanceAll_back {c : ManualClock} {ds : List Span} (h : Span.StayInCell c.millis ds) :
    c.advanceAll (ds ++ (ds.map Span.back).reverse) = c := by
  induction ds generalizing c with
  | nil => rfl
  | cons d ds ih =>
      obtain ⟨hc, hrest⟩ := Span.stayInCell_cons.mp h
      have hd : (c.advance d).advanceAll (ds ++ (ds.map Span.back).reverse) = c.advance d := by
        refine ih ?_
        rw [advance_of_fits hrest.fits]
        exact hrest
      rw [List.map_cons, List.reverse_cons, List.cons_append, ← List.append_assoc, advanceAll_cons,
        advanceAll_append, hd]
      exact advance_back hc hrest.fits

/-! ### At the ends of the cell -/

/-- One move after the other, the count is cut off whenever it leaves its cell. -/
theorem millis_advanceAll (c : ManualClock) (ds : List Span) :
    (c.advanceAll ds).millis =
      ds.foldl (fun m d => Word.clamp (m + d.nanos.tdiv 1000000)) c.millis := by
  induction ds generalizing c with
  | nil => rfl
  | cons d ds ih =>
      rw [advanceAll_cons, ih, List.foldl_cons, ← Span.wholeMillis_eq_tdiv]
      rfl

theorem fits_advanceAll {c : ManualClock} (h : Word.Fits c.millis) (ds : List Span) :
    Word.Fits (c.advanceAll ds).millis := by
  induction ds generalizing c with
  | nil => exact h
  | cons d ds ih => exact ih (Word.fits_clamp _)

/-- A move forward never leads to an earlier second, and a move back never to a later one. -/
theorem secs_now_advance {c : ManualClock} (h : Word.Fits c.millis) (d : Span) :
    (0 ≤ d.nanos → c.now.secs ≤ (c.advance d).now.secs) ∧
      (d.nanos ≤ 0 → (c.advance d).now.secs ≤ c.now.secs) := by
  have hself : c.millis = Word.clamp c.millis := (Word.clamp_eq_self h).symm
  refine ⟨fun hd => Instant.secs_ofMillis_le ?_, fun hd => Instant.secs_ofMillis_le ?_⟩
  · have hmillis := Span.wholeMillis_nonneg hd
    calc c.millis = Word.clamp c.millis := hself
      _ ≤ Word.clamp (c.millis + d.wholeMillis) := Word.clamp_le_clamp (by omega)
  · have hmillis := Span.wholeMillis_nonpos hd
    calc Word.clamp (c.millis + d.wholeMillis) ≤ Word.clamp c.millis :=
          Word.clamp_le_clamp (by omega)
      _ = c.millis := hself.symm

/-! ### From an instant on -/

/-- The clock has just been made at an instant, or set to it. -/
inductive StandsAt (t : Instant) : ManualClock → Prop
  | made (name : String) : StandsAt t (startingAt t name)
  | set (c : ManualClock) : StandsAt t (c.setTime t)

theorem StandsAt.millis {c : ManualClock} {t : Instant} (h : c.StandsAt t) :
    c.millis = t.totalNanos / 1000000 := by
  rw [← t.millis_eq]
  cases h with
  | made name => rfl
  | set c => rfl

/--
**A manual clock depends on the sum of its moves.**  Let it be made at an instant, or set
to it, and then moved any number of times.  As long as the count of milliseconds keeps to
its cell, it is that of the instant, rounded down, and of all moves together, each cut
toward zero; the clock shows it if the calendar has it, and else the nearest whole second.
So the order of the moves makes no difference, and the clock is back where it was after
moves that cancel, or that are taken back one by one, however far it has been outside.
Whether it keeps to its cell or not, the count is cut off move by move, and a move forward
never leads to an earlier second, nor a move back to a later one.
-/
theorem moves_add_up {c : ManualClock} {t : Instant} (hc : c.StandsAt t) (ds : List Span) :
    let m := t.totalNanos / 1000000
    (Span.StayInCell m ds → Instant.Shows (m + Span.sumMillis ds) (c.advanceAll ds).now ∧
      ∀ es, ds.Perm es → Span.StayInCell m es → c.advanceAll es = c.advanceAll ds) ∧
    (∀ es, Span.StayInCell m (ds ++ es) →
      (Span.sumMillis es = 0 → c.advanceAll (ds ++ es) = c.advanceAll ds) ∧
        c.advanceAll (ds ++ es ++ (es.map Span.back).reverse) = c.advanceAll ds) ∧
    (c.advanceAll ds).millis = ds.foldl (fun k d => Word.clamp (k + d.nanos.tdiv 1000000)) m ∧
    ∀ d, (0 ≤ d.nanos → (c.advanceAll ds).now.secs ≤ ((c.advanceAll ds).advance d).now.secs) ∧
      (d.nanos ≤ 0 → ((c.advanceAll ds).advance d).now.secs ≤ (c.advanceAll ds).now.secs) := by
  intro m
  have hm : c.millis = m := hc.millis
  refine ⟨?_, ?_, ?_, ?_⟩
  · intro hds
    rw [← hm] at hds ⊢
    refine ⟨?_, fun es hp hes => advanceAll_eq_of_perm hp hds hes⟩
    rw [advanceAll_eq hds]
    exact Instant.shows_ofMillis _
  · intro es h
    rw [← hm] at h
    obtain ⟨hds, hes⟩ := h.of_append
    -- The clock after the first moves is where the others begin.
    have hstart : Span.StayInCell (c.advanceAll ds).millis es := by
      rw [advanceAll_eq hds]
      exact hes
    refine ⟨?_, ?_⟩
    · intro hsum
      rw [advanceAll_append]
      exact advanceAll_eq_self hstart hsum
    · rw [List.append_assoc, advanceAll_append]
      exact advanceAll_back hstart
  · rw [← hm]
    exact millis_advanceAll c ds
  · have hfits : Word.Fits c.millis := by
      rw [hc.millis, ← t.millis_eq]
      exact t.fits_millis
    exact secs_now_advance (fits_advanceAll hfits ds)

/-- Two milliseconds back, but for a nanosecond. -/
def justShort : Span := ⟨-1999999, by decide, by decide⟩

/-- Ten million million seconds, which lead from 1970 out of the calendar. -/
def farAhead : Span := .ofSeconds 10000000000000

/-- The longest span of all. -/
def longest : Span := ⟨9223372036854775807000000, by decide, by decide⟩

/-- A clock that was moved away and then set to less than a millisecond before 1970. -/
def newYear : ManualClock := ((startingAt (.ofSeconds 86400)).advance farAhead).setTime
  ⟨-1, 999600000, by decide, by decide, by decide⟩

/-- The clock starts a millisecond before 1970 and is moved to the one before that, and then out of
the calendar; in the other order it comes to the same, and moved back it is where it was.  Of two
longest spans the second is cut off, so a third one back leads to 1970 and not to their sum. -/
theorem moves_add_up_newYear :
    newYear.StandsAt ⟨-1, 999600000, by decide, by decide, by decide⟩ ∧
      Span.StayInCell (-1) [justShort, farAhead] ∧ Span.StayInCell (-1) [farAhead, justShort] ∧
      (newYear.advanceAll [justShort]).now.totalNanos = -2000000 ∧
      (newYear.advanceAll [justShort, farAhead]).now = .ofSeconds Instant.last ∧
      newYear.advanceAll [farAhead, justShort] = newYear.advanceAll [justShort, farAhead] ∧
      newYear.advanceAll [justShort, farAhead, farAhead.back] = newYear.advanceAll [justShort] ∧
      ¬ Span.StayInCell (-1) [longest, longest] ∧
      (newYear.advanceAll [longest, longest, longest.back]).millis = 0 ∧
      ((newYear.advanceAll [longest, longest]).advance longest.back).now.secs ≤
        (newYear.advanceAll [longest, longest]).now.secs := by
  have hc : newYear.StandsAt ⟨-1, 999600000, by decide, by decide, by decide⟩ := .set _
  have hin : Span.StayInCell (-1) [justShort, farAhead] := by decide
  have hswap : Span.StayInCell (-1) [farAhead, justShort] := by decide
  obtain ⟨hone, hback, -, -⟩ := moves_add_up hc [justShort]
  obtain ⟨htwo, -, -, -⟩ := moves_add_up hc [justShort, farAhead]
  obtain ⟨-, -, -, hsecs⟩ := moves_add_up hc [longest, longest]
  obtain ⟨-, -, hcut, -⟩ := moves_add_up hc [longest, longest, longest.back]
  refine ⟨hc, hin, hswap, ?_, ?_, ?_, ?_, by decide, ?_, ?_⟩
  · exact (hone (by decide)).1.inside (by decide)
  · exact (htwo hin).1.after (by decide)
  · exact (htwo hin).2 _ (List.Perm.swap _ _ _) hswap
  · exact (hback [farAhead] hin).2
  · exact hcut.trans (by decide)
  · exact (hsecs longest.back).2 (by decide)

/-- Where sums are cut off, the order of the moves does make a difference. -/
example : newYear.advanceAll [longest, longest.back, longest] ≠
    newYear.advanceAll [longest, longest, longest.back] := by decide

end ManualClock

end Rollover
