/-
An offset in words says the same number twice.

The text begins with the seconds, as a number with its sign.  In brackets the same number is
taken apart into days, hours, minutes and seconds, of its size alone, with a minus sign put
in front of them all; so the words of an offset and of its negative differ by that sign and
by nothing else.  Hours, minutes and seconds are each less than one of the next unit, and
there is only one way to take a number apart like that.

A reader of either half gets the number back.  The first half ends at its `s`, and in the
second every amount ends at its unit, so it is enough to know which characters are no digits.
As both halves come to one number, and the text is made from that number alone, two offsets
look the same exactly if their whole seconds are.  The offsets of a clock are whole seconds,
so what a reply shows of an offset is all there is to it.
-/
import Rollover.Proofs.SetTime
import Rollover.Proofs.WrittenDigits

namespace Rollover

/-! ### Decimal numbers -/

namespace Digits

theorem ofNat_eq_toDigits (n : Nat) : ofNat n = Nat.toDigits 10 n := by
  have hdigit : ∀ d : Fin 10, ofDigit d = Nat.digitChar d := by decide
  induction n using Nat.strongRecOn with
  | ind n ih =>
      rw [ofNat, Nat.toDigits_eq_if (by decide)]
      split
      · rename_i h
        rw [hdigit ⟨n, h⟩]
      · rw [ih (n / 10) (by omega), hdigit ⟨n % 10, by omega⟩]

theorem toList_toString_nat (n : Nat) : (toString n).toList = ofNat n := by
  rw [ofNat_eq_toDigits, Nat.toString_eq_ofList_toDigits, String.toList_ofList]

theorem toList_toString_int (n : Int) : (toString n).toList = ofInt n := by
  cases n with
  | ofNat n => exact toList_toString_nat n
  | negSucc n =>
      rw [ofInt, if_pos (Int.negSucc_lt_zero n)]
      show ("-" ++ toString (n + 1)).toList = '-' :: ofNat (n + 1)
      rw [String.toList_append, toList_toString_nat]
      rfl

/-- A number of either sign has nothing in it but digits and the minus sign. -/
theorem not_mem_ofInt {c : Char} (hdigit : isDigit c = false) (hminus : c ≠ '-') (n : Int) :
    c ∉ ofInt n := by
  intro hmem
  rcases isDigit_or_minus_of_mem_ofInt hmem with h | h
  · exact absurd h (by simp [hdigit])
  · exact hminus h

end Digits

namespace OffsetText

/-! ### Taking a number of seconds apart -/

/-- Days, hours, minutes and seconds, of each but the first less than one of the unit before. -/
structure Amounts where
  days : Nat
  hours : Nat
  minutes : Nat
  seconds : Nat
  hours_lt : hours < 24
  minutes_lt : minutes < 60
  seconds_lt : seconds < 60

namespace Amounts

/-- The seconds that the amounts come to. -/
def total (a : Amounts) : Nat := 86400 * a.days + 3600 * a.hours + 60 * a.minutes + a.seconds

def ofTotal (k : Nat) : Amounts :=
  ⟨k / 86400, k % 86400 / 3600, k % 3600 / 60, k % 60, by omega, by omega, by omega⟩

theorem total_ofTotal (k : Nat) : (ofTotal k).total = k := by
  simp only [total, ofTotal]
  omega

/-- A number can be taken apart in one way only. -/
theorem eq_ofTotal {a : Amounts} {k : Nat} (h : a.total = k) : a = ofTotal k := by
  obtain ⟨days, hours, minutes, seconds, hhours, hminutes, hseconds⟩ := a
  unfold total at h
  simp only at h
  simp only [ofTotal, mk.injEq]
  omega

/-- The amounts as they are written, each with its unit. -/
def text (a : Amounts) : List Char :=
  Digits.ofNat a.days ++ 'd' :: ' ' :: (Digits.ofNat a.hours ++ 'h' :: ' ' ::
    (Digits.ofNat a.minutes ++ 'm' :: ' ' :: (Digits.ofNat a.seconds ++ ['s'])))

end Amounts

/-- The sign of a number of seconds, which only a negative one has. -/
def sign (n : Int) : String := if n < 0 then "-" else ""

/-- The text tells that there are `n` seconds, which are the amounts behind the sign. -/
structure Tells (n : Int) (a : Amounts) (s : String) : Prop where
  total : (if n < 0 then -(a.total : Int) else a.total) = n
  written : s = s!"{n}s ({sign n}{a.days}d {a.hours}h {a.minutes}m {a.seconds}s)"

theorem parts_eq (n : Int) : parts n = (sign n).toList ++ (Amounts.ofTotal n.natAbs).text := by
  have hsign : (if n < 0 then ['-'] else []) = (sign n).toList := by
    unfold sign
    split <;> rfl
  simp only [parts, hsign, Amounts.text, Amounts.ofTotal, List.append_assoc]
  rfl

theorem ofSpan_eq (d : Span) :
    ofSpan d = Digits.ofInt d.wholeSeconds ++ 's' :: ' ' :: '(' ::
      ((sign d.wholeSeconds).toList ++ (Amounts.ofTotal d.wholeSeconds.natAbs).text ++ [')']) := by
  simp only [ofSpan, parts_eq, List.append_assoc]
  rfl

theorem tells_text (d : Span) :
    Tells d.wholeSeconds (Amounts.ofTotal d.wholeSeconds.natAbs) (text d) := by
  refine ⟨?_, ?_⟩
  · rw [Amounts.total_ofTotal]
    split <;> omega
  · apply String.toList_injective
    rw [text, String.toList_ofList, ofSpan_eq]
    simp only [String.toList_append, Digits.toList_toString_nat, Digits.toList_toString_int,
      Amounts.text, List.append_assoc, List.cons_append]
    rfl

/-! ### Reading the two halves -/

/-- The number that stands in front of an `s`. -/
def inFront? (s : List Char) : Option Int := Digits.int? (s.takeWhile (· ≠ 's'))

/-- The digits in front of a unit, as a number, and what is left behind the unit. -/
def amount? (unit : Char) (s : List Char) : Option (Nat × List Char) :=
  match Digits.take s.length s with
  | (ds, c :: rest) => if c = unit then some (Digits.value ds, rest) else none
  | (_, []) => none

/-- The amounts of some units together, with one character behind each unit. -/
def total? : List (Char × Nat) → List Char → Option Nat
  | [], _ => some 0
  | (unit, size) :: units, s =>
    (amount? unit s).bind fun (k, rest) =>
      (total? units (rest.drop 1)).map (size * k + ·)

/-- The number that the amounts in brackets come to, with the sign in front of them. -/
def inBrackets? (s : List Char) : Option Int :=
  let units := [('d', 86400), ('h', 3600), ('m', 60), ('s', 1)]
  let s := s.drop 1
  if s.head? = some '-' then (total? units (s.drop 1)).map fun k : Nat => -(k : Int)
  else (total? units s).map fun k : Nat => (k : Int)

/-- Of both halves of the text, in front of the bracket and from there, each tells `n` by itself. -/
structure Recovers (s : List Char) (n : Int) : Prop where
  front : inFront? (s.takeWhile (· ≠ '(')) = some n
  back : inBrackets? (s.dropWhile (· ≠ '(')) = some n

theorem amount?_ofNat (k : Nat) {unit : Char} (hunit : Digits.isDigit unit = false)
    (s : List Char) : amount? unit (Digits.ofNat k ++ unit :: s) = some (k, s) := by
  have htake : Digits.take (Digits.ofNat k ++ unit :: s).length (Digits.ofNat k ++ unit :: s) =
      (Digits.ofNat k, unit :: s) :=
    Digits.take_append (fun _ hc => Digits.isDigit_of_mem_ofNat hc)
      (List.length_append ▸ Nat.le_add_right _ _) (Digits.noDigit_cons hunit s)
  simp only [amount?, htake, if_true, Digits.value_ofNat]

theorem total?_cons (k size : Nat) {unit : Char} (hunit : Digits.isDigit unit = false)
    (units : List (Char × Nat)) (s : List Char) :
    total? ((unit, size) :: units) (Digits.ofNat k ++ unit :: s) =
      (total? units (s.drop 1)).map (size * k + ·) := by
  rw [total?, amount?_ofNat k hunit]
  rfl

theorem total?_text (a : Amounts) (s : List Char) :
    total? [('d', 86400), ('h', 3600), ('m', 60), ('s', 1)] (a.text ++ s) = some a.total := by
  simp only [Amounts.text, List.append_assoc, List.cons_append]
  rw [total?_cons a.days 86400 (by decide), List.drop_one, List.tail_cons,
    total?_cons a.hours 3600 (by decide), List.drop_one, List.tail_cons,
    total?_cons a.minutes 60 (by decide), List.drop_one, List.tail_cons,
    total?_cons a.seconds 1 (by decide), total?]
  simp only [Option.map_some, Amounts.total]
  refine congrArg some ?_
  omega

/-- A text is cut in front of the first character of a kind. -/
theorem takeWhile_ne_append {c : Char} {s : List Char} (h : c ∉ s) (t : List Char) :
    (s ++ c :: t).takeWhile (· ≠ c) = s := by
  rw [List.takeWhile_append_of_pos fun x hx => decide_eq_true (ne_of_mem_of_not_mem hx h),
    List.takeWhile_cons_of_neg (by simp), List.append_nil]

theorem dropWhile_ne_append {c : Char} {s : List Char} (h : c ∉ s) (t : List Char) :
    (s ++ c :: t).dropWhile (· ≠ c) = c :: t := by
  rw [List.dropWhile_append_of_pos fun x hx => decide_eq_true (ne_of_mem_of_not_mem hx h),
    List.dropWhile_cons_of_neg (by simp)]

theorem inFront?_ofInt (n : Int) (s : List Char) :
    inFront? (Digits.ofInt n ++ 's' :: s) = some n := by
  rw [inFront?, takeWhile_ne_append (Digits.not_mem_ofInt (by decide) (by decide) n),
    Digits.int?_ofInt]

/-- Amounts begin with a digit, so a minus sign in front of them can be told from them. -/
theorem head?_text (a : Amounts) (s : List Char) : (a.text ++ s).head? ≠ some '-' := by
  obtain ⟨c, ds, hds⟩ := List.exists_cons_of_ne_nil (Digits.ofNat_ne_nil a.days)
  have hc : Digits.isDigit c = true := Digits.isDigit_of_mem_ofNat (hds ▸ List.mem_cons_self)
  simp only [Amounts.text, hds, List.cons_append, List.head?_cons]
  intro hminus
  exact (Digits.ne_sign_of_isDigit hc).1 (Option.some.inj hminus)

theorem inBrackets?_text (n : Int) (s : List Char) :
    inBrackets? ('(' :: ((sign n).toList ++ (Amounts.ofTotal n.natAbs).text ++ s)) = some n := by
  unfold inBrackets? sign
  by_cases hn : n < 0
  · rw [if_pos hn]
    show (total? _ ((Amounts.ofTotal n.natAbs).text ++ s)).map (fun k : Nat => -(k : Int)) = some n
    rw [total?_text, Amounts.total_ofTotal, Option.map_some, Option.some.injEq]
    omega
  · rw [if_neg hn]
    show (if ((Amounts.ofTotal n.natAbs).text ++ s).head? = some '-' then _ else
      (total? _ ((Amounts.ofTotal n.natAbs).text ++ s)).map fun k : Nat => (k : Int)) = some n
    rw [if_neg (head?_text _ s), total?_text, Amounts.total_ofTotal, Option.map_some,
      Option.some.injEq]
    omega

theorem recovers_text (d : Span) : Recovers (text d).toList d.wholeSeconds := by
  have hnone : '(' ∉ Digits.ofInt d.wholeSeconds ++ ['s', ' '] := by
    intro hmem
    rcases List.mem_append.mp hmem with h | h
    · exact Digits.not_mem_ofInt (by decide) (by decide) _ h
    · exact absurd h (by decide)
  have hsplit : (text d).toList = Digits.ofInt d.wholeSeconds ++ ['s', ' '] ++ '(' ::
      ((sign d.wholeSeconds).toList ++ (Amounts.ofTotal d.wholeSeconds.natAbs).text ++ [')']) := by
    simp only [text, String.toList_ofList, ofSpan_eq, List.append_assoc, List.cons_append,
      List.nil_append]
  refine ⟨?_, ?_⟩
  · rw [hsplit, takeWhile_ne_append hnone, inFront?_ofInt]
  · rw [hsplit, dropWhile_ne_append hnone, inBrackets?_text]

end OffsetText

/-! ### Offsets in replies -/

theorem Span.ofSeconds_wholeSeconds_ofSeconds (n : Int) :
    ofSeconds (ofSeconds n).wholeSeconds = ofSeconds n := by
  have hcut : ofSeconds n = ofSeconds (max (-maxSeconds) (min n maxSeconds)) := by
    refine ext_nanos ?_
    simp only [ofSeconds]
    unfold maxSeconds
    omega
  rw [hcut, wholeSeconds_ofSeconds (by unfold maxSeconds; omega) (by unfold maxSeconds; omega)]

namespace OffsetText

/-- What a line of a reply shows, behind the words that say what it is. -/
def shown (line : String) : List Char := (line.toList.dropWhile (· ≠ ':')).drop 2

/-- From either half of what the line shows, the offset of the clock can be had. -/
def ShowsOffset (line : String) (c : Clock) : Prop :=
  ∃ n, Recovers (shown line) n ∧ c.offset = .ofSeconds n

theorem showsOffset_of_shown {line : String} {c : Clock}
    (h : shown line = (text c.offset).toList) : ShowsOffset line c := by
  refine ⟨c.offset.wholeSeconds, ?_, ?_⟩
  · rw [h]
    exact recovers_text c.offset
  · exact (Span.ofSeconds_wholeSeconds_ofSeconds c.offsetSecs).symm

end OffsetText

namespace Handler

/-- The second line of the answer to a request that was met shows the clock's new offset. -/
theorem lines_of_setServerTime {h : Handler} {s s' : Server} {t : CivilTime} {lines : List String}
    (hv : (h.execute s (.setServerTime t)).value = (.ok lines, s')) :
    lines[1]? = some ("Time offset: " ++ OffsetText.text s'.clock.offset) := by
  by_cases hen : h.enabled = true
  · rw [execute_of_enabled hen] at hv
    change (h.setServerTime s t).value = _ at hv
    cases ht : t.toUtc? h.zone with
    | none =>
        rw [setServerTime_out_of_calendar h s ht] at hv
        cases hv
    | some u =>
        by_cases hpast : u.before (.ofInstant s.clock.logicalNow.floor)
        · rw [setServerTime_of_before ht hpast] at hv
          cases hv
        · rw [setServerTime_of_not_before ht hpast] at hv
          obtain ⟨hreply, rfl⟩ := Prod.mk.inj hv
          cases hk : (h.moveTo s (u.since (.ofInstant s.clock.systemNow.floor))).value.1 with
          | error e =>
              rw [hk] at hreply
              cases hreply
          | ok _ =>
              rw [hk] at hreply
              cases hreply
              rfl
  · rw [execute_of_disabled hen] at hv
    cases hv

end Handler

namespace OffsetText

/--
**An offset is told faithfully, and twice.**  The text of a span has its whole seconds as a
number and, in brackets, as the only amounts behind the sign that come to it; either half
is enough to read the number back.  So two spans have the same text exactly if they have
the same whole seconds.  The first line of the answer to somebody who asks for the time,
and the second one to a request for a time that was met, show the offset that the clock
then has, and it can be had from either half of what they show.
-/
theorem either_half_tells :
    (∀ d, (∃! a, Tells d.wholeSeconds a (text d)) ∧ Recovers (text d).toList d.wholeSeconds) ∧
      (∀ d d', text d = text d' ↔ d.wholeSeconds = d'.wholeSeconds) ∧
      (∀ (h : Handler) s, h.enabled = true → ∃ lines line,
        (h.execute s .showServerTime).value = (.ok lines, s) ∧ lines[0]? = some line ∧
          ShowsOffset line s.clock) ∧
      ∀ (h : Handler) s t lines s', (h.execute s (.setServerTime t)).value = (.ok lines, s') →
        ∃ line, lines[1]? = some line ∧ ShowsOffset line s'.clock := by
  refine ⟨?_, ?_, ?_, ?_⟩
  · intro d
    refine ⟨⟨_, tells_text d, ?_⟩, recovers_text d⟩
    intro a ha
    have htotal := ha.total
    refine Amounts.eq_ofTotal ?_
    split at htotal <;> omega
  · intro d d'
    refine ⟨?_, ?_⟩
    · intro h
      have hfront := (recovers_text d).front
      rw [h, (recovers_text d').front] at hfront
      exact (Option.some.inj hfront).symm
    · intro h
      rw [text, text, ofSpan_eq, ofSpan_eq, h]
  · intro h s hen
    refine ⟨_, _, congrArg (·.value) (Handler.execute_of_enabled hen _), rfl, ?_⟩
    refine showsOffset_of_shown ?_
    rw [shown, String.toList_append]
    rfl
  · intro h s t lines s' hv
    refine ⟨_, Handler.lines_of_setServerTime hv, showsOffset_of_shown ?_⟩
    rw [shown, String.toList_append]
    rfl

/-- A minute and a half back, and half a second more. -/
def minuteAndHalfBack : Span := ⟨-90500000000, by decide, by decide⟩

/-- A minute and a half before the present second on the clocks of the eastern zone. -/
def minuteAndHalfAgo : CivilTime := ⟨28715, 0, by decide, by decide, Handler.none_lt_leapSecond⟩

/-- Half a second more makes no difference.  A clock that had sunken to the first second of the
calendar shows the longest offset back, and after a request for the time of a minute and a half ago
it shows that. -/
theorem either_half_tells_minuteAndHalf :
    Recovers "-90s (-0d 0h 1m 30s)".toList (-90) ∧
      text minuteAndHalfBack = text (.ofSeconds (-90)) ∧
      Handler.eastern.enabled = true ∧
      (∃ lines line, (Handler.eastern.execute Handler.sunken .showServerTime).value =
        (.ok lines, Handler.sunken) ∧ lines[0]? = some line ∧
          ShowsOffset line Handler.sunken.clock) ∧
      ∃ lines s' line,
        (Handler.eastern.execute Handler.sunken (.setServerTime minuteAndHalfAgo)).value =
          (.ok lines, s') ∧ lines[1]? = some line ∧ ShowsOffset line s'.clock ∧
          line = "Time offset: -90s (-0d 0h 1m 30s)" := by
  obtain ⟨htells, hiff, hshow, hset⟩ := either_half_tells
  have htext : text minuteAndHalfBack = "-90s (-0d 0h 1m 30s)" := by decide +kernel
  refine ⟨?_, ?_, rfl, hshow _ _ rfl, ?_⟩
  · rw [← htext]
    exact (htells minuteAndHalfBack).2
  · exact (hiff _ _).mpr (by decide)
  · obtain ⟨lines, s', hv, hlanded⟩ := Handler.exists_landed (h := Handler.eastern)
      (s := Handler.sunken) (t := minuteAndHalfAgo) rfl Handler.keeps_sunken rfl (by decide)
      (by decide)
    obtain ⟨line, hline, hshows⟩ := hset _ _ _ _ _ hv
    refine ⟨lines, s', line, hv, hline, hshows, ?_⟩
    have hoffset := hlanded.offset.trans (show _ = Span.ofSeconds (-90) by decide)
    rw [hlanded.reply_eq, hoffset] at hline
    rw [← Option.some.inj hline]
    decide +kernel

end OffsetText

end Rollover
