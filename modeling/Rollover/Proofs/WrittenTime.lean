/-
A time that was printed can be given back.

A game master reads a time off one reply and types it into the next command.  Printing
and reading are not each other's mirror: a year is printed with four digits at least
and read with four at most, unless it has a sign, which it has exactly when it does not
fit; and the words may be pulled apart over the arguments of a command, with blanks of
any script between them and with colons for the dashes of the date.

Reading goes from the front, so there is one lemma for each piece, saying what is left
after it.  All that a piece needs of the rest is that it does not start with a digit.
Only the year is written in more than one way, and the sign tells which.  Colons become
dashes before anything is read, so a year that is written with a minus sign keeps it.

The other direction is short, because reading builds a time to the second or a leap
second and nothing else.  Both directions together make printing and reading inverse
to each other on what a command can ask for.
-/
import Mathlib.Data.Option.Basic
import Rollover.Command
import Rollover.Proofs.WrittenDigits

namespace Rollover

/-! ### The words of a text -/

namespace Text

theorem words_blanks_append {g : List Char} (hg : g.all isBlank = true) (s : List Char) :
    words (g ++ s) = words s := by
  induction g with
  | nil => rfl
  | cons c g ih =>
      rw [List.all_cons, Bool.and_eq_true] at hg
      rw [List.cons_append, words_blank hg.1]
      exact ih hg.2

/-- A character in front of a word belongs to it. -/
theorem words_cons_cons {c d : Char} (hc : isBlank c = false) (hd : isBlank d = false)
    (s : List Char) :
    words (c :: d :: s) = (c :: (words (d :: s)).headD []) :: (words (d :: s)).tail := by
  rw [words.eq_def]
  simp only [hc, hd, Bool.false_eq_true, if_false]

/-- A word ends where a blank follows, or the text is over. -/
theorem words_word_append {w s : List Char} (hw : w ≠ []) (hblank : ∀ c ∈ w, isBlank c = false)
    (hs : ∀ c ∈ s.head?, isBlank c = true) : words (w ++ s) = w :: words s := by
  induction w with
  | nil => exact absurd rfl hw
  | cons c w ih =>
      have hc : isBlank c = false := hblank c List.mem_cons_self
      cases w with
      | nil =>
          cases s with
          | nil => simp [words, hc]
          | cons d s =>
              have hd : isBlank d = true := hs d rfl
              simp [words, hc, hd]
      | cons d w =>
          have hd : isBlank d = false := hblank d (by simp)
          have hrest := ih (List.cons_ne_nil d w) fun e he => hblank e (List.mem_cons_of_mem _ he)
          rw [List.cons_append] at hrest
          rw [List.cons_append, List.cons_append, words_cons_cons hc hd, hrest]
          rfl

theorem trimStart_cons {c : Char} (h : isBlank c = false) (s : List Char) :
    trimStart (c :: s) = c :: s := by
  rw [trimStart, List.dropWhile_cons_of_neg (by simp [h])]

end Text

/-! ### One field after the other -/

namespace CivilTime

namespace Reader

open Digits (NoDigit)

theorem digits_append {ds s : List Char} {most : Nat} (hne : ds ≠ [])
    (hds : ∀ c ∈ ds, Digits.isDigit c = true) (hlen : ds.length ≤ most) (hs : NoDigit s) :
    digits most (ds ++ s) = some (Digits.value ds, s) := by
  rw [digits, Digits.take_append hds hlen hs]
  cases ds with
  | nil => exact absurd rfl hne
  | cons d ds => rfl

/-- A padded number starts with a digit, so no blank and no sign is taken off it. -/
theorem exists_padded_eq (width n : Nat) : ∃ c ds, Digits.padded width n = c :: ds ∧
    Text.isBlank c = false ∧ c ≠ '-' ∧ c ≠ '+' := by
  obtain ⟨c, ds, h⟩ := List.exists_cons_of_ne_nil (Digits.padded_ne_nil width n)
  have hc : Digits.isDigit c = true := Digits.isDigit_of_mem_padded (h ▸ List.mem_cons_self)
  exact ⟨c, ds, h, Text.isBlank_of_isDigit hc, Digits.ne_sign_of_isDigit hc⟩

theorem trimStart_padded_append (width n : Nat) (s : List Char) :
    Text.trimStart (Digits.padded width n ++ s) = Digits.padded width n ++ s := by
  obtain ⟨c, ds, h, hc, -⟩ := exists_padded_eq width n
  rw [h, List.cons_append, Text.trimStart_cons hc]

theorem field_padded_append {n : Nat} {s : List Char} (hn : n < 100) (hs : NoDigit s) :
    field (Digits.padded 2 n ++ s) = some (n, s) := by
  have hlen : (Digits.padded 2 n).length = 2 := Digits.length_padded (by decide) hn
  rw [field, trimStart_padded_append, digits_append (Digits.padded_ne_nil 2 n)
    (fun _ hc => Digits.isDigit_of_mem_padded hc) (Nat.le_of_eq hlen) hs, Digits.value_padded]

theorem field_space_cons (s : List Char) : field (' ' :: s) = field s := rfl

theorem year_yearText_append (y : Int) {s : List Char} (hs : NoDigit s) :
    year (Fields.yearText y ++ s) = some (y, s) := by
  have hdigits : ∀ most, (Digits.padded 4 y.natAbs).length ≤ most →
      digits most (Digits.padded 4 y.natAbs ++ s) = some (y.natAbs, s) := by
    intro most hmost
    rw [digits_append (Digits.padded_ne_nil 4 _) (fun _ hc => Digits.isDigit_of_mem_padded hc)
      hmost hs, Digits.value_padded]
  unfold Fields.yearText
  by_cases hplain : 0 ≤ y ∧ y ≤ 9999
  · have hlen : (Digits.padded 4 y.natAbs).length = 4 :=
      Digits.length_padded (by decide) (by omega)
    obtain ⟨c, ds, h, hc, hminus, hplus⟩ := exists_padded_eq 4 y.natAbs
    have hread := hdigits 4 (Nat.le_of_eq hlen)
    rw [h, List.cons_append] at hread
    rw [if_pos hplain, year, h, List.cons_append, Text.trimStart_cons hc]
    split
    · rename_i heq
      exact absurd (List.cons.inj heq).1 hminus
    · rename_i heq
      exact absurd (List.cons.inj heq).1 hplus
    · simp only [hread, Option.map_some]
      congr 2
      omega
  · have hread := hdigits (Digits.padded 4 y.natAbs ++ s).length (by simp)
    rw [if_neg hplain]
    by_cases hneg : y < 0
    · rw [if_pos hneg, List.cons_append, year, Text.trimStart_cons (by decide)]
      simp only [hread, Option.map_some]
      congr 2
      omega
    · rw [if_neg hneg, List.cons_append, year, Text.trimStart_cons (by decide)]
      simp only [hread, Option.map_some]
      congr 2
      omega

theorem mark_cons (c : Char) (s : List Char) : mark c (c :: s) = some s := if_pos rfl

end Reader

/-- What is read from a reading that was written, whose fields have two digits each. -/
theorem read?_text {f : Fields} (hmonth : f.date.month < 100) (hday : f.date.day < 100)
    (hhour : f.hour < 100) (hminute : f.minute < 100) (hsecond : f.shownSecond < 100) :
    read? f.text =
      if f.shownSecond = 60 then ofFields? { f with second := 59, nanos := 1000000000 }
      else ofFields? { f with second := f.shownSecond, nanos := 0 } := by
  have hdash : ∀ s, Digits.NoDigit ('-' :: s) := Digits.noDigit_cons (by decide)
  have hcolon : ∀ s, Digits.NoDigit (':' :: s) := Digits.noDigit_cons (by decide)
  have hspace : ∀ s, Digits.NoDigit (' ' :: s) := Digits.noDigit_cons (by decide)
  have hend : Reader.field (Digits.padded 2 f.shownSecond) = some (f.shownSecond, []) := by
    have h := Reader.field_padded_append hsecond Digits.noDigit_nil
    rwa [List.append_nil] at h
  simp only [Fields.text, Fields.dateText, Fields.timeText, List.append_assoc, List.cons_append]
  rw [read?, Reader.year_yearText_append _ (hdash _)]
  simp only [Option.bind_eq_bind, Option.bind_some, Reader.mark_cons,
    Reader.field_padded_append hmonth (hdash _), Reader.field_padded_append hday (hspace _),
    Reader.field_space_cons, Reader.field_padded_append hhour (hcolon _),
    Reader.field_padded_append hminute (hcolon _), hend]
  rfl

/-! ### Times to the second -/

/-- The time has no part of a second, or is a leap second. -/
def Whole (t : CivilTime) : Prop := t.nanos = 0 ∨ t.nanos = 1000000000 ∧ t.secs % 60 = 59

instance (t : CivilTime) : Decidable t.Whole := inferInstanceAs (Decidable (_ ∨ _ ∧ _))

variable {t : CivilTime}

theorem fields_second (t : CivilTime) : (t.fields.second : Int) = t.secs % 60 := by
  simp only [fields, Fields.ofSeconds]
  omega

theorem Whole.valid_fields (h : t.Whole) : t.fields.Valid := by
  -- Only the nanoseconds tell the reading apart from that of the plain second.
  have hplain : (Fields.ofSeconds t.secs 0).Valid := Fields.valid_ofSeconds (by decide)
  obtain ⟨hdate, hhour, hminute, hsecond, -⟩ := hplain
  refine ⟨hdate, hhour, hminute, hsecond, ?_⟩
  have hnanos : t.fields.nanos = t.nanos := rfl
  have hlast := t.fields_second
  rcases h with h | ⟨h, h59⟩
  · exact Or.inl (by omega)
  · exact Or.inr ⟨by omega, by omega⟩

theorem ofFields?_fields (h : t.fields.Valid) : ofFields? t.fields = some t := by
  have hsecs : t.fields.seconds = t.secs := Fields.seconds_ofSeconds t.secs t.nanos
  rw [ofFields?, if_pos h, hsecs, ofParts?, dif_pos ⟨t.first_le, t.le_last, t.nanos_lt⟩]
  rfl

/-- A time to the second is read from its own text. -/
theorem Whole.read?_text (h : t.Whole) : read? t.fields.text = some t := by
  have hvalid := h.valid_fields
  obtain ⟨⟨-, hmonth, -, hday⟩, hhour, hminute, hsecond, -⟩ := id hvalid
  have hlength : Date.daysInMonth t.fields.date.year t.fields.date.month ≤ 31 := by
    unfold Date.daysInMonth
    repeat' split
    all_goals decide
  have hshown : t.fields.shownSecond = t.fields.second + t.nanos / 1000000000 := rfl
  have hlast := t.fields_second
  have hread := CivilTime.read?_text (f := t.fields) (by omega) (by omega) (by omega) (by omega)
    (by rcases h with h | ⟨h, -⟩ <;> omega)
  rw [hread]
  rcases h with h | ⟨h, h59⟩
  · have hplain : t.fields.shownSecond = t.fields.second := by omega
    have hsame : { t.fields with second := t.fields.shownSecond, nanos := 0 } = t.fields := by
      rw [hplain, ← h]
      rfl
    rw [if_neg (by omega), hsame]
    exact ofFields?_fields hvalid
  · have hsame : { t.fields with second := 59, nanos := 1000000000 } = t.fields := by
      have h59' : t.fields.second = 59 := by omega
      rw [← h59', ← h]
      rfl
    rw [if_pos (by omega), hsame]
    exact ofFields?_fields hvalid

theorem whole_of_ofFields? {f : Fields} (h : ofFields? f = some t)
    (hf : f.nanos = 0 ∨ f.nanos = 1000000000 ∧ f.second = 59) : t.Whole := by
  unfold ofFields? at h
  split at h
  · unfold ofParts? at h
    split at h
    · cases h
      rcases hf with hf | ⟨hf, h59⟩
      · exact Or.inl hf
      · refine Or.inr ⟨hf, ?_⟩
        show f.seconds % 60 = 59
        unfold Fields.seconds
        omega
    · cases h
  · cases h

/-- Whatever is read is a time to the second. -/
theorem whole_of_read? {s : List Char} (h : read? s = some t) : t.Whole := by
  simp only [read?, Option.bind_eq_bind, Option.bind_eq_some_iff] at h
  obtain ⟨⟨y, _⟩, -, _, -, ⟨m, _⟩, -, _, -, ⟨d, _⟩, -, ⟨hour, _⟩, -, _, -, ⟨minute, _⟩, -, _, -,
    ⟨second, _⟩, -, _, -, hfields⟩ := h
  split at hfields
  · exact whole_of_ofFields? hfields (Or.inr ⟨rfl, rfl⟩)
  · exact whole_of_ofFields? hfields (Or.inl rfl)

end CivilTime

/-! ### Typing a time -/

namespace Fields

/-- The date with marks of one's choice between its fields. -/
def dateMarked (a b : Char) (d : Date) : List Char :=
  yearText d.year ++ a :: Digits.padded 2 d.month ++ b :: Digits.padded 2 d.day

theorem isDigit_or_sign_of_mem_yearText {y : Int} {c : Char} (h : c ∈ yearText y) :
    Digits.isDigit c = true ∨ c = '-' ∨ c = '+' := by
  unfold yearText at h
  split at h
  · exact Or.inl (Digits.isDigit_of_mem_padded h)
  · rcases List.mem_cons.mp h with h | h
    · rw [h]
      split
      · exact Or.inr (Or.inl rfl)
      · exact Or.inr (Or.inr rfl)
    · exact Or.inl (Digits.isDigit_of_mem_padded h)

/-- A date has digits, signs and its two marks in it. -/
theorem mem_dateMarked {a b c : Char} {d : Date} (h : c ∈ dateMarked a b d) :
    Digits.isDigit c = true ∨ c = '-' ∨ c = '+' ∨ c = a ∨ c = b := by
  simp only [dateMarked, List.append_assoc, List.mem_append, List.mem_cons, List.cons_append] at h
  rcases h with h | h | h | h | h
  · rcases isDigit_or_sign_of_mem_yearText h with h | h | h <;> simp [h]
  · simp [h]
  · exact Or.inl (Digits.isDigit_of_mem_padded h)
  · simp [h]
  · exact Or.inl (Digits.isDigit_of_mem_padded h)

theorem mem_timeText {f : Fields} {c : Char} (h : c ∈ f.timeText) :
    Digits.isDigit c = true ∨ c = ':' := by
  simp only [timeText, List.append_assoc, List.mem_append, List.mem_cons, List.cons_append] at h
  rcases h with h | h | h | h | h
  · exact Or.inl (Digits.isDigit_of_mem_padded h)
  · exact Or.inr h
  · exact Or.inl (Digits.isDigit_of_mem_padded h)
  · exact Or.inr h
  · exact Or.inl (Digits.isDigit_of_mem_padded h)

end Fields

/-- A way to type a date and a time: the blanks around the two, and the marks of the date. -/
structure Spelling where
  before : List Char := []
  gap : List Char := [' ']
  after : List Char := []
  mark : Char := '-'
  mark' : Char := '-'
  before_blank : before.all Text.isBlank = true := by decide
  gap_blank : gap.all Text.isBlank = true := by decide
  after_blank : after.all Text.isBlank = true := by decide
  gap_ne_nil : gap ≠ [] := by decide
  mark_eq : mark = '-' ∨ mark = ':' := by decide
  mark'_eq : mark' = '-' ∨ mark' = ':' := by decide

namespace Spelling

/-- The time, typed this way. -/
def text (p : Spelling) (t : CivilTime) : List Char :=
  p.before ++ (Fields.dateMarked p.mark p.mark' t.fields.date ++
    (p.gap ++ (t.fields.timeText ++ p.after)))

/-- The way in which times are printed. -/
def plain : Spelling := {}

theorem plain_text (t : CivilTime) : plain.text t = t.fields.text := by
  simp only [text, plain, Fields.text, Fields.dateText, Fields.dateMarked, List.nil_append,
    List.append_nil, List.append_assoc, List.cons_append]

theorem isBlank_of_mem_dateMarked (p : Spelling) {d : Date} {c : Char}
    (h : c ∈ Fields.dateMarked p.mark p.mark' d) : Text.isBlank c = false := by
  rcases Fields.mem_dateMarked h with h | rfl | rfl | rfl | rfl
  · exact Text.isBlank_of_isDigit h
  · decide
  · decide
  · rcases p.mark_eq with h | h <;> rw [h] <;> decide
  · rcases p.mark'_eq with h | h <;> rw [h] <;> decide

theorem isBlank_of_mem_timeText {f : Fields} {c : Char} (h : c ∈ f.timeText) :
    Text.isBlank c = false := by
  rcases Fields.mem_timeText h with h | rfl
  · exact Text.isBlank_of_isDigit h
  · decide

/-- However they are typed, the date and the time are the two words. -/
theorem words_text (p : Spelling) (t : CivilTime) :
    Text.words (p.text t) =
      [Fields.dateMarked p.mark p.mark' t.fields.date, t.fields.timeText] := by
  have hdate : Fields.dateMarked p.mark p.mark' t.fields.date ≠ [] := by simp [Fields.dateMarked]
  have htime : t.fields.timeText ≠ [] := by simp [Fields.timeText]
  have hgap : ∀ s, ∀ c ∈ (p.gap ++ s).head?, Text.isBlank c = true := by
    intro s c hc
    obtain ⟨g, gs, hg⟩ := List.exists_cons_of_ne_nil p.gap_ne_nil
    rw [hg] at hc
    cases hc
    exact List.all_eq_true.mp p.gap_blank c (hg ▸ List.mem_cons_self)
  have hafter : ∀ c ∈ p.after.head?, Text.isBlank c = true := fun c hc =>
    List.all_eq_true.mp p.after_blank c (List.mem_of_mem_head? hc)
  have hend : Text.words p.after = [] := by
    have h := Text.words_blanks_append p.after_blank []
    rwa [List.append_nil] at h
  rw [text, Text.words_blanks_append p.before_blank,
    Text.words_word_append hdate (fun _ hc => p.isBlank_of_mem_dateMarked hc) (hgap _),
    Text.words_blanks_append p.gap_blank,
    Text.words_word_append htime (fun _ hc => isBlank_of_mem_timeText hc) hafter, hend]

/-- Colons for dashes make no difference: a date has no other colons. -/
theorem dashed_dateMarked (p : Spelling) (d : Date) :
    (Fields.dateMarked p.mark p.mark' d).map (fun c => if c = ':' then '-' else c) =
      Fields.dateText d := by
  have hkept : ∀ s : List Char, (∀ c ∈ s, Digits.isDigit c = true ∨ c = '-' ∨ c = '+') →
      s.map (fun c => if c = ':' then '-' else c) = s := by
    intro s hs
    have hsame : ∀ c ∈ s, (if c = ':' then '-' else c) = id c := by
      intro c hc
      rw [if_neg]
      · rfl
      · rintro rfl
        exact absurd (hs _ hc) (by decide)
    rw [List.map_congr_left hsame, List.map_id]
  have hpadded : ∀ n, (Digits.padded 2 n).map (fun c => if c = ':' then '-' else c) =
      Digits.padded 2 n := fun n => hkept _ fun _ hc => Or.inl (Digits.isDigit_of_mem_padded hc)
  have hmark : (if p.mark = ':' then '-' else p.mark) = '-' := by
    rcases p.mark_eq with h | h <;> rw [h] <;> decide
  have hmark' : (if p.mark' = ':' then '-' else p.mark') = '-' := by
    rcases p.mark'_eq with h | h <;> rw [h] <;> decide
  simp only [Fields.dateMarked, Fields.dateText, List.map_append, List.map_cons, hmark, hmark',
    hpadded, hkept _ fun _ hc => Fields.isDigit_or_sign_of_mem_yearText hc]

theorem timeOfWords?_text (p : Spelling) {t : CivilTime} (h : t.Whole) :
    Command.timeOfWords? (p.text t) = some t := by
  simp only [Command.timeOfWords?, p.words_text, p.dashed_dateMarked]
  exact h.read?_text

end Spelling

namespace Command

theorem ofWords_setServerTime (args : List String) :
    ofWords ("set-server-time" :: args) =
      match timeOfWords? (String.intercalate " " args).toList with
      | some t => .ok (setServerTime t)
      | none => .error (.badTime (String.intercalate " " args)) := rfl

/-- A command to set the time comes from the two words of a time that could be read. -/
theorem read?_of_ofWords {words : List String} {t : CivilTime}
    (h : ofWords words = .ok (setServerTime t)) : ∃ s, CivilTime.read? s = some t := by
  unfold ofWords at h
  split at h
  · cases h
  · split at h
    · cases h
    · split at h
      · simp only at h
        split at h
        · rename_i heq
          cases h
          unfold timeOfWords? at heq
          split at heq
          · exact ⟨_, heq⟩
          · cases heq
        · cases h
      · repeat' split at h
        all_goals cases h

/--
**A time that was printed is read again.**  Take a time to the second, leap seconds
included.  Its text has two words, and whenever the arguments of the command, with
spaces between them, spell these out, with any blanks and either marks, the command
asks for that time.  And no command asks for a time of any other kind, so that its own
text gives the same command again.
-/
theorem printed_time_is_read :
    (∀ t : CivilTime, t.Whole →
        Text.words t.text.toList = [Fields.dateText t.fields.date, t.fields.timeText] ∧
        ∀ (p : Spelling) (args : List String),
          String.intercalate " " args = String.ofList (p.text t) →
            ofWords ("set-server-time" :: args) = .ok (setServerTime t)) ∧
      ∀ (words : List String) (t : CivilTime), ofWords words = .ok (setServerTime t) →
        t.Whole ∧ ofWords ["set-server-time", t.text] = .ok (setServerTime t) := by
  have hread : ∀ t : CivilTime, t.Whole → ∀ (p : Spelling) (args : List String),
      String.intercalate " " args = String.ofList (p.text t) →
        ofWords ("set-server-time" :: args) = .ok (setServerTime t) := by
    intro t ht p args hargs
    rw [ofWords_setServerTime, hargs, String.toList_ofList, p.timeOfWords?_text ht]
  refine ⟨fun t ht => ⟨?_, hread t ht⟩, ?_⟩
  · rw [CivilTime.text, String.toList_ofList, ← Spelling.plain_text, Spelling.words_text]
    rfl
  · intro words t h
    obtain ⟨s, hs⟩ := read?_of_ofWords h
    have ht := CivilTime.whole_of_read? hs
    refine ⟨ht, hread t ht .plain [t.text] ?_⟩
    rw [Spelling.plain_text]
    rfl

/-- The leap second at the end of the year before the year 0. -/
def yearEnd : CivilTime :=
  ⟨-62167219201, 1000000000, by decide, by decide, by decide⟩

/-- Typed with a wide blank in front, and with a tab after a date whose first mark is a colon. -/
def scattered : Spelling := { before := ['\u3000', ' '], gap := ['\t', ' '], mark := ':' }

/-- The minus sign of the year is no mark, and second 60 is the leap second. -/
theorem printed_time_is_read_yearEnd :
    yearEnd.Whole ∧
      ofWords ["set-server-time", "\u3000", "-0001:12-31\t", "23:59:60"] =
        .ok (setServerTime yearEnd) ∧
      ofWords ["set-server-time", yearEnd.text] = .ok (setServerTime yearEnd) := by
  have hwhole : yearEnd.Whole := by decide
  have hargs : String.intercalate " " ["\u3000", "-0001:12-31\t", "23:59:60"] =
      String.ofList (scattered.text yearEnd) := by decide +kernel
  have hread := (printed_time_is_read.1 yearEnd hwhole).2 scattered _ hargs
  exact ⟨hwhole, hread, (printed_time_is_read.2 _ _ hread).2⟩

end Command

end Rollover
