/-
What a clock on the wall and a calendar beside it show, and how it is written.

A reading is written year first, `2023-01-04 05:30:00`.  The year has at least
four digits, and a sign when it lies outside 0 to 9999.  A leap second is kept as
second 59 with a whole second of nanoseconds on top, and written as second 60.
-/
import Rollover.Calendar.Date
import Rollover.Text.Digits

namespace Rollover

structure Fields where
  date : Date
  hour : Nat
  minute : Nat
  second : Nat
  nanos : Nat
deriving DecidableEq

namespace Fields

/-- The reading that is `secs` seconds and `nanos` nanoseconds past the start of 1970. -/
def ofSeconds (secs : Int) (nanos : Nat) : Fields :=
  let ofDay := (secs % 86400).toNat
  { date := .ofDayNumber (secs / 86400)
    hour := ofDay / 3600
    minute := ofDay / 60 % 60
    second := ofDay % 60
    nanos }

/-- Whole seconds from the start of 1970 to the reading. -/
def seconds (f : Fields) : Int :=
  f.date.dayNumber * 86400 + (f.hour * 3600 + f.minute * 60 + f.second : Nat)

/-- There is such a reading; only the last second of a minute can be a leap second. -/
def Valid (f : Fields) : Prop :=
  f.date.Valid ∧ f.hour < 24 ∧ f.minute < 60 ∧ f.second < 60 ∧
    (f.nanos < 1000000000 ∨ f.second = 59 ∧ f.nanos < 2000000000)

instance (f : Fields) : Decidable f.Valid := inferInstanceAs (Decidable (_ ∧ _ ∧ _ ∧ _ ∧ _))

/-- The second as written, 60 in a leap second. -/
def shownSecond (f : Fields) : Nat := f.second + f.nanos / 1000000000

/-! ### Writing -/

def yearText (year : Int) : List Char :=
  if 0 ≤ year ∧ year ≤ 9999 then Digits.padded 4 year.natAbs
  else (if year < 0 then '-' else '+') :: Digits.padded 4 year.natAbs

def dateText (d : Date) : List Char :=
  yearText d.year ++ '-' :: Digits.padded 2 d.month ++ '-' :: Digits.padded 2 d.day

def timeText (f : Fields) : List Char :=
  Digits.padded 2 f.hour ++ ':' :: Digits.padded 2 f.minute ++
    ':' :: Digits.padded 2 f.shownSecond

/-- The date, a space and the time, to the second. -/
def text (f : Fields) : List Char := dateText f.date ++ ' ' :: timeText f

/-- The form of `text` in the usual notation for time formats. -/
def pattern : String := "%Y-%m-%d %H:%M:%S"

/-- The part of a second as a fraction of three, six or nine digits, or nothing. -/
def fractionText (f : Fields) : List Char :=
  let n := f.nanos % 1000000000
  if n = 0 then []
  else if n % 1000000 = 0 then '.' :: Digits.padded 3 (n / 1000000)
  else if n % 1000 = 0 then '.' :: Digits.padded 6 (n / 1000)
  else '.' :: Digits.padded 9 n

/-! ### Readings and seconds -/

theorem seconds_ofSeconds (secs : Int) (nanos : Nat) : (ofSeconds secs nanos).seconds = secs := by
  simp only [ofSeconds, seconds, Date.dayNumber_ofDayNumber]; omega

theorem valid_ofSeconds {secs : Int} {nanos : Nat} (h : nanos < 1000000000) :
    (ofSeconds secs nanos).Valid := by
  refine ⟨Date.valid_ofDayNumber _, ?_, ?_, ?_, Or.inl h⟩ <;>
  · simp only [ofSeconds]; omega

end Fields

end Rollover
