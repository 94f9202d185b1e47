/-
Dates of the Gregorian calendar, carried back before its adoption and through the
year 0, and their numbering by days from 1970-01-01.

Both directions count years from the first of March, so that the leap day is the
last day of its year and no rule about leap years is needed to place a month:
`(153 * m + 2) / 5` is the number of days before month `m` of such a year.  The
way back takes off whole cycles of 400 years, then centuries, then cycles of four
years, then years (`marchYear`).  The last century and the last year of a cycle
are the long ones, which is why their numbers stop at 3.
-/

namespace Rollover

structure Date where
  year : Int
  month : Nat
  day : Nat
deriving DecidableEq

namespace Date

def isLeap (year : Int) : Bool := year % 4 == 0 && (year % 100 != 0 || year % 400 == 0)

def daysInMonth (year : Int) (month : Nat) : Nat :=
  if month = 2 then (if isLeap year then 29 else 28)
  else if month = 4 ∨ month = 6 ∨ month = 9 ∨ month = 11 then 30
  else 31

/-- There is such a day in the calendar. -/
def Valid (d : Date) : Prop :=
  1 ≤ d.month ∧ d.month ≤ 12 ∧ 1 ≤ d.day ∧ d.day ≤ daysInMonth d.year d.month

instance (d : Date) : Decidable d.Valid := inferInstanceAs (Decidable (_ ∧ _ ∧ _ ∧ _))

/-- The days from the first of March of the year 0 to that of year `y`. -/
def marchStart (y : Int) : Int := 365 * y + y / 4 - y / 100 + y / 400

/-- The year that a day lies in, counting days and years from March of the year 0. -/
def marchYear (n : Int) : Int :=
  let inCycle := n % 146097
  let century := min (inCycle / 36524) 3
  let inCentury := inCycle - 36524 * century
  400 * (n / 146097) + 100 * century + 4 * (inCentury / 1461)
    + min (inCentury % 1461 / 365) 3

/-- The number of a day, where 1970-01-01 has the number 0. -/
def dayNumber (d : Date) : Int :=
  let year := if d.month ≤ 2 then d.year - 1 else d.year
  let month : Int := if d.month ≤ 2 then d.month + 9 else d.month - 3
  marchStart year + (153 * month + 2) / 5 + d.day - 719469

/-- The date with a given number. -/
def ofDayNumber (n : Int) : Date :=
  let year := marchYear (n + 719468)
  let dayOfYear := n + 719468 - marchStart year
  let month := (5 * dayOfYear + 2) / 153
  { year := if month < 10 then year else year + 1
    month := (if month < 10 then month + 3 else month - 9).toNat
    day := (dayOfYear - (153 * month + 2) / 5 + 1).toNat }

/-! ### The numbering is exact

`marchYear` finds the one year that the day lies in, and only a year that ends in
a leap day has a day 365.
-/

/-- A day number taken apart into cycles, centuries, four-year cycles, years and days. -/
theorem exists_parts (n : Int) : ∃ e c q a d : Int,
    n = 146097 * e + 36524 * c + 1461 * q + 365 * a + d ∧
      marchYear n = 400 * e + 100 * c + 4 * q + a ∧
      0 ≤ c ∧ c ≤ 3 ∧ 0 ≤ q ∧ q ≤ 24 ∧ 0 ≤ a ∧ a ≤ 3 ∧ 0 ≤ d ∧ d ≤ 365 ∧
      (d = 365 → a = 3 ∧ (q < 24 ∨ c = 3)) := by
  refine ⟨n / 146097, min (n % 146097 / 36524) 3, _, _,
    (n % 146097 - 36524 * min (n % 146097 / 36524) 3) % 1461
      - 365 * min ((n % 146097 - 36524 * min (n % 146097 / 36524) 3) % 1461 / 365) 3,
    ?_, rfl, ?_⟩
  · omega
  · have h : 0 ≤ n % 146097 ∧ n % 146097 < 146097 := by omega
    generalize n % 146097 = r at *
    obtain ⟨c, hc⟩ : ∃ c, c = min (r / 36524) 3 := ⟨_, rfl⟩
    rw [← hc]
    obtain ⟨s, hs⟩ : ∃ s, s = r - 36524 * c := ⟨_, rfl⟩
    rw [← hs]
    have : 0 ≤ c ∧ c ≤ 3 ∧ 0 ≤ s ∧ s ≤ 36524 ∧ (s = 36524 → c = 3) := by omega
    clear hc hs h
    omega

theorem marchYear_spec (n : Int) :
    0 ≤ n - marchStart (marchYear n) ∧ n - marchStart (marchYear n) ≤ 365 ∧
      (n - marchStart (marchYear n) = 365 → isLeap (marchYear n + 1) = true) := by
  obtain ⟨e, c, q, a, d, hn, hy, hc0, hc3, hq0, hq, ha0, ha3, hd0, hd, hl⟩ := exists_parts n
  have h4 : marchYear n / 4 = 100 * e + 25 * c + q := by omega
  have h100 : marchYear n / 100 = 4 * e + c := by omega
  have h400 : marchYear n / 400 = e := by omega
  have hs : n - marchStart (marchYear n) = d := by
    unfold marchStart; rw [h4, h100, h400, hy]; omega
  rw [hs, hy]
  refine ⟨hd0, hd, fun h => ?_⟩
  simp only [isLeap, Bool.and_eq_true, Bool.or_eq_true, beq_iff_eq, bne_iff_ne]
  obtain ⟨rfl, hl⟩ := hl h
  clear h4 h100 h400 hs hn hy
  omega

theorem dayNumber_ofDayNumber (n : Int) : (ofDayNumber n).dayNumber = n := by
  obtain ⟨h0, h1, -⟩ := marchYear_spec (n + 719468)
  simp only [ofDayNumber]
  generalize marchYear (n + 719468) = y at *
  generalize hd : n + 719468 - marchStart y = d at *
  simp only [dayNumber]
  by_cases hm : (5 * d + 2) / 153 < 10
  · have : ¬ ((5 * d + 2) / 153 + 3).toNat ≤ 2 := by omega
    simp only [hm, this, if_true, if_false]; omega
  · have : ((5 * d + 2) / 153 - 9).toNat ≤ 2 := by omega
    simp only [hm, this, if_true, if_false, Int.add_sub_cancel]; omega

theorem valid_ofDayNumber (n : Int) : (ofDayNumber n).Valid := by
  obtain ⟨h0, h1, h2⟩ := marchYear_spec (n + 719468)
  simp only [ofDayNumber]
  generalize marchYear (n + 719468) = y at *
  generalize n + 719468 - marchStart y = d at *
  by_cases hm : (5 * d + 2) / 153 < 10
  · simp only [Valid, hm, if_true, daysInMonth]
    refine ⟨by omega, by omega, by omega, ?_⟩
    split
    · omega
    · split <;> omega
  · simp only [Valid, hm, if_false, daysInMonth]
    refine ⟨by omega, by omega, by omega, ?_⟩
    split
    · split
      · omega
      · next hl =>
        have : d ≠ 365 := fun h => hl (h2 h)
        omega
    · split <;> omega

end Date

end Rollover
