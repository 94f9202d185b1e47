/-
Setting the time lands on the second that was asked for.

Between the request and the clock the time is shifted into universal time, compared
with the second that the clock shows, turned into an offset from the source's second,
cut to whole seconds, put into a cell, read out again for the store, and added to the
source when somebody looks.  For a request without a part of a second every one of
these steps is exact.  The shift either reaches a second of the calendar or is refused.
The offset is a difference of two seconds of the calendar, so it is a span, and the cut
has nothing to cut.  The sum of source and offset is the requested second itself, so
nothing is taken to the end of the calendar, wherever the clock was before.

What is printed looks at the second alone.  So the reply shows the time as it was
typed, although the clock already shows the source's part of a second with it.
-/
import Rollover.Proofs.Cells
import Rollover.Proofs.ForwardTime

namespace Rollover

/-! ### Keeping some offset is keeping any -/

namespace Files

/-- Whether a file can be written does not depend on what is written: the host fails those who
write at a place, whatever it is. -/
theorem writeBytes_of_writeBytes {fs fs' : Files} {path : String} {content : ByteArray}
    (h : fs.writeBytes path content = (fs', .ok ())) (new : ByteArray) :
    ∃ fs'', fs.writeBytes path new = (fs'', .ok ()) := by
  obtain ⟨place, hroom, hfault, -⟩ := writeBytes_eq_ok.mp h
  exact ⟨_, writeBytes_eq_ok.mpr ⟨place, hroom, hfault, rfl⟩⟩

end Files

namespace Handler

/-- There is no store, or an offset can be kept in it at present. -/
def Keeps (h : Handler) (fs : Files) : Prop :=
  ∀ path, h.store = some path → ∃ d, (OffsetFile.save fs path d).value.1 = .ok ()

theorem Keeps.keep {h : Handler} {fs : Files} (hk : h.Keeps fs) (d : Span) :
    (h.keep fs d).value.1 = .ok () := by
  unfold Handler.keep
  cases hstore : h.store with
  | none => rfl
  | some path =>
      obtain ⟨d', hsave⟩ := hk path hstore
      obtain ⟨made, fs', hdirs, hwrite, -⟩ := OffsetFile.save_eq_ok hsave
      obtain ⟨fs'', hwrite'⟩ := Files.writeBytes_of_writeBytes hwrite
        (Digits.text d.wholeSeconds).toUTF8
      exact (OffsetFile.save_of_writeText hdirs hwrite').1

theorem Keeps.moveTo {h : Handler} {s : Server} (hk : h.Keeps s.files) (d : Span) :
    (h.moveTo s d).value.1 = .ok () := by
  rw [moveTo_reply, hk.keep]
  rfl

/-- After a move that was kept, the file is the text of the clock's offset. -/
theorem readText_of_moveTo {h : Handler} {s : Server} {d : Span} {path : String}
    (hk : h.Keeps s.files) (hstore : h.store = some path) :
    (h.moveTo s d).value.2.files.readText path = .ok (Digits.text d.wholeSeconds) := by
  have hkeep : h.keep s.files (.ofSeconds d.wholeSeconds) =
      OffsetFile.save s.files path (.ofSeconds d.wholeSeconds) := by
    unfold Handler.keep
    rw [hstore]
  have hsave := hk.keep (.ofSeconds d.wholeSeconds)
  have hfiles : (h.moveTo s d).value.2.files =
      (h.keep s.files (.ofSeconds d.wholeSeconds)).value.2 := moveTo_files h s d
  rw [hkeep] at hsave
  obtain ⟨made, fs', -, hwrite, hfs⟩ := OffsetFile.save_eq_ok hsave
  rw [hfiles, hkeep, hfs, Files.readText_of_writeText hwrite,
    Span.wholeSeconds_ofSeconds d.le_wholeSeconds d.wholeSeconds_le]

end Handler

/-! ### Times without a part of a second -/

namespace CivilTime

/-- A time lies before the second of an instant if its own second does, whatever its parts. -/
theorem before_floor_iff {a : CivilTime} {t : Instant} :
    a.before (.ofInstant t.floor) ↔ a.secs < t.secs := by
  unfold before
  simp only [ofInstant, Instant.secs_floor, Instant.nanos_floor]
  omega

/-- Between whole seconds no leap second counts and nothing is cut off. -/
theorem nanos_since {a b : CivilTime} (ha : a.nanos = 0) (hb : b.nanos = 0) :
    (a.since b).nanos = (a.secs - b.secs) * 1000000000 := by
  have hleap : leapBetween a b = 0 := by
    unfold leapBetween
    rw [ha, hb]
    repeat' split
    all_goals first | rfl | omega
  show (a.secs - b.secs + leapBetween a b) * 1000000000 + ((a.nanos : Int) - b.nanos) = _
  rw [hleap, ha, hb]
  omega

theorem toUtc?_eq_some {t : CivilTime} {z : Zone} (h : Instant.InCalendar (t.secs - z.secs)) :
    t.toUtc? z = some ⟨t.secs - z.secs, t.nanos, h.1, h.2, t.nanos_lt⟩ := by
  rw [toUtc?, ofParts?, dif_pos ⟨h.1, h.2, t.nanos_lt⟩]

theorem toUtc?_eq_none {t : CivilTime} {z : Zone}
    (h : ¬ Instant.InCalendar (t.secs - z.secs)) : t.toUtc? z = none := by
  rw [toUtc?, ofParts?, dif_neg]
  rintro ⟨hlo, hhi, -⟩
  exact h ⟨hlo, hhi⟩

/-- Shifted into universal time and printed in its own zone, a time looks as it was. -/
theorem textIn_of_toUtc? {t u : CivilTime} {z : Zone} (h : t.toUtc? z = some u) :
    u.textIn z = t.text := by
  unfold toUtc? ofParts? at h
  split at h
  · cases h
    have hsecs : t.secs - z.secs + z.secs = t.secs := Int.sub_add_cancel _ _
    show String.ofList (Fields.ofSeconds (t.secs - z.secs + z.secs) t.nanos).text = _
    rw [hsecs]
    rfl
  · cases h

end CivilTime

/-- What is printed of a time to the second does not tell the part of a second. -/
theorem Fields.text_ofSeconds (secs : Int) {nanos : Nat} (h : nanos < 1000000000) :
    (ofSeconds secs nanos).text = (ofSeconds secs 0).text := by
  have hshown : (ofSeconds secs nanos).shownSecond = (ofSeconds secs 0).shownSecond := by
    show (ofSeconds secs 0).second + nanos / 1000000000 =
      (ofSeconds secs 0).second + 0 / 1000000000
    rw [Nat.div_eq_of_lt h, Nat.zero_div]
  simp only [text, timeText, hshown]
  rfl

/-- An instant at the second of a time is printed as that time. -/
theorem Instant.textIn_eq_text {u : Instant} {t : CivilTime} {z : Zone} (ht : t.nanos = 0)
    (h : u.secs = t.secs - z.secs) : u.textIn z = t.text := by
  have hsecs : u.secs + z.secs = t.secs := by omega
  show String.ofList (Fields.ofSeconds (u.secs + z.secs) u.nanos).text =
    String.ofList (Fields.ofSeconds t.secs t.nanos).text
  rw [hsecs, ht, Fields.text_ofSeconds _ u.nanos_lt]

namespace Handler

/-! ### Answers by the second -/

variable {h : Handler} {s : Server} {t u : CivilTime}

theorem setServerTime_past (ht : t.toUtc? h.zone = some u)
    (hpast : u.secs < s.clock.logicalNow.secs) :
    (h.setServerTime s t).value =
      (.error (.inPast (s.clock.logicalNow.floor.textIn h.zone) (u.textIn h.zone)), s) :=
  setServerTime_of_before ht (CivilTime.before_floor_iff.mpr hpast)

/-- The offset of a request, and the server that the offset moves. -/
theorem setServerTime_moved (ht : t.toUtc? h.zone = some u)
    (hnow : s.clock.logicalNow.secs ≤ u.secs) (hk : h.Keeps s.files) :
    ∃ d s', d = u.since (.ofInstant s.clock.systemNow.floor) ∧ s' = (h.moveTo s d).value.2 ∧
      (h.setServerTime s t).value =
        (.ok ["Server time set to " ++ u.textIn h.zone,
          "Time offset: " ++ OffsetText.text s'.clock.offset,
          "Current server time: " ++ s'.clock.logicalNow.textIn h.zone], s') := by
  refine ⟨_, _, rfl, rfl, ?_⟩
  have hnot : ¬ u.before (.ofInstant s.clock.logicalNow.floor) := fun hbefore =>
    absurd (CivilTime.before_floor_iff.mp hbefore) (Int.not_lt.mpr hnow)
  rw [setServerTime_of_not_before ht hnot]
  simp only [hk.moveTo]
  rfl

/-! ### Where the server lands -/

/-- The server `s'` has been set to the local time `t`, which is the instant `u`, and has said so
in the reply. -/
structure Landed (h : Handler) (s : Server) (t : CivilTime) (u : Instant) (reply : List String)
    (s' : Server) : Prop where
  /-- The offset leads from the source's second to the one asked for, with nothing cut off. -/
  offset : s'.clock.offset = s.clock.systemNow.floor.spanTo u
  /-- The clock shows the second asked for, with the source's part of a second. -/
  secs : s'.clock.logicalNow.secs = u.secs
  nanos : s'.clock.logicalNow.nanos = s.clock.systemNow.nanos
  /-- The reply prints the time as it was asked for, twice. -/
  reply_eq : reply = ["Server time set to " ++ t.text,
    "Time offset: " ++ OffsetText.text s'.clock.offset, "Current server time: " ++ t.text]
  /-- A look at the time afterwards prints the same time and the same offset. -/
  shown : (h.execute s' .showServerTime).value =
    (.ok ["Current server time offset: " ++ OffsetText.text s'.clock.offset,
      "Current server time: " ++ t.text,
      "System time: " ++ s.clock.systemNow.textIn h.zone], s')
  /-- The store has the offset in seconds. -/
  kept : ∀ path, h.store = some path →
    s'.files.readText path = .ok (Digits.text (u.secs - s.clock.systemNow.secs))
  /-- The source, the anchor and the remembered edges are the same. -/
  source : s'.clock.source = s.clock.source
  anchor : s'.clock.anchor = s.clock.anchor
  cache : s'.clock.cache = s.clock.cache

theorem landed_of_moveTo (hen : h.enabled = true) (hk : h.Keeps s.files) (ht : t.nanos = 0)
    (hu : t.toUtc? h.zone = some u) {s' : Server}
    (hs' : s' = (h.moveTo s (u.since (.ofInstant s.clock.systemNow.floor))).value.2) :
    h.Landed s t (.ofSeconds u.secs) ["Server time set to " ++ u.textIn h.zone,
      "Time offset: " ++ OffsetText.text s'.clock.offset,
      "Current server time: " ++ s'.clock.logicalNow.textIn h.zone] s' := by
  obtain ⟨husecs, hunanos⟩ : u.secs = t.secs - h.zone.secs ∧ u.nanos = t.nanos := by
    unfold CivilTime.toUtc? CivilTime.ofParts? at hu
    split at hu
    · cases hu
      exact ⟨rfl, rfl⟩
    · cases hu
  have hin : Instant.InCalendar u.secs := ⟨u.first_le, u.le_last⟩
  have hsys : (CivilTime.ofInstant s.clock.systemNow.floor).secs = s.clock.systemNow.secs :=
    Instant.secs_floor _
  have hspan := CivilTime.nanos_since (a := u) (b := .ofInstant s.clock.systemNow.floor)
    (hunanos.trans ht) rfl
  have hwhole : (u.since (.ofInstant s.clock.systemNow.floor)).wholeSeconds =
      u.secs - s.clock.systemNow.secs := by
    rw [Span.wholeSeconds, hspan, hsys]
    unfold Span.cut
    split <;> omega
  have hclock : s'.clock =
      (s.clock.setOffset (u.since (.ofInstant s.clock.systemNow.floor))).value := by
    rw [hs', moveTo_clock]
  have hoffsetSecs : s'.clock.offsetSecs = u.secs - s.clock.systemNow.secs := by
    rw [hclock, Clock.setOffset_value]
    exact hwhole
  have hsource : s'.clock.source = s.clock.source := by
    rw [hclock, Clock.setOffset_value]
  have hsystem : s'.clock.systemNow = s.clock.systemNow := by
    show s'.clock.source.now = s.clock.source.now
    rw [hsource]
  -- The sum of source and offset is the second asked for, which the calendar has.
  have hsum : s'.clock.systemNow.secs + s'.clock.offsetSecs = u.secs := by
    rw [hsystem, hoffsetSecs]
    omega
  obtain ⟨hsecs, hnanos⟩ := Clock.logicalNow_of_inCalendar (c := s'.clock) (by rwa [hsum])
  rw [hsum] at hsecs
  rw [hsystem] at hnanos
  have hshown : s'.clock.logicalNow.textIn h.zone = t.text :=
    Instant.textIn_eq_text ht (hsecs.trans husecs)
  have hfirst : (Instant.ofSeconds u.secs).secs = u.secs := Instant.secs_ofSeconds hin.1 hin.2
  refine ⟨?_, hsecs.trans hfirst.symm, hnanos, ?_, ?_, ?_, hsource, ?_, ?_⟩
  · have hn := s.clock.systemNow.inCalendar_secs
    refine Span.ext_nanos ?_
    show max (-Span.maxSeconds) (min s'.clock.offsetSecs Span.maxSeconds) * 1000000000 =
      ((Instant.ofSeconds u.secs).secs - s.clock.systemNow.floor.secs) * 1000000000 + (0 - 0)
    rw [hoffsetSecs, hfirst, Instant.secs_floor]
    unfold Instant.InCalendar Instant.first Instant.last at hin hn
    unfold Span.maxSeconds
    omega
  · rw [CivilTime.textIn_of_toUtc? hu, hshown]
  · rw [execute_of_enabled hen]
    simp only [showServerTime, hshown, hsystem, Logged.value_pure]
  · intro path hstore
    rw [hs', readText_of_moveTo hk hstore, hwhole, hfirst]
  · rw [Clock.anchor, hclock, Clock.setOffset_value]
    rfl
  · rw [hclock, Clock.setOffset_value]

/-- A request of the calendar that is not before the clock's second is met. -/
theorem exists_landed (hen : h.enabled = true) (hk : h.Keeps s.files) (ht : t.nanos = 0)
    (hu : Instant.InCalendar (t.secs - h.zone.secs))
    (hnow : s.clock.logicalNow.secs ≤ t.secs - h.zone.secs) :
    ∃ reply s', (h.execute s (.setServerTime t)).value = (.ok reply, s') ∧
      h.Landed s t (.ofSeconds (t.secs - h.zone.secs)) reply s' := by
  have hutc := CivilTime.toUtc?_eq_some hu
  obtain ⟨_, s', rfl, hs', hvalue⟩ := setServerTime_moved hutc hnow hk
  exact ⟨_, s', (congrArg (·.value) (execute_of_enabled hen _)).trans hvalue,
    landed_of_moveTo hen hk ht hutc hs'⟩

/--
**A request is refused, or it is met to the second.**  Take an enabled handler without
a store, or with one that can keep an offset, and a local time to the second.  If that
time is outside the calendar in universal time, it is refused as it is.  Otherwise the
answer is good exactly if the time does not lie before the second that the clock shows:
then the server is at that time, wherever it was before, and else both times are told.
-/
theorem setServerTime_lands (hen : h.enabled = true) (hk : h.Keeps s.files) (ht : t.nanos = 0) :
    let u := t.secs - h.zone.secs
    let r := (h.execute s (.setServerTime t)).value
    (Instant.InCalendar u →
      ((∃ reply, r.1 = .ok reply) ↔ s.clock.logicalNow.secs ≤ u) ∧
      (u < s.clock.logicalNow.secs → r = (.error (.inPast (s.clock.logicalNow.floor.textIn h.zone)
        ((Instant.ofSeconds u).textIn h.zone)), s)) ∧
      (s.clock.logicalNow.secs ≤ u →
        ∃ reply, r.1 = .ok reply ∧ h.Landed s t (.ofSeconds u) reply r.2)) ∧
    (¬ Instant.InCalendar u → r = (.error (.badTime t.text), s)) := by
  intro u r
  have hr : r = (h.setServerTime s t).value := by
    show (h.execute s (.setServerTime t)).value = _
    rw [execute_of_enabled hen]
  refine ⟨fun hu => ?_, fun hu => ?_⟩
  · have hutc := CivilTime.toUtc?_eq_some hu
    have hpast : u < s.clock.logicalNow.secs → r = (.error
        (.inPast (s.clock.logicalNow.floor.textIn h.zone)
          ((Instant.ofSeconds u).textIn h.zone)), s) := by
      intro hlt
      have htext : (Instant.ofSeconds u).textIn h.zone = t.text :=
        Instant.textIn_eq_text ht (Instant.secs_ofSeconds hu.1 hu.2)
      rw [hr, setServerTime_past hutc hlt, CivilTime.textIn_of_toUtc? hutc, htext]
    have hlanded : s.clock.logicalNow.secs ≤ u →
        ∃ reply, r.1 = .ok reply ∧ h.Landed s t (.ofSeconds u) reply r.2 := by
      intro hle
      obtain ⟨reply, s', hvalue, hlanded⟩ := exists_landed hen hk ht hu hle
      rw [show r = (.ok reply, s') from hvalue]
      exact ⟨reply, rfl, hlanded⟩
    refine ⟨⟨?_, ?_⟩, hpast, hlanded⟩
    · rintro ⟨reply, hreply⟩
      by_contra hlt
      rw [hpast (Int.not_le.mp hlt)] at hreply
      cases hreply
    · intro hle
      obtain ⟨reply, hreply, -⟩ := hlanded hle
      exact ⟨reply, hreply⟩
  · rw [hr, setServerTime_out_of_calendar h s (CivilTime.toUtc?_eq_none hu)]

theorem quarter_lt_second : 250000000 < 1000000000 := by decide

/-- A quarter past a second, with a clock that the longest offset has taken to the first second of
the calendar. -/
def sunken : Server :=
  ⟨{ source := .fixed ⟨5, 250000000, by decide, by decide, quarter_lt_second⟩,
     offsetSecs := -Span.maxSeconds }, .empty⟩

/-- A handler of a zone eight hours ahead, with a store that is not there yet. -/
def eastern : Handler := { zone := ⟨28800, by decide, by decide⟩, store := some "offset.txt" }

theorem none_lt_leapSecond : 0 < 2000000000 := by decide

/-- Nine o'clock on the clocks of that zone, on the first day of 1970. -/
def nineOClock : CivilTime := ⟨32400, 0, by decide, by decide, none_lt_leapSecond⟩

theorem keeps_sunken : eastern.Keeps sunken.files := by
  rintro path ⟨rfl⟩
  have habove : Files.above (Files.names "offset.txt") = [] := by decide
  obtain ⟨fs, hwrite⟩ : ∃ fs, sunken.files.writeText "offset.txt"
      (Digits.text Span.zero.wholeSeconds) = (fs, .ok ()) := ⟨_, rfl⟩
  have hdirs : sunken.files.makeDirectories (Files.above (Files.names "offset.txt")) =
      (sunken.files, .ok ()) := by
    rw [habove, Files.makeDirectories_nil]
  exact ⟨.zero, (OffsetFile.save_of_writeText hdirs hwrite).1⟩

/-- Nothing of the old offset is left, and the quarter of a second is. -/
theorem setServerTime_lands_sunken :
    eastern.enabled = true ∧ eastern.Keeps sunken.files ∧ nineOClock.nanos = 0 ∧
      sunken.clock.logicalNow = .ofSeconds Instant.first ∧
      ∃ reply s', (eastern.execute sunken (.setServerTime nineOClock)).value = (.ok reply, s') ∧
        s'.clock.offset = .ofSeconds 3595 ∧
        s'.clock.logicalNow = ⟨3600, 250000000, by decide, by decide, by decide⟩ ∧
        s'.files.readText "offset.txt" = .ok "3595" ∧
        reply = ["Server time set to 1970-01-01 09:00:00", "Time offset: 3595s (0d 0h 59m 55s)",
          "Current server time: 1970-01-01 09:00:00"] := by
  refine ⟨rfl, keeps_sunken, rfl, by decide, ?_⟩
  obtain ⟨reply, hreply, hlanded⟩ :=
    ((setServerTime_lands (s := sunken) (t := nineOClock) rfl keeps_sunken rfl).1
      ⟨by decide, by decide⟩).2.2 (by decide)
  have hoffset := hlanded.offset.trans (show _ = Span.ofSeconds 3595 by decide)
  refine ⟨reply, _, Prod.ext hreply rfl, hoffset,
    Instant.ext_parts hlanded.secs hlanded.nanos, ?_, ?_⟩
  · rw [hlanded.kept _ rfl]
    decide +kernel
  · rw [hlanded.reply_eq, hoffset]
    decide +kernel

end Handler

end Rollover
