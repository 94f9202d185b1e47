/-
A rejected request says what would have been accepted.

The answer to a request for a time in the past has two times in it, the present one
and the one that was asked for.  The present one is made for being typed in again: the
clock stands at the second that it shows, so a request for it asks for the least that
is not in the past.  Three things could come in between.  The printer could show
another second than the clock's, but it is given the second without its part.  The
reader could understand another time than was printed, but the two agree on times to
the second in every zone.  And the new offset could differ from the old one, but both
lead from the source's second to the same second, unless the old one led out of the
calendar.

The time that was asked for was read from a text, so it is a time to the second or a
leap second, and is read again from its own text.  It stays in the past while the
clock's second is the same.
-/
import Rollover.Proofs.SetTime
import Rollover.Proofs.WrittenTime

namespace Rollover

/-! ### Where the answer comes from -/

namespace Command

theorem ofWords_ne_inPast (words : List String) (current requested : String) :
    ofWords words ≠ .error (.inPast current requested) := by
  intro h
  unfold ofWords at h
  split at h
  · cases h
  · simp only at h
    repeat' split at h
    all_goals cases h

/-- The text of a time to the second, in one argument or in two, is a request for it. -/
theorem ofWords_text {t : CivilTime} (ht : t.Whole) {args : List String}
    (hargs : String.intercalate " " args = t.text) :
    ofWords ("set-server-time" :: args) = .ok (setServerTime t) := by
  have hread := Spelling.plain.timeOfWords?_text ht
  rw [Spelling.plain_text] at hread
  rw [ofWords_setServerTime, hargs, CivilTime.text, String.toList_ofList, hread]

end Command

namespace Handler

variable {h : Handler} {s : Server} {c : Command} {current requested : String}

theorem dispatch_of_ofWords {words : List String} (hc : Command.ofWords words = .ok c) :
    h.dispatch s words = h.execute s c := by
  unfold dispatch
  rw [hc]

/-- The only move that ends in an error is one whose store fails. -/
theorem map_moveTo_ne_inPast (d : Span) (lines : Unit → List String) :
    (h.moveTo s d).value.1.map lines ≠ .error (.inPast current requested) := by
  intro hmap
  cases hk : (h.moveTo s d).value.1 with
  | ok _ =>
      rw [hk] at hmap
      cases hmap
  | error e =>
      obtain ⟨f, -, rfl⟩ := keep_of_moveTo hk
      rw [hk] at hmap
      cases hmap

/-- Only a request for a time before the clock's second is answered with two times, and these
are what they are. -/
theorem execute_eq_inPast
    (hr : (h.execute s c).value.1 = .error (.inPast current requested)) :
    h.enabled = true ∧ ∃ t u, c = .setServerTime t ∧ t.toUtc? h.zone = some u ∧
      u.secs < s.clock.logicalNow.secs ∧
      current = s.clock.logicalNow.floor.textIn h.zone ∧ requested = t.text := by
  by_cases hen : h.enabled = true
  · refine ⟨hen, ?_⟩
    rw [execute_of_enabled hen] at hr
    cases c with
    | help => cases hr
    | showServerTime => cases hr
    | resetServerTime =>
        change (h.resetServerTime s).value.1 = _ at hr
        rw [resetServerTime_value] at hr
        exact absurd hr (map_moveTo_ne_inPast _ _)
    | setServerTime t =>
        change (h.setServerTime s t).value.1 = _ at hr
        cases hu : t.toUtc? h.zone with
        | none =>
            rw [setServerTime_out_of_calendar h s hu] at hr
            cases hr
        | some u =>
            by_cases hpast : u.secs < s.clock.logicalNow.secs
            · rw [setServerTime_past hu hpast] at hr
              cases hr
              exact ⟨t, u, rfl, hu, hpast, rfl, CivilTime.textIn_of_toUtc? hu⟩
            · have hnot : ¬ u.before (.ofInstant s.clock.logicalNow.floor) := fun hbefore =>
                hpast (CivilTime.before_floor_iff.mp hbefore)
              rw [setServerTime_of_not_before hu hnot] at hr
              exact absurd hr (map_moveTo_ne_inPast _ _)
  · rw [execute_of_disabled hen] at hr
    cases hr

/-- A rejection comes from a text that could be read as a time to the second. -/
theorem dispatch_eq_inPast {words : List String}
    (hr : (h.dispatch s words).value.1 = .error (.inPast current requested)) :
    h.enabled = true ∧ (h.dispatch s words).value.2 = s ∧ ∃ t u : CivilTime, t.Whole ∧
      t.toUtc? h.zone = some u ∧ u.secs < s.clock.logicalNow.secs ∧
      current = s.clock.logicalNow.floor.textIn h.zone ∧ requested = t.text := by
  rcases h.dispatch_cases s words with ⟨e, hwords, hv⟩ | ⟨c, hwords, hv⟩
  · rw [hv] at hr
    cases hr
    exact absurd hwords (Command.ofWords_ne_inPast words current requested)
  · rw [hv] at hr ⊢
    obtain ⟨hen, t, u, rfl, hu, hpast, hcurrent, hrequested⟩ := execute_eq_inPast hr
    obtain ⟨_, hread⟩ := Command.read?_of_ofWords hwords
    refine ⟨hen, ?_, t, u, CivilTime.whole_of_read? hread, hu, hpast, hcurrent, hrequested⟩
    rw [execute_of_enabled hen]
    exact congrArg Prod.snd (setServerTime_past hu hpast)

/-! ### Sending the two times -/

/-- What the clock's second is printed as is a request for that second.  If nothing was cut off to
show it, it is met with the offset that the clock has. -/
theorem exists_landed_now (hen : h.enabled = true) (hk : h.Keeps s.files)
    (hlocal : Instant.InCalendar (s.clock.logicalNow.secs + h.zone.secs)) {args : List String}
    (hargs : String.intercalate " " args = s.clock.logicalNow.floor.textIn h.zone) :
    ∃ reply s', (h.dispatch s ("set-server-time" :: args)).value = (.ok reply, s') ∧
      s'.clock.source = s.clock.source ∧
      s'.clock.logicalNow.secs = s.clock.logicalNow.secs ∧
      (Instant.InCalendar (s.clock.systemNow.secs + s.clock.offsetSecs) →
        s'.clock.offset = s.clock.offset) := by
  have hnow := s.clock.logicalNow.inCalendar_secs
  obtain ⟨t, hsecs, hnanos⟩ : ∃ t : CivilTime,
      t.secs = s.clock.logicalNow.secs + h.zone.secs ∧ t.nanos = 0 :=
    ⟨⟨_, 0, hlocal.1, hlocal.2, by decide⟩, rfl, rfl⟩
  have hutc : t.secs - h.zone.secs = s.clock.logicalNow.secs := by omega
  have htext : s.clock.logicalNow.floor.textIn h.zone = t.text :=
    Instant.textIn_eq_text hnanos (by rw [Instant.secs_floor, hutc])
  have hwords := Command.ofWords_text (Or.inl hnanos) (hargs.trans htext)
  obtain ⟨reply, s', hvalue, hlanded⟩ := exists_landed (s := s) (t := t) hen hk hnanos
    (by rwa [hutc]) (Int.le_of_eq hutc.symm)
  refine ⟨reply, s', (congrArg (·.value) (dispatch_of_ofWords hwords)).trans hvalue,
    hlanded.source, ?_, ?_⟩
  · rw [hlanded.secs, hutc, Instant.secs_ofSeconds hnow.1 hnow.2]
  · intro hsum
    have hsystem := s.clock.systemNow.inCalendar_secs
    have hplain := (Clock.logicalNow_of_inCalendar hsum).1
    rw [hlanded.offset, hutc]
    refine Span.ext_nanos ?_
    show ((Instant.ofSeconds s.clock.logicalNow.secs).secs - s.clock.systemNow.floor.secs) *
        1000000000 + (0 - 0) =
      max (-Span.maxSeconds) (min s.clock.offsetSecs Span.maxSeconds) * 1000000000
    rw [Instant.secs_ofSeconds hnow.1 hnow.2, Instant.secs_floor, hplain]
    unfold Instant.InCalendar Instant.first Instant.last at hsum hsystem
    unfold Span.maxSeconds
    omega

/--
**What a rejection says is present is accepted, and what it says was asked for is
rejected again.**  Take any command line that is answered with the two times.  Nothing
has happened to the server.  If the clocks of the zone can show the present second, and
the store, if there is one, can keep an offset, then the present time is accepted, in
whatever arguments it is sent; the clock's second stays where it was, and so does the
offset, unless the calendar ended before the offset did.  The other time is rejected
with the same answer, by every server whose clock shows the same second.
-/
theorem rejected_times_answered {words : List String}
    (hr : (h.dispatch s words).value.1 = .error (.inPast current requested)) :
    (h.dispatch s words).value.2 = s ∧
      (Instant.InCalendar (s.clock.logicalNow.secs + h.zone.secs) → h.Keeps s.files →
        ∀ args, String.intercalate " " args = current →
          ∃ reply s', (h.dispatch s ("set-server-time" :: args)).value = (.ok reply, s') ∧
            s'.clock.source = s.clock.source ∧
            s'.clock.logicalNow.secs = s.clock.logicalNow.secs ∧
            (Instant.InCalendar (s.clock.systemNow.secs + s.clock.offsetSecs) →
              s'.clock.offset = s.clock.offset)) ∧
      ∀ s' : Server, s'.clock.logicalNow.secs = s.clock.logicalNow.secs →
        ∀ args, String.intercalate " " args = requested →
          (h.dispatch s' ("set-server-time" :: args)).value =
            (.error (.inPast current requested), s') := by
  obtain ⟨hen, hs, t, u, ht, hu, hpast, rfl, rfl⟩ := dispatch_eq_inPast hr
  refine ⟨hs, fun hlocal hk args hargs => exists_landed_now hen hk hlocal hargs, ?_⟩
  intro s' hsecs args hargs
  have hfloor : s'.clock.logicalNow.floor = s.clock.logicalNow.floor :=
    congrArg Instant.ofSeconds hsecs
  rw [dispatch_of_ofWords (Command.ofWords_text ht hargs), execute_of_enabled hen]
  refine (setServerTime_past hu (by rwa [hsecs])).trans ?_
  rw [hfloor, CivilTime.textIn_of_toUtc? hu]

/-- A quarter of a second past 16:00:55, on the clocks of a zone that is behind by an odd number of
seconds. -/
def afternoon : Server :=
  ⟨{ source := .fixed ⟨100000, 250000000, by decide, by decide, quarter_lt_second⟩,
     offsetSecs := -30000 }, .empty⟩

def western : Handler := { zone := ⟨-12345, by decide, by decide⟩ }

/-- The request is for a leap second, which both times of the answer leave as it was typed. -/
theorem rejected_times_answered_leapSecond :
    (western.dispatch afternoon ["set-server-time", "1970:01:01\t", "00:00:60"]).value.1 =
        .error (.inPast "1970-01-01 16:00:55" "1970-01-01 00:00:60") ∧
      (∃ reply s', (western.dispatch afternoon
          ["set-server-time", "1970-01-01", "16:00:55"]).value = (.ok reply, s') ∧
        s'.clock.offset = afternoon.clock.offset) ∧
      (western.dispatch afternoon ["set-server-time", "1970-01-01 00:00:60"]).value =
        (.error (.inPast "1970-01-01 16:00:55" "1970-01-01 00:00:60"), afternoon) := by
  have hr : (western.dispatch afternoon ["set-server-time", "1970:01:01\t", "00:00:60"]).value.1 =
      .error (.inPast "1970-01-01 16:00:55" "1970-01-01 00:00:60") := by
    decide +kernel
  have hkeeps : western.Keeps afternoon.files := by
    rintro path ⟨⟩
  obtain ⟨-, hcurrent, hrequested⟩ := rejected_times_answered hr
  obtain ⟨reply, s', hvalue, -, -, hoffset⟩ := hcurrent (by decide) hkeeps
    ["1970-01-01", "16:00:55"] (by decide +kernel)
  exact ⟨hr, ⟨reply, s', hvalue, hoffset (by decide)⟩,
    hrequested afternoon rfl ["1970-01-01 00:00:60"] (by decide +kernel)⟩

end Handler

end Rollover
