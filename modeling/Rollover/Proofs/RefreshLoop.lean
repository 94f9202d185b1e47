/-
A loop that waits for one boundary after the other.

The loop asks for the next boundary and for the time left until then, sleeps exactly
that long, and begins again.  Two things could go wrong.  The clock could still answer
from the pair of edges that it remembers when the sleeper wakes, so that one boundary
comes twice; or it could find itself a bucket further on, so that one is left out.

Neither happens.  A sleeper wakes at the boundary to the nanosecond: the remaining
time is the plain difference, and the logical now moves exactly as the source does as
long as both are in the calendar.  The boundary lies at or past the end of the pair
that it came from, and a pair is not used from its end on.  And it lies less than a
width past that end, so the bucket found anew is the very next one.  From the first
boundary on the state is the same each time but for the width that has passed, and
the sleep is that width.

Where the loop begins matters for the first sleep only.  The clock may be within a
second, and it may answer from the guard minute, so that the first boundary is up to a
width and a minute away.
-/
import Rollover.Proofs.GuardBand

namespace Rollover

/-! ### Time that passes -/

namespace Instant

/-- Nanoseconds since 1970. -/
def totalNanos (t : Instant) : Int := t.secs * 1000000000 + t.nanos

/-- The instant of a count of nanoseconds, or the end of the calendar that is nearest to it. -/
def ofNanos (n : Int) : Instant :=
  if h : InCalendar (n / 1000000000) then
    ⟨n / 1000000000, (n % 1000000000).toNat, h.1, h.2, by omega⟩
  else ofSeconds (n / 1000000000)

theorem totalNanos_ofNanos {n : Int} (h : InCalendar (n / 1000000000)) :
    (ofNanos n).totalNanos = n := by
  rw [ofNanos, dif_pos h]
  show n / 1000000000 * 1000000000 + ((n % 1000000000).toNat : Int) = n
  omega

theorem totalNanos_ofMillis {n : Int} (h : InCalendar (n / 1000)) :
    (ofMillis n).totalNanos = n * 1000000 := by
  obtain ⟨lo, hi⟩ := h
  rw [ofMillis, dif_pos ⟨lo, hi⟩]
  show n / 1000 * 1000000000 + (((n % 1000).toNat * 1000000 : Nat) : Int) = n * 1000000
  omega

theorem nanos_spanTo (a b : Instant) : (a.spanTo b).nanos = b.totalNanos - a.totalNanos := by
  show (b.secs - a.secs) * 1000000000 + ((b.nanos : Int) - a.nanos) = _
  unfold totalNanos
  omega

end Instant

namespace Source

/-- The source after a time has passed.  A manual clock is moved by hand and drops what is less
than a millisecond. -/
def forward (d : Span) : Source → Source
  | system t => system (.ofNanos (t.totalNanos + d.nanos))
  | manual c => manual (c.advance d)
  | fixed t => fixed (.ofNanos (t.totalNanos + d.nanos))

/-- The time of a source in nanoseconds, which for a manual clock may lie outside the calendar. -/
def count : Source → Int
  | system t => t.totalNanos
  | manual c => c.millis * 1000000
  | fixed t => t.totalNanos

/-- The source can be moved by exactly this time: a manual clock only by whole milliseconds. -/
def Resolves (d : Span) : Source → Prop
  | manual _ => d.nanos % 1000000 = 0
  | _ => True

theorem totalNanos_now {s : Source} (h : Instant.InCalendar (s.count / 1000000000)) :
    s.now.totalNanos = s.count := by
  cases s with
  | system t => rfl
  | fixed t => rfl
  | manual c =>
      have hsecs : c.millis * 1000000 / 1000000000 = c.millis / 1000 := by omega
      exact Instant.totalNanos_ofMillis (hsecs ▸ h)

/-- What is left until a whole second can be slept by any source. -/
theorem resolves_of_whole {s : Source} {d : Span} (h : Instant.InCalendar (s.count / 1000000000))
    (hd : (s.now.totalNanos + d.nanos) % 1000000000 = 0) : s.Resolves d := by
  rw [totalNanos_now h] at hd
  cases s with
  | system t => exact trivial
  | fixed t => exact trivial
  | manual c =>
      have hwhole : (c.millis * 1000000 + d.nanos) % 1000000000 = 0 := hd
      show d.nanos % 1000000 = 0
      omega

/-- As long as it stays in the calendar, a source moves by exactly the time that passes. -/
theorem count_forward {s : Source} {d : Span} (hd : s.Resolves d)
    (hs : Instant.InCalendar (s.count / 1000000000))
    (hs' : Instant.InCalendar ((s.count + d.nanos) / 1000000000)) :
    (s.forward d).count = s.count + d.nanos := by
  cases s with
  | system t => exact Instant.totalNanos_ofNanos hs'
  | fixed t => exact Instant.totalNanos_ofNanos hs'
  | manual c =>
      have hd' : d.nanos % 1000000 = 0 := hd
      have hmillis : d.wholeMillis = d.nanos / 1000000 := by
        unfold Span.wholeMillis Span.cut
        split <;> omega
      have hlo : Instant.InCalendar (c.millis * 1000000 / 1000000000) := hs
      have hhi : Instant.InCalendar ((c.millis * 1000000 + d.nanos) / 1000000000) := hs'
      have hfits : Word.Fits (c.millis + d.wholeMillis) := by
        unfold Instant.InCalendar Instant.first Instant.last at hhi
        unfold Word.Fits Word.least Word.greatest
        omega
      show Word.add c.millis d.wholeMillis * 1000000 = c.millis * 1000000 + d.nanos
      rw [Word.add_eq_of_fits hfits]
      omega

end Source

theorem Width.succ_mul_seconds (w : Width) (k : Nat) :
    ((k + 1 : Nat) : Int) * w.seconds = k * w.seconds + w.seconds := by
  rw [Int.natCast_succ, Int.add_mul, Int.one_mul]

/-! ### One round of the loop -/

namespace Clock

/-- The second of the next boundary, whether the calendar reaches that far or not. -/
def boundarySecs (c : Clock) (w : Width) (x : Option Span) : Int :=
  (c.present w).stop + Span.shiftSeconds x

/-- The boundary and the sleep of one round, and the clock when the sleeper wakes. -/
def turn (c : Clock) (w : Width) (x : Option Span) : Wait × Clock :=
  let (target, c) := (c.nextStart w x).value
  let (sleep, c) := (c.untilNextStart w x).value
  (⟨target, sleep⟩, { c with source := c.source.forward sleep })

/-- The clock before round `k` of the loop. -/
def awake (c : Clock) (w : Width) (x : Option Span) : Nat → Clock
  | 0 => c
  | k + 1 => ((c.awake w x k).turn w x).2

/-- The boundary of a round and the time of the source, before and after the sleep, are in the
calendar. -/
structure InReach (c : Clock) (w : Width) (x : Option Span) : Prop where
  boundary : Instant.InCalendar (c.boundarySecs w x)
  before : Instant.InCalendar (c.source.count / 1000000000)
  after : Instant.InCalendar ((c.source.count + (c.turn w x).1.sleep.nanos) / 1000000000)

instance (c : Clock) (w : Width) (x : Option Span) : Decidable (c.InReach w x) :=
  decidable_of_iff
    (Instant.InCalendar (c.boundarySecs w x) ∧ Instant.InCalendar (c.source.count / 1000000000) ∧
      Instant.InCalendar ((c.source.count + (c.turn w x).1.sleep.nanos) / 1000000000))
    ⟨fun ⟨h1, h2, h3⟩ => ⟨h1, h2, h3⟩, fun ⟨h1, h2, h3⟩ => ⟨h1, h2, h3⟩⟩

variable {c : Clock} {w : Width} {x : Option Span}

theorem remember_remember (c : Clock) (w : Width) (e e' : Edges) :
    (c.remember w e).remember w e' = c.remember w e' := by
  cases w <;> rfl

/-- The pair that was used is used again. -/
theorem present_remember (w : Width) (h : Instant.InCalendar c.anchorSecs) :
    (c.remember w (c.present w)).present w = c.present w := by
  have hkept : (c.remember w (c.present w)).cache.get w = c.present w :=
    EdgeCache.get_set_self _ _ _
  have hu : ((c.remember w (c.present w)).cache.get w).Usable w c.anchorSecs
      c.logicalNow.secs := by
    rw [hkept]
    exact usable_present w h
  exact (present_of_usable (c := c.remember w (c.present w)) h hu).trans hkept

theorem nextStart_value (c : Clock) (w : Width) (x : Option Span) :
    (c.nextStart w x).value =
      (.ofSeconds (c.boundarySecs w x), c.remember w (c.present w)) :=
  ask_value c w (.nextStart x)

/-- Both questions of a round are answered from the same pair of edges, which is kept. -/
theorem turn_eq (w : Width) (x : Option Span) (h : Instant.InCalendar c.anchorSecs) :
    c.turn w x = (⟨.ofSeconds (c.boundarySecs w x), c.remaining (.ofSeconds (c.boundarySecs w x))⟩,
      { c.remember w (c.present w) with
        source := c.source.forward (c.remaining (.ofSeconds (c.boundarySecs w x))) }) := by
  have hboundary : (c.remember w (c.present w)).boundarySecs w x = c.boundarySecs w x := by
    unfold boundarySecs
    rw [present_remember w h]
  simp only [turn, untilNextStart, Logged.value_bind, Logged.value_pure, nextStart_value,
    hboundary, present_remember w h, remember_remember]
  rfl

/-- What one round does, as long as it is in reach. -/
structure Turned (c : Clock) (w : Width) (x : Option Span) (p : Wait) (d : Clock) : Prop where
  boundary : p.target.secs = c.boundarySecs w x
  whole : p.target.nanos = 0
  /-- The sleep is the logical time that is left, and there is some. -/
  sleep_eq : p.sleep = c.logicalNow.spanTo p.target
  sleep_pos : 0 < p.sleep.nanos
  sleep_le : p.sleep.nanos ≤
    (w.seconds + Edges.guardSeconds + Span.shiftSeconds x) * 1000000000
  /-- A manual clock can be moved by exactly this sleep. -/
  resolves : c.source.Resolves p.sleep
  /-- The source has moved by exactly the sleep. -/
  moved : c.systemNow.spanTo d.systemNow = p.sleep
  /-- The sleeper wakes at the boundary, and the sum of source and offset is not cut off there. -/
  woken : d.logicalNow = p.target
  sum_eq : d.systemNow.secs + d.offsetSecs = p.target.secs
  anchor_eq : d.anchorSecs = c.anchorSecs
  offset_eq : d.offsetSecs = c.offsetSecs
  kept : d.cache.get w = c.present w

/-- The logical time that is left until the boundary, counted in the time of the source. -/
theorem nanos_left (hsum : Instant.InCalendar (c.systemNow.secs + c.offsetSecs))
    (hboundary : Instant.InCalendar (c.boundarySecs w x)) :
    (c.logicalNow.spanTo (.ofSeconds (c.boundarySecs w x))).nanos =
      (c.boundarySecs w x - c.offsetSecs) * 1000000000 - c.systemNow.totalNanos := by
  obtain ⟨hsecs, hnanos⟩ := logicalNow_of_inCalendar hsum
  rw [Instant.nanos_spanTo]
  unfold Instant.totalNanos
  rw [Instant.secs_ofSeconds hboundary.1 hboundary.2, Instant.nanos_ofSeconds, hsecs, hnanos]
  omega

/-- The boundary lies past the present second, but only by a width, the guard minute and the
shift. -/
theorem nanos_left_bounds (h : Instant.InCalendar c.anchorSecs) (hx : 0 ≤ Span.shiftSeconds x)
    (hboundary : Instant.InCalendar (c.boundarySecs w x)) :
    0 < (c.logicalNow.spanTo (.ofSeconds (c.boundarySecs w x))).nanos ∧
      (c.logicalNow.spanTo (.ofSeconds (c.boundarySecs w x))).nanos ≤
        (w.seconds + Edges.guardSeconds + Span.shiftSeconds x) * 1000000000 := by
  have hu := usable_present w h
  have hwhole : (c.present w).stop = (c.present w).start + w.seconds := hu.whole
  have hguarded : (c.present w).start ≤ c.logicalNow.secs + Edges.guardSeconds := hu.guarded
  have hlasting : c.logicalNow.secs < (c.present w).stop := hu.lasting
  have hlt := c.logicalNow.nanos_lt
  rw [Instant.nanos_spanTo]
  unfold Instant.totalNanos
  rw [Instant.secs_ofSeconds hboundary.1 hboundary.2, Instant.nanos_ofSeconds]
  unfold boundarySecs
  omega

theorem remaining_of_pos {t : Instant} (h : 0 < (c.logicalNow.spanTo t).nanos) :
    c.remaining t = c.logicalNow.spanTo t := by
  unfold remaining
  exact if_neg (by omega)

theorem sum_of_totalNanos {n : Int}
    (h : c.systemNow.totalNanos = (n - c.offsetSecs) * 1000000000) :
    c.systemNow.secs + c.offsetSecs = n := by
  have hlt := c.systemNow.nanos_lt
  unfold Instant.totalNanos at h
  omega

/-- A source at the second that the offset takes to a boundary puts the logical now there. -/
theorem logicalNow_of_totalNanos {n : Int} (hn : Instant.InCalendar n)
    (h : c.systemNow.totalNanos = (n - c.offsetSecs) * 1000000000) :
    c.logicalNow = .ofSeconds n := by
  have hsum := sum_of_totalNanos h
  obtain ⟨hsecs, hnanos⟩ := logicalNow_of_inCalendar (c := c) (hsum ▸ hn)
  unfold Instant.totalNanos at h
  refine Instant.ext_parts ?_ ?_
  · rw [hsecs, hsum, Instant.secs_ofSeconds hn.1 hn.2]
  · rw [hnanos, Instant.nanos_ofSeconds]
    omega

theorem turned_turn (h : Instant.InCalendar c.anchorSecs)
    (hsum : Instant.InCalendar (c.systemNow.secs + c.offsetSecs))
    (hx : 0 ≤ Span.shiftSeconds x) (hin : c.InReach w x) :
    c.Turned w x (c.turn w x).1 (c.turn w x).2 := by
  obtain ⟨hboundary, hbefore, hafter⟩ := hin
  have htarget : (Instant.ofSeconds (c.boundarySecs w x)).secs = c.boundarySecs w x :=
    Instant.secs_ofSeconds hboundary.1 hboundary.2
  have hleft := nanos_left (w := w) (x := x) hsum hboundary
  obtain ⟨hpos, hle⟩ := nanos_left_bounds (w := w) h hx hboundary
  have hsleep := remaining_of_pos hpos
  have hresolves : c.source.Resolves (c.logicalNow.spanTo (.ofSeconds (c.boundarySecs w x))) := by
    refine Source.resolves_of_whole hbefore ?_
    show (c.systemNow.totalNanos + _) % 1000000000 = 0
    rw [hleft]
    omega
  rw [turn_eq w x h, hsleep] at hafter ⊢
  have hcount := Source.count_forward hresolves hbefore hafter
  -- Counted in nanoseconds, the source is where the offset takes it to the boundary.
  have hmoved : (c.source.forward (c.logicalNow.spanTo (.ofSeconds
      (c.boundarySecs w x)))).now.totalNanos = (c.boundarySecs w x - c.offsetSecs) * 1000000000 := by
    rw [Source.totalNanos_now (by rw [hcount]; exact hafter), hcount, hleft,
      ← Source.totalNanos_now hbefore]
    unfold systemNow
    omega
  refine ⟨htarget, rfl, rfl, hpos, hle, hresolves, ?_, ?_,
    ?_, rfl, rfl, EdgeCache.get_set_self _ _ _⟩
  · refine Span.ext_nanos ?_
    rw [Instant.nanos_spanTo, hleft]
    exact congrArg (· - c.systemNow.totalNanos) hmoved
  · exact logicalNow_of_totalNanos hboundary hmoved
  · show _ = (Instant.ofSeconds (c.boundarySecs w x)).secs
    rw [htarget]
    exact sum_of_totalNanos hmoved

/-! ### From round to round -/

/-- A sleeper that wakes at or past the end of a pair, but less than a width past it, finds the
very next pair. -/
theorem Turned.boundarySecs_eq {p : Wait} {d : Clock} (ht : c.Turned w x p d)
    (h : Instant.InCalendar c.anchorSecs) (hx : 0 ≤ Span.shiftSeconds x)
    (hx' : Span.shiftSeconds x < w.seconds) :
    d.boundarySecs w x = c.boundarySecs w x + w.seconds := by
  have hd : Instant.InCalendar d.anchorSecs := ht.anchor_eq ▸ h
  have hn := d.logicalNow.inCalendar_secs
  have hu := usable_present w h
  have hwhole : (c.present w).stop = (c.present w).start + w.seconds := hu.whole
  have hnow : d.logicalNow.secs = (c.present w).stop + Span.shiftSeconds x := by
    rw [ht.woken, ht.boundary, boundarySecs]
  have hgrid : OnGrid w c.anchorSecs d.anchorSecs := by
    rw [ht.anchor_eq]
    unfold OnGrid
    rw [Int.sub_self, Int.zero_emod]
  have hfollows := follows_look (kept_look w h ht.kept) hd hgrid
  have hstop : OnGrid w d.anchorSecs (c.present w).stop := by
    rw [hwhole, ht.anchor_eq]
    exact hu.aligned.add_width
  have hstart : (d.present w).start = (c.present w).stop := by
    have hmoved : (c.present w).start < (d.present w).start :=
      hfollows.forth_iff.mpr (by show (c.present w).start + w.seconds ≤ d.logicalNow.secs; omega)
    rw [Bucket.eq_start hd hn hstop (by omega) (by omega)]
    exact hfollows.direct (Int.ne_of_gt hmoved)
  have hwhole' : (d.present w).stop = (d.present w).start + w.seconds :=
    (usable_present w hd).whole
  unfold boundarySecs
  omega

/-- The boundary and the sleep of round `k`. -/
def round (c : Clock) (w : Width) (x : Option Span) (k : Nat) : Wait :=
  ((c.awake w x k).turn w x).1

section Rounds

variable (h : Instant.InCalendar c.anchorSecs)
  (hsum : Instant.InCalendar (c.systemNow.secs + c.offsetSecs))
  (hx : 0 ≤ Span.shiftSeconds x)

include h hsum hx

theorem ready_awake {k : Nat} (hin : ∀ j < k, (c.awake w x j).InReach w x) :
    Instant.InCalendar (c.awake w x k).anchorSecs ∧
      Instant.InCalendar ((c.awake w x k).systemNow.secs + (c.awake w x k).offsetSecs) := by
  induction k with
  | zero => exact ⟨h, hsum⟩
  | succ k ih =>
      obtain ⟨hk, hksum⟩ := ih fun j hj => hin j (Nat.lt_succ_of_lt hj)
      have ht := turned_turn hk hksum hx (hin k (Nat.lt_succ_self k))
      refine ⟨?_, ?_⟩
      · show Instant.InCalendar ((c.awake w x k).turn w x).2.anchorSecs
        rw [ht.anchor_eq]
        exact hk
      · show Instant.InCalendar (((c.awake w x k).turn w x).2.systemNow.secs +
          ((c.awake w x k).turn w x).2.offsetSecs)
        rw [ht.sum_eq]
        exact Instant.inCalendar_secs _

theorem turned_round {k : Nat} (hin : ∀ j ≤ k, (c.awake w x j).InReach w x) :
    (c.awake w x k).Turned w x (c.round w x k) (c.awake w x (k + 1)) := by
  obtain ⟨hk, hksum⟩ := ready_awake h hsum hx (k := k) fun j hj => hin j (Nat.le_of_lt hj)
  exact turned_turn hk hksum hx (hin k (Nat.le_refl k))

/-- Each round is a width further on than the one before. -/
theorem boundarySecs_awake (hx' : Span.shiftSeconds x < w.seconds) {k : Nat}
    (hin : ∀ j < k, (c.awake w x j).InReach w x) :
    (c.awake w x k).boundarySecs w x = c.boundarySecs w x + k * w.seconds := by
  induction k with
  | zero => simp [awake]
  | succ k ih =>
      have hin' : ∀ j < k, (c.awake w x j).InReach w x := fun j hj => hin j (Nat.lt_succ_of_lt hj)
      have ht := turned_round h hsum hx (k := k) fun j hj => hin j (Nat.lt_succ_of_le hj)
      have hk := (ready_awake h hsum hx hin').1
      rw [ht.boundarySecs_eq hk hx hx', ih hin', w.succ_mul_seconds k]
      omega

end Rounds

/-- Round `k` of a loop meets its boundary. -/
structure Met (c : Clock) (w : Width) (x : Option Span) (k : Nat) : Prop where
  turned : (c.awake w x k).Turned w x (c.round w x k) (c.awake w x (k + 1))
  /-- Its boundary is `k` widths past the first one. -/
  spaced : (c.round w x k).target.secs = (c.round w x 0).target.secs + k * w.seconds
  /-- Every sleep but the first is a width long. -/
  steady : 0 < k → (c.round w x k).sleep.nanos = w.seconds * 1000000000
  /-- Waiting for the boundary gives the same boundary and the same sleep. -/
  waited : ((c.awake w x k).waitNextStart w x).value.1 = c.round w x k

theorem waited_round (h : Instant.InCalendar c.anchorSecs) :
    (c.waitNextStart w x).value.1 = (c.turn w x).1 := by
  rw [turn_eq w x h]
  simp only [waitNextStart, Logged.value_bind, Logged.value_pure, nextStart_value]
  rfl

theorem met {k : Nat} (h : Instant.InCalendar c.anchorSecs)
    (hsum : Instant.InCalendar (c.systemNow.secs + c.offsetSecs))
    (hx : 0 ≤ Span.shiftSeconds x) (hx' : Span.shiftSeconds x < w.seconds)
    (hin : ∀ j ≤ k, (c.awake w x j).InReach w x) : c.Met w x k := by
  have ht := turned_round h hsum hx hin
  have hboundary : ∀ j ≤ k, (c.round w x j).target.secs = c.boundarySecs w x + j * w.seconds := by
    intro j hj
    rw [(turned_round h hsum hx (k := j) fun i hi => hin i (Nat.le_trans hi hj)).boundary]
    exact boundarySecs_awake h hsum hx hx' fun i hi => hin i (by omega)
  refine ⟨ht, ?_, ?_, waited_round (ready_awake h hsum hx fun j hj => hin j (by omega)).1⟩
  · rw [hboundary k (Nat.le_refl k), hboundary 0 (Nat.zero_le k)]
    omega
  · intro hk
    obtain ⟨k, rfl⟩ := Nat.exists_eq_succ_of_ne_zero (Nat.ne_of_gt hk)
    have hprev := turned_round h hsum hx (k := k) fun j hj => hin j (by omega)
    have hnow : (c.awake w x (k + 1)).logicalNow = (c.round w x k).target := hprev.woken
    rw [ht.sleep_eq, hnow, Instant.nanos_spanTo]
    unfold Instant.totalNanos
    rw [ht.whole, hprev.whole, hboundary (k + 1) (Nat.le_refl _), hboundary k (Nat.le_succ k),
      w.succ_mul_seconds k]
    omega

end Clock

namespace Server

/--
**A loop meets every boundary once.**  Start a loop on any server that has been run,
while the sum of source and offset is an instant, with a shift of less than a width.
As long as boundaries and the time of the source stay in the calendar, the boundary
of round `k` is `k` widths past the first one; the sleep until then is the logical
time that is left, which is never none; the sleeper wakes at the boundary to the
nanosecond, and every sleep but the first is a width long.
-/
theorem loop_meets_every_boundary {s : Server} (hs : s.Reachable) (w : Width) (x : Option Span)
    (k : Nat) (hsum : Instant.InCalendar (s.clock.systemNow.secs + s.clock.offsetSecs))
    (hx : 0 ≤ Span.shiftSeconds x) (hx' : Span.shiftSeconds x < w.seconds)
    (hin : ∀ j ≤ k, (s.clock.awake w x j).InReach w x) : s.clock.Met w x k :=
  Clock.met hs.inCalendar_anchor hsum hx hx' hin

/-- A manual clock that was asked just past midnight and put back to half a second past 23:59:30. -/
def putBack : Server :=
  (fresh (.manual (.startingAt (.ofSeconds 86410))) .empty).run
    [.ask .day (.currentStart none), .source (.manual ⟨86370500, "ManualClock"⟩)]

/-- From the guard minute the first sleep is longer than a day, and all the others are days. -/
theorem loop_meets_every_boundary_putBack :
    putBack.Reachable ∧
      Instant.InCalendar (putBack.clock.systemNow.secs + putBack.clock.offsetSecs) ∧
      (∀ j ≤ 2, (putBack.clock.awake .day none j).InReach .day none) ∧
      (putBack.clock.round .day none 0).sleep.nanos = 86429500000000 ∧
      (putBack.clock.round .day none 2).target = .ofSeconds 345600 ∧
      (putBack.clock.round .day none 2).sleep.nanos = 86400000000000 := by
  have hs : putBack.Reachable := ⟨_, _, _, rfl⟩
  have hsum : Instant.InCalendar (putBack.clock.systemNow.secs + putBack.clock.offsetSecs) := by
    decide
  have hin : ∀ j ≤ 2, (putBack.clock.awake .day none j).InReach .day none := by decide
  have hmet := loop_meets_every_boundary hs .day none 2 hsum (by decide) (by decide) hin
  have hfirst : (putBack.clock.round .day none 0).target.secs = 172800 := by decide
  refine ⟨hs, hsum, hin, by decide, ?_, hmet.steady (by decide)⟩
  refine Instant.ext_parts ?_ hmet.turned.whole
  rw [hmet.spaced, hfirst]
  rfl

end Server

end Rollover
