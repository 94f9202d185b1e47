/-
How far the present bucket may lag behind, and when it moves.

A look at the edges of a width leaves the pair that it used behind, and nothing but
another look at the same width replaces it.  So when the next look comes, after
whatever has been done in between, the pair of the last one is still remembered.  If
the anchor has meanwhile moved by whole widths only, the pair is on the present grid
too, and of the four things that the test looks at two are left: the second of the
look must not lie more than the guard minute before the start, and it must lie before
the end.  Inside that band the start stays.  Outside it the start is computed anew,
and since it then lies at or before the second, and less than a width before it, it
has moved to the side on which the band was left.

The band is a width and a minute long and moves with the start, so a start that has
been reported is not taken back for less than a minute, and nothing that happens
inside its band makes it change to and fro.
-/
import Mathlib.Data.List.Chain
import Rollover.Proofs.Run

namespace Rollover

/-- One look at the remembered edges of a width: the second and the anchor at which it was made,
and the start of the bucket that it used. -/
structure Look where
  now : Int
  anchor : Int
  start : Int
deriving DecidableEq

namespace Look

/-- How a look may differ from the one before it: the start goes back only from beyond the guard
minute, forward only from the end of the bucket on, and is then the one computed directly. -/
structure Follows (w : Width) (l l' : Look) : Prop where
  back_iff : l'.start < l.start ↔ l'.now < l.start - Edges.guardSeconds
  forth_iff : l.start < l'.start ↔ l.start + w.seconds ≤ l'.now
  stays : l.start - Edges.guardSeconds ≤ l'.now → l'.now < l.start + w.seconds →
    l'.start = l.start
  direct : l'.start ≠ l.start → l'.start = Bucket.start w l'.anchor l'.now

/-- The clock remembers the pair that the look used. -/
structure Kept (w : Width) (l : Look) (c : Clock) : Prop where
  edges_eq : c.cache.get w = ⟨l.start, l.start + w.seconds⟩
  aligned : OnGrid w l.anchor l.start

end Look

/-- Anchors that lie whole widths apart have the same grid. -/
theorem OnGrid.of_anchor {w : Width} {anchor anchor' s : Int} (h : OnGrid w anchor anchor')
    (hs : OnGrid w anchor s) : OnGrid w anchor' s := by
  unfold OnGrid at h hs ⊢
  rcases w.seconds_eq with hw | hw <;> rw [hw] at h hs ⊢ <;> omega

/-! ### Two looks -/

namespace Clock

/-- What a look at the edges of a width would use now. -/
def look (c : Clock) (w : Width) : Look :=
  ⟨c.logicalNow.secs, c.anchorSecs, (c.present w).start⟩

theorem kept_look {c : Clock} (w : Width) (h : Instant.InCalendar c.anchorSecs) {d : Clock}
    (hd : d.cache.get w = c.present w) : (c.look w).Kept w d := by
  have hu := usable_present w h
  refine ⟨?_, hu.aligned⟩
  rw [hd]
  show c.present w = ⟨(c.present w).start, (c.present w).start + w.seconds⟩
  rw [← hu.whole]

/-- A remembered pair is used again inside its band and replaced outside of it. -/
theorem follows_look {c : Clock} {w : Width} {l : Look} (hk : l.Kept w c)
    (h : Instant.InCalendar c.anchorSecs) (hgrid : OnGrid w l.anchor c.anchorSecs) :
    l.Follows w (c.look w) := by
  have hn := c.logicalNow.inCalendar_secs
  have hw := w.seconds_pos
  by_cases hband : l.start - Edges.guardSeconds ≤ c.logicalNow.secs ∧
      c.logicalNow.secs < l.start + w.seconds
  · have hu : (c.cache.get w).Usable w c.anchorSecs c.logicalNow.secs := by
      rw [hk.edges_eq]
      exact ⟨rfl, hgrid.of_anchor hk.aligned, by show l.start ≤ _; omega, hband.2⟩
    have hsame : (c.look w).start = l.start := by
      show (c.present w).start = l.start
      rw [present_of_usable h hu, hk.edges_eq]
    have hnow : (c.look w).now = c.logicalNow.secs := rfl
    refine ⟨?_, ?_, fun _ _ => hsame, fun hne => absurd hsame hne⟩
    · rw [hsame, hnow]
      omega
    · rw [hsame, hnow]
      omega
  · have hnot : ¬ (c.cache.get w).Serve w c.anchorSecs c.logicalNow.secs := by
      intro hserve
      have hu := (Edges.serve_iff h hn).mp hserve
      rw [hk.edges_eq] at hu
      have hguarded : l.start ≤ c.logicalNow.secs + Edges.guardSeconds := hu.guarded
      have hlasting : c.logicalNow.secs < l.start + w.seconds := hu.lasting
      exact hband ⟨by omega, hlasting⟩
    have hdirect : (c.look w).start = Bucket.start w c.anchorSecs c.logicalNow.secs := by
      show (c.present w).start = _
      rw [present_of_not_serve hnot]
      rfl
    have hle := Bucket.start_le (w := w) h hn
    have hlt := Bucket.lt_start_add (w := w) h hn
    have hnow : (c.look w).now = c.logicalNow.secs := rfl
    have hguard : Edges.guardSeconds = 60 := rfl
    refine ⟨?_, ?_, fun hlo hhi => absurd ⟨hlo, hhi⟩ hband, fun _ => hdirect⟩
    · rw [hdirect, hnow]
      omega
    · rw [hdirect, hnow]
      omega

end Clock

/-! ### The looks of a run -/

namespace Server

/-- The looks that a run makes at the edges of a width, in order. -/
def looks (w : Width) : Server → List Act → List Look
  | _, [] => []
  | s, a :: acts =>
    if a.asks = some w then s.clock.look w :: looks w (s.after a) acts
    else looks w (s.after a) acts

/-- Acts that do not look at a width leave the pair of the last look at it remembered. -/
theorem kept_after {w : Width} {l : Look} {s : Server} {a : Act} (ha : a.asks ≠ some w)
    (hk : l.Kept w s.clock) : l.Kept w (s.after a).clock := by
  refine ⟨?_, hk.aligned⟩
  rw [get_cache_after ha, hk.edges_eq]

theorem kept_after_look {w : Width} {s : Server} {a : Act} (ha : a.asks = some w)
    (h : Instant.InCalendar s.clock.anchorSecs) :
    (s.clock.look w).Kept w (s.after a).clock := by
  exact Clock.kept_look w h (get_cache_after_of_asks ha)

/-- The first look of a run follows the one whose pair is remembered, and each further look
follows the one before it. -/
theorem isChain_looks_of_kept {w : Width} (acts : List Act) :
    ∀ {s : Server} {l : Look}, Instant.InCalendar s.clock.anchorSecs → l.Kept w s.clock →
      (l :: s.looks w acts).IsChain
        (fun l l' => OnGrid w l.anchor l'.anchor → l.Follows w l') := by
  induction acts with
  | nil => intro s l _ _; exact .singleton l
  | cons a acts ih =>
      intro s l h hk
      have h' := inCalendar_anchor_after a h
      by_cases ha : a.asks = some w
      · rw [looks, if_pos ha]
        exact .cons_cons (Clock.follows_look hk h) (ih h' (kept_after_look ha h))
      · rw [looks, if_neg ha]
        exact ih h' (kept_after ha hk)

theorem isChain_looks {w : Width} (acts : List Act) :
    ∀ {s : Server}, Instant.InCalendar s.clock.anchorSecs →
      (s.looks w acts).IsChain (fun l l' => OnGrid w l.anchor l'.anchor → l.Follows w l') := by
  induction acts with
  | nil => intro s _; exact .nil
  | cons a acts ih =>
      intro s h
      have h' := inCalendar_anchor_after a h
      by_cases ha : a.asks = some w
      · rw [looks, if_pos ha]
        exact isChain_looks_of_kept acts h' (kept_after_look ha h)
      · rw [looks, if_neg ha]
        exact ih h'

end Server

/-! ### Runs on one grid -/

namespace Look

variable {w : Width}

/-- As long as the anchor only moves by whole widths, every look follows the one before it. -/
theorem isChain_follows {ls : List Look} :
    ∀ {l : Look},
      (l :: ls).IsChain (fun l l' => OnGrid w l.anchor l'.anchor → l.Follows w l') →
      (∀ l' ∈ ls, OnGrid w l.anchor l'.anchor) → (l :: ls).IsChain (Follows w) := by
  induction ls with
  | nil => intro l _ _; exact .singleton l
  | cons l' ls ih =>
      intro l hchain hgrid
      obtain ⟨hfollows, hrest⟩ := List.isChain_cons_cons.mp hchain
      have hl' := hgrid l' List.mem_cons_self
      refine .cons_cons (hfollows hl') (ih hrest ?_)
      intro m hm
      exact hl'.of_anchor (hgrid m (List.mem_cons_of_mem _ hm))

/-- Without a fall below the guard minute the start never goes back. -/
theorem isChain_start_le {ls : List Look} :
    ∀ {l : Look}, (l :: ls).IsChain (Follows w) →
      (l :: ls).IsChain (fun l l' => l.start - Edges.guardSeconds ≤ l'.now) →
      ((l :: ls).map start).IsChain (· ≤ ·) := by
  induction ls with
  | nil => intro l _ _; exact .singleton _
  | cons l' ls ih =>
      intro l hchain hguard
      obtain ⟨hfollows, hrest⟩ := List.isChain_cons_cons.mp hchain
      obtain ⟨hnow, hguard⟩ := List.isChain_cons_cons.mp hguard
      have hle : l.start ≤ l'.start := by
        have hback := hfollows.back_iff
        omega
      exact .cons_cons hle (ih hrest hguard)

/-- Inside the band of one look all further looks use its start. -/
theorem start_eq_of_band {ls : List Look} :
    ∀ {l : Look}, (l :: ls).IsChain (Follows w) →
      (∀ l' ∈ ls, l.start - Edges.guardSeconds ≤ l'.now ∧ l'.now < l.start + w.seconds) →
      ∀ l' ∈ ls, l'.start = l.start := by
  induction ls with
  | nil => intro l _ _ l' hl'; cases hl'
  | cons m ls ih =>
      intro l hchain hband l' hl'
      obtain ⟨hfollows, hrest⟩ := List.isChain_cons_cons.mp hchain
      obtain ⟨hlo, hhi⟩ := hband m List.mem_cons_self
      have hm : m.start = l.start := hfollows.stays hlo hhi
      rcases List.mem_cons.mp hl' with rfl | hl'
      · exact hm
      · rw [← hm]
        refine ih hrest ?_ l' hl'
        intro k hk
        rw [hm]
        exact hband k (List.mem_cons_of_mem _ hk)

end Look

namespace Server

/--
**The present bucket moves only when its band is left.**  Take any run from a new
clock and the looks that it makes at one width.  If the anchor of a look lies whole
widths from that of the look before, the start goes back exactly when the second has
fallen more than a minute below the last start, goes on exactly when the last bucket
is over, and otherwise stays; where it moves, it is the start computed directly.  So
from any look on, as long as the anchor moves by whole widths only, the starts never
go down unless some second falls more than a minute below the start that was used
last, and while all seconds are in the band of the first look its start is used
throughout.
-/
theorem looks_follow_guardBand (src : Source) (fs : Files) (acts : List Act) (w : Width) :
    let looks := (fresh src fs).looks w acts
    looks.IsChain (fun l l' => OnGrid w l.anchor l'.anchor → l.Follows w l') ∧
      ∀ (l : Look) (later : List Look), l :: later <:+ looks →
        (∀ l' ∈ later, OnGrid w l.anchor l'.anchor) →
        ((l :: later).IsChain (fun l l' => l.start - Edges.guardSeconds ≤ l'.now) →
          ((l :: later).map Look.start).Pairwise (· ≤ ·)) ∧
        ((∀ l' ∈ later, l.start - Edges.guardSeconds ≤ l'.now ∧ l'.now < l.start + w.seconds) →
          ∀ l' ∈ later, l'.start = l.start) := by
  intro looks
  have hchain := isChain_looks (w := w) acts (inCalendar_anchor_fresh src fs)
  refine ⟨hchain, ?_⟩
  intro l later hsuffix hgrid
  have hfollows := Look.isChain_follows (hchain.suffix hsuffix) hgrid
  refine ⟨?_, Look.start_eq_of_band hfollows⟩
  intro hguard
  exact List.isChain_iff_pairwise.mp (Look.isChain_start_le hfollows hguard)

/-- At midnight the day is asked for, then the time goes back by a minute and the anchor goes on
by a week. -/
def rewound : List Act :=
  [.ask .day (.currentStart none), .source (.fixed (.ofSeconds 86340)),
    .setAnchor (.ofSeconds 604800), .ask .day (.currentStart none)]

/-- A full minute before the start is still in the band, so the start stays. -/
theorem looks_follow_guardBand_rewound :
    let looks := (fresh (.fixed (.ofSeconds 86400)) .empty).looks .day rewound
    looks.map Look.now = [86400, 86340] ∧ ∀ l ∈ looks, l.start = 86400 := by
  intro looks
  have hlooks : looks = ⟨86400, 0, 86400⟩ :: looks.tail := by decide
  have hsuffix : ⟨86400, 0, 86400⟩ :: looks.tail <:+ looks := ⟨[], hlooks.symm⟩
  have hlater : ∀ l ∈ looks.tail, l.start = 86400 :=
    ((looks_follow_guardBand (.fixed (.ofSeconds 86400)) .empty rewound .day).2 _ _ hsuffix
      (by decide)).2 (by decide)
  refine ⟨by decide, ?_⟩
  intro l hl
  rw [hlooks] at hl
  rcases List.mem_cons.mp hl with rfl | hl
  · rfl
  · exact hlater l hl

end Server

end Rollover
