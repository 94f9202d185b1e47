/-
The refresh clock of a server.

The clock adds two things to its source of time.  The base anchor says where
buckets start, and the logical offset moves the whole server in time: the logical
now is the source's now plus the offset, or the end of the calendar if that is
outside.  Both are whole seconds.  Their sum is kept beside them, so that it can
be had in one reading.

Questions about the current bucket go through the remembered edges and may renew
them; questions about a given instant are computed from the anchor alone.
-/
import Rollover.Journal
import Rollover.Source

namespace Rollover

structure Clock where
  source : Source
  anchorSecs : Int := 0
  offsetSecs : Int := 0
  shiftedAnchorSecs : Int := 0
  cache : EdgeCache := {}
deriving DecidableEq

/-- A clock over a source, anchored at 1970 and not moved. -/
def Clock.over (s : Source) : Clock := { source := s }

namespace Clock

def sourceName (c : Clock) : String := c.source.name

/-! ### Anchor and offset -/

/-- Renews the sum of anchor and offset. -/
def publish (c : Clock) : Clock :=
  { c with shiftedAnchorSecs := Word.add c.anchorSecs c.offsetSecs }

/-- Sets the anchor to the second that an instant lies in. -/
def setAnchor (c : Clock) (t : Instant) : Logged Clock := do
  let c := publish { c with anchorSecs := t.floor.secs }
  Logged.log (.anchorSet (.ofSeconds c.anchorSecs))
  return c

/-- Sets the offset to the whole seconds of a span. -/
def setOffset (c : Clock) (d : Span) : Logged Clock := do
  let c := publish { c with offsetSecs := d.wholeSeconds }
  Logged.log (.offsetSet c.offsetSecs)
  return c

def anchor (c : Clock) : Instant := .ofSeconds c.anchorSecs

def offset (c : Clock) : Span := .ofSeconds c.offsetSecs

def shiftedAnchor (c : Clock) : Instant := .ofSeconds c.shiftedAnchorSecs

/-! ### Now -/

def systemNow (c : Clock) : Instant := c.source.now

/-- The source's now moved by the offset, or the end of the calendar on that side. -/
def logicalNow (c : Clock) : Instant :=
  let now := c.systemNow
  match (Span.ofSeconds? c.offsetSecs).bind fun _ => now.addSeconds? c.offsetSecs with
  | some t => t
  | none => .ofSeconds (Word.add now.secs c.offsetSecs)

/-! ### The buckets of a given instant -/

/-- The start of the bucket of `t`, moved by an optional shift. -/
def bucketStart (c : Clock) (w : Width) (extra : Option Span) (t : Instant) : Instant :=
  Bucket.startWith w c.anchorSecs extra t

/-- The latest refresh at or before `t`. -/
def lastRefresh (c : Clock) (w : Width) (refresh : Option Span) (t : Instant) : Instant :=
  Bucket.refreshAtOrBefore w c.anchorSecs refresh t

/-- The number of the bucket of `t` when buckets roll `refresh` past the anchor. -/
def bucketIndex (c : Clock) (w : Width) (refresh : Option Span) (t : Instant) : Int :=
  Bucket.indexOf w c.anchorSecs refresh t

/-- Both instants lie between the same two refreshes. -/
def sameBucket (c : Clock) (w : Width) (refresh : Option Span) (l r : Instant) : Bool :=
  c.bucketIndex w refresh l == c.bucketIndex w refresh r

/-! ### The current bucket -/

/-- The edges of the current bucket, and the clock that remembers them. -/
def currentEdges (c : Clock) (w : Width) : Logged (Edges × Clock) := do
  let now := c.logicalNow.secs
  let known := c.cache.get w
  if known.Serve w c.anchorSecs now then return (known, c)
  else do
    let e := Edges.compute w c.anchorSecs now
    Logged.log (.edgesComputed w now e)
    return (e, { c with cache := c.cache.set e w })

/-- An edge moved by an optional shift. -/
def shiftEdge (edge : Int) (extra : Option Span) : Instant :=
  .ofSeconds (Word.add edge (Span.shiftSeconds extra))

/-- The start of the current bucket, moved by an optional shift. -/
def currentStart (c : Clock) (w : Width) (extra : Option Span) : Logged (Instant × Clock) := do
  let (e, c) ← c.currentEdges w
  return (shiftEdge e.start extra, c)

/-- The start of the bucket after the current one, moved by an optional shift. -/
def nextStart (c : Clock) (w : Width) (extra : Option Span) : Logged (Instant × Clock) := do
  let (e, c) ← c.currentEdges w
  return (shiftEdge e.stop extra, c)

/-- The edges remembered for a width, as they are. -/
def rememberedEdges (c : Clock) (w : Width) : Edges := c.cache.get w

/-- The state of the clock for diagnostics. -/
def describe (c : Clock) : String :=
  "RefreshClock \x7b source: " ++ Text.quoted c.sourceName
    ++ ", base_anchor: " ++ Digits.text c.anchorSecs
    ++ ", logical_offset: " ++ Digits.text c.offsetSecs
    ++ ", anchor_with_offset: " ++ Digits.text c.shiftedAnchorSecs ++ " \x7d"

end Clock

end Rollover
