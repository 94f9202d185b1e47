/-
Day and week buckets.

Time is cut into buckets of one width, counted from an anchor: bucket 0 starts at
the anchor, bucket -1 ends there.  Every function works on whole seconds, and
every sum and difference stops at the ends of a 64-bit cell.

A refresh may happen some time past the start of a bucket, and there are two ways
to say so.  `startWith` moves the boundary that it returns.  `indexOf` moves the
instant back before it looks, so that with a refresh five hours past midnight
four o'clock still belongs to the day before.  `refreshAtOrBefore` is the
boundary that goes with `indexOf`.
-/
import Rollover.Instant
import Rollover.Width

namespace Rollover

namespace Bucket

/-- The start of the bucket that second `t` lies in. -/
def start (w : Width) (anchor t : Int) : Int :=
  Word.sub t (Word.sub t anchor % w.seconds)

/-- The number of the bucket that second `t` lies in, after taking off `refresh` seconds. -/
def index (w : Width) (anchor refresh t : Int) : Int :=
  Word.sub (Word.sub t refresh) anchor / w.seconds

/-- The start of the bucket of `t`, moved by an optional shift. -/
def startWith (w : Width) (anchor : Int) (extra : Option Span) (t : Instant) : Instant :=
  .ofSeconds (Word.add (start w anchor t.secs) (Span.shiftSeconds extra))

/-- The number of the bucket of `t` when buckets roll `refresh` past the anchor. -/
def indexOf (w : Width) (anchor : Int) (refresh : Option Span) (t : Instant) : Int :=
  index w anchor (Span.shiftSeconds refresh) t.secs

/-- The latest boundary at or before `t` when buckets roll `refresh` past the anchor. -/
def refreshAtOrBefore (w : Width) (anchor : Int) (refresh : Option Span) (t : Instant) : Instant :=
  let shift := Span.shiftSeconds refresh
  .ofSeconds (Word.add (start w anchor (Word.sub t.secs shift)) shift)

end Bucket

end Rollover
