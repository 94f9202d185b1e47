/-
The edges of the current bucket, remembered between questions.

For each width the clock keeps the start and the end of the bucket it answered
with last.  They are used again as long as they belong together, lie on the grid
of the present anchor and cover the present second.  The start may lie up to a
minute ahead: a clock that jitters, or that an operator sets back a little, does
not fall back into the bucket before.  Otherwise the edges are computed anew.
-/
import Rollover.Bucket

namespace Rollover

/-- The start of a bucket and the end of it, which is the start of the next one. -/
structure Edges where
  start : Int
  stop : Int
deriving DecidableEq

namespace Edges

/-- How far the start may lie ahead, in seconds. -/
def guardSeconds : Int := 60

/-- The edges that no question has set yet; they cover nothing. -/
def unread : Edges := ⟨Word.greatest, Word.least⟩

/-- The edges can be used again for a bucket of this width, anchor and present second. -/
def Serve (w : Width) (anchor now : Int) (e : Edges) : Prop :=
  Word.sub? e.stop e.start = some w.seconds ∧
    (Word.sub? e.start anchor).any (· % w.seconds == 0) = true ∧
    e.start ≤ Word.add now guardSeconds ∧ now < e.stop

instance (w : Width) (anchor now : Int) (e : Edges) : Decidable (e.Serve w anchor now) :=
  inferInstanceAs (Decidable (_ ∧ _ ∧ _ ∧ _))

/-- The edges of the bucket that the present second lies in. -/
def compute (w : Width) (anchor now : Int) : Edges :=
  let start := Bucket.start w anchor now
  ⟨start, Word.add start w.seconds⟩

end Edges

/-- The remembered edges of both widths. -/
structure EdgeCache where
  day : Edges := .unread
  week : Edges := .unread
deriving DecidableEq

namespace EdgeCache

def get (c : EdgeCache) : Width → Edges
  | .day => c.day
  | .week => c.week

def set (c : EdgeCache) (e : Edges) : Width → EdgeCache
  | .day => { c with day := e }
  | .week => { c with week := e }

@[simp] theorem get_set_self (c : EdgeCache) (e : Edges) (w : Width) : (c.set e w).get w = e := by
  cases w <;> rfl

theorem get_set_of_ne (c : EdgeCache) (e : Edges) {v w : Width} (h : v ≠ w) :
    (c.set e w).get v = c.get v := by
  cases v <;> cases w <;> simp_all [get, set]

end EdgeCache

end Rollover
