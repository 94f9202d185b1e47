/-
Passing over a value.

A value that nobody asks for is passed over without being built, however deep it
is.  What keeps the place is the stack of lists and objects that are open:
`advance` reads one text, number or word, or opens one list or object, closes as
many as end there, and stops where the next value has to begin.  Each such step
takes at least one character, and when nothing is left open the value is over.
-/
import Rollover.Document.Numeral
import Rollover.Document.Quoted

namespace Rollover

namespace Document

/-- The four characters that may stand between any two parts of a document. -/
def isGap (c : Char) : Bool := c == ' ' || c == '\t' || c == '\n' || c == '\r'

def skipGaps (s : List Char) : List Char := s.dropWhile isGap

/-- Takes the letters of a word off a text. -/
def takeWord : List Char → List Char → Except Fault (List Char)
  | [], s => .ok s
  | _ :: _, [] => .error .endOfValue
  | c :: w, d :: s => if c = d then takeWord w s else .error .noSuchWord

/-- A list or an object that has been opened and not closed. -/
inductive Frame
  | list
  | object
deriving DecidableEq

namespace Frame

def closer : Frame → Char
  | list => ']'
  | object => '\x7d'

/-- The fault of a document that ends inside the frame. -/
def unfinished : Frame → Fault
  | list => .endOfList
  | object => .endOfObject

/-- The fault of a value that is followed by neither a comma nor the end of the frame. -/
def noEnd : Frame → Fault
  | list => .noListEnd
  | object => .noObjectEnd

/-- The part of an item that stands before its value: nothing, or a key and a colon. -/
def skipHead : Frame → List Char → Except Fault (List Char)
  | list, s => .ok s
  | object, s =>
    match skipGaps s with
    | [] => .error .endOfObject
    | '"' :: s => do
      match skipGaps (← skipText s) with
      | [] => throw .endOfObject
      | ':' :: s => return s
      | _ => throw .noColon
    | _ => .error .keyNotText

end Frame

/-- After a value: closes what ends here, and goes on to the next value if something stays open. -/
def settle : List Frame → List Char → Except Fault (List Frame × List Char)
  | [], s => .ok ([], s)
  | f :: fs, s =>
    match skipGaps s with
    | [] => .error f.unfinished
    | c :: s =>
      if c = ',' then (f.skipHead s).map fun s => (f :: fs, s)
      else if c = f.closer then settle fs s
      else .error f.noEnd

/-- After an opening: the first value inside, or the end of an empty frame. -/
def enter (f : Frame) (fs : List Frame) (s : List Char) : Except Fault (List Frame × List Char) :=
  match skipGaps s with
  | [] => .error f.unfinished
  | c :: s =>
    if c = f.closer then settle fs s
    else (f.skipHead (c :: s)).map fun s => (f :: fs, s)

/-- One step over a value, from where a value has to begin to where the next one does. -/
def advance (fs : List Frame) (s : List Char) : Except Fault (List Frame × List Char) :=
  match skipGaps s with
  | [] => .error .endOfValue
  | c :: s =>
    if c = '[' then enter .list fs s
    else if c = '\x7b' then enter .object fs s
    else if c = '"' then do settle fs (← skipText s)
    else if c = '-' then do settle fs (← skipNumber s)
    else if Digits.isDigit c then do settle fs (← skipNumber (c :: s))
    else if c = 'n' then do settle fs (← takeWord ['u', 'l', 'l'] s)
    else if c = 't' then do settle fs (← takeWord ['r', 'u', 'e'] s)
    else if c = 'f' then do settle fs (← takeWord ['a', 'l', 's', 'e'] s)
    else .error .noValue

/-! ### Every step takes something -/

theorem length_skipGaps_le (s : List Char) : (skipGaps s).length ≤ s.length :=
  (List.dropWhile_suffix isGap).length_le

theorem length_of_skipGaps {s : List Char} {c : Char} {rest : List Char}
    (h : skipGaps s = c :: rest) : rest.length < s.length := by
  have := length_skipGaps_le s
  rw [h] at this; exact this

theorem length_of_takeWord {w s rest : List Char} (h : takeWord w s = .ok rest) :
    rest.length ≤ s.length := by
  fun_induction takeWord w s with
  | case1 => simp_all
  | case2 => simp at h
  | case3 w d s ih => have := ih h; simp only [List.length_cons]; omega
  | case4 => simp at h

theorem length_of_skipHead {f : Frame} {s rest : List Char} (h : f.skipHead s = .ok rest) :
    rest.length ≤ s.length := by
  cases f with
  | list => simp only [Frame.skipHead, Except.ok.injEq] at h; simp [h]
  | object =>
    simp only [Frame.skipHead] at h
    split at h
    · simp at h
    · next heq =>
      simp only [bind, Except.bind] at h
      split at h
      · simp at h
      · next heq' =>
        have h1 := length_of_skipGaps heq
        have h2 := length_of_skipText heq'
        split at h
        · simp [throw, throwThe, MonadExceptOf.throw] at h
        · next heq'' =>
          have h3 := length_of_skipGaps heq''
          simp only [pure, Except.pure, Except.ok.injEq] at h
          rw [← h]; omega
        · simp [throw, throwThe, MonadExceptOf.throw] at h
    · simp at h

theorem length_of_settle {fs fs' : List Frame} {s rest : List Char}
    (h : settle fs s = .ok (fs', rest)) : rest.length ≤ s.length := by
  have head : ∀ {f : Frame} {gs : List Frame} {t : List Char},
      (f.skipHead t).map (fun u => (f :: gs, u)) = .ok (fs', rest) → rest.length ≤ t.length := by
    intro f gs t ht
    simp only [Except.map] at ht
    split at ht
    · simp at ht
    · next heq =>
      have := length_of_skipHead heq
      simp only [Except.ok.injEq, Prod.mk.injEq] at ht
      rw [← ht.2]; exact this
  fun_induction settle fs s with
  | case1 s => simp only [Except.ok.injEq, Prod.mk.injEq] at h; simp [h.2]
  | case2 => simp at h
  | case3 f fs s t heq => have := head h; have := length_of_skipGaps heq; omega
  | case4 f fs s t heq _ ih => have := ih h; have := length_of_skipGaps heq; omega
  | case5 => simp at h

theorem length_of_enter {f : Frame} {fs fs' : List Frame} {s rest : List Char}
    (h : enter f fs s = .ok (fs', rest)) : rest.length ≤ s.length := by
  unfold enter at h
  split at h
  · simp at h
  · next heq =>
    have h1 := length_of_skipGaps heq
    split at h
    · have := length_of_settle h; omega
    · simp only [Except.map] at h
      split at h
      · simp at h
      · next heq' =>
        have := length_of_skipHead heq'
        simp only [List.length_cons] at this
        simp only [Except.ok.injEq, Prod.mk.injEq] at h
        rw [← h.2]; omega

theorem length_of_advance {fs fs' : List Frame} {s rest : List Char}
    (h : advance fs s = .ok (fs', rest)) : rest.length < s.length := by
  have after : ∀ {r : Except Fault (List Char)},
      (∀ {u : List Char}, r = .ok u → u.length < s.length) →
      (r.bind fun u => settle fs u) = .ok (fs', rest) → rest.length < s.length := by
    intro r hr ht
    cases r with
    | error e => simp [Except.bind] at ht
    | ok u => exact Nat.lt_of_le_of_lt (length_of_settle ht) (hr rfl)
  unfold advance at h
  split at h
  · simp at h
  · next c t heq =>
    have h1 := length_of_skipGaps heq
    have h2 := length_skipGaps_le s
    rw [heq] at h2
    repeat' split at h
    · exact Nat.lt_of_le_of_lt (length_of_enter h) h1
    · exact Nat.lt_of_le_of_lt (length_of_enter h) h1
    · exact after (fun hu => Nat.lt_trans (length_of_skipText hu) h1) h
    · exact after (fun hu => Nat.lt_trans (length_of_skipNumber hu) h1) h
    · exact after (fun hu => Nat.lt_of_lt_of_le (length_of_skipNumber hu) h2) h
    · exact after (fun hu => Nat.lt_of_le_of_lt (length_of_takeWord hu) h1) h
    · exact after (fun hu => Nat.lt_of_le_of_lt (length_of_takeWord hu) h1) h
    · exact after (fun hu => Nat.lt_of_le_of_lt (length_of_takeWord hu) h1) h
    · simp at h

/-! ### The whole value -/

/-- Passes over the rest of a value of which `fs` is still open. -/
def skipOpen (fs : List Frame) (s : List Char) : Except Fault (List Char) :=
  match _h : advance fs s with
  | .error e => .error e
  | .ok ([], rest) => .ok rest
  | .ok (f :: fs, rest) => skipOpen (f :: fs) rest
termination_by s.length
decreasing_by exact length_of_advance _h

def skipValue (s : List Char) : Except Fault (List Char) := skipOpen [] s

theorem skipOpen_eq (fs : List Frame) (s : List Char) : skipOpen fs s =
    match advance fs s with
    | .error e => .error e
    | .ok ([], rest) => .ok rest
    | .ok (f :: fs, rest) => skipOpen (f :: fs) rest := by
  rw [skipOpen]
  split <;> next h => simp only [h]

theorem length_of_skipOpen {fs : List Frame} {s rest : List Char}
    (h : skipOpen fs s = .ok rest) : rest.length < s.length := by
  fun_induction skipOpen fs s with
  | case1 => simp at h
  | case2 fs s t heq =>
    have := length_of_advance heq
    simp only [Except.ok.injEq] at h
    rw [← h]; exact this
  | case3 fs s f gs t heq ih => exact Nat.lt_trans (ih h) (length_of_advance heq)

end Document

end Rollover
