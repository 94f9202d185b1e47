/-
Readers of typed values.

A reader takes a value off the front of a text, in the order of the text, and
stops at the first fault; so a value of the wrong kind is reported before a
misspelling further on.  It never leaves more text than it was given, which is
part of its type: readers put together from readers have the property for
nothing, and the loop over the members of an object ends because each member
takes its key.
-/
import Rollover.Document.Skip

namespace Rollover

namespace Document

structure Reader (α : Type) where
  run : List Char → Except Fault (α × List Char)
  shrinks : ∀ {s : List Char} {a : α} {rest : List Char},
    run s = .ok (a, rest) → rest.length ≤ s.length

namespace Reader

protected def pure {α : Type} (a : α) : Reader α where
  run s := .ok (a, s)
  shrinks h := by simp only [Except.ok.injEq, Prod.mk.injEq] at h; simp [h.2]

protected def bind {α β : Type} (r : Reader α) (f : α → Reader β) : Reader β where
  run s :=
    match r.run s with
    | .error e => .error e
    | .ok (a, rest) => (f a).run rest
  shrinks h := by
    split at h
    · simp at h
    · next heq => exact Nat.le_trans ((f _).shrinks h) (r.shrinks heq)

instance : Monad Reader where
  pure := Reader.pure
  bind := Reader.bind

def fault {α : Type} (e : Fault) : Reader α where
  run _ := .error e
  shrinks h := by simp at h

/-- The next character that is no gap, which stays in the text. -/
def peek : Reader (Option Char) where
  run s := .ok ((skipGaps s).head?, skipGaps s)
  shrinks {s _ _} h := by
    simp only [Except.ok.injEq, Prod.mk.injEq] at h
    rw [← h.2]; exact length_skipGaps_le s

/-- Takes one character. -/
def skip : Reader Unit where
  run s := .ok ((), s.tail)
  shrinks {s _ _} h := by
    simp only [Except.ok.injEq, Prod.mk.injEq] at h
    rw [← h.2, List.length_tail]; omega

/-- The rest of a word. -/
def word (w : List Char) : Reader Unit where
  run s := (takeWord w s).map fun rest => ((), rest)
  shrinks {s _ _} h := by
    simp only [Except.map] at h
    split at h
    · simp at h
    · next heq =>
      simp only [Except.ok.injEq, Prod.mk.injEq] at h
      rw [← h.2]; exact length_of_takeWord heq

/-- The rest of a text, after its opening quote. -/
def text : Reader (List Char) where
  run := readText
  shrinks h := Nat.le_of_lt (length_of_readText h)

/-- The rest of a number, after its minus sign if it has one. -/
def number (negative : Bool) : Reader Number where
  run := readNumber negative
  shrinks := length_of_readNumber

/-- A value of any kind, which is passed over. -/
def ignored : Reader Unit where
  run s := (skipValue s).map fun rest => ((), rest)
  shrinks {s _ _} h := by
    simp only [Except.map] at h
    split at h
    · simp at h
    · next heq =>
      simp only [Except.ok.injEq, Prod.mk.injEq] at h
      rw [← h.2]; exact Nat.le_of_lt (length_of_skipOpen heq)

theorem run_pure {α : Type} (a : α) (s : List Char) : (pure a : Reader α).run s = .ok (a, s) := rfl

theorem run_bind {α β : Type} (r : Reader α) (f : α → Reader β) (s : List Char) :
    (r >>= f).run s =
      match r.run s with
      | .error e => .error e
      | .ok (a, rest) => (f a).run rest := rfl

/-! ### Values -/

/-- Reports a value of another kind than the one wanted. -/
def refuse {α : Type} (wanted : String) : Reader α := do
  match ← peek with
  | some 'n' => do
    skip; word ['u', 'l', 'l']
    fault (.wrongKind .null wanted)
  | some 't' => do
    skip; word ['r', 'u', 'e']
    fault (.wrongKind (.flag true) wanted)
  | some 'f' => do
    skip; word ['a', 'l', 's', 'e']
    fault (.wrongKind (.flag false) wanted)
  | some '-' => do
    skip
    fault (.wrongKind (.number (← number true)) wanted)
  | some '"' => do
    skip
    fault (.wrongKind (.text (← text)) wanted)
  | some '[' => fault (.wrongKind .list wanted)
  | some '\x7b' => fault (.wrongKind .object wanted)
  | some c =>
    if Digits.isDigit c then do fault (.wrongKind (.number (← number false)) wanted)
    else fault .noValue
  | none => fault .endOfValue

/-- A whole number from `lo` to `hi`. -/
def whole (lo hi : Int) (wanted : String) : Reader Int := do
  let check (n : Number) : Reader Int :=
    match n with
    | .whole n => if lo ≤ n ∧ n ≤ hi then pure n else fault (.outOfRange n wanted)
    | n => fault (.wrongKind (.number n) wanted)
  match ← peek with
  | some '-' => do
    skip
    check (← number true)
  | some c => if Digits.isDigit c then do check (← number false) else refuse wanted
  | none => fault .endOfValue

def flag (wanted : String) : Reader Bool := do
  match ← peek with
  | some 't' => do
    skip; word ['r', 'u', 'e']
    return true
  | some 'f' => do
    skip; word ['a', 'l', 's', 'e']
    return false
  | _ => refuse wanted

def quoted (wanted : String) : Reader (List Char) := do
  match ← peek with
  | some '"' => do
    skip
    text
  | _ => refuse wanted

/-- Nothing at all, written `null`. -/
def null (wanted : String) : Reader Unit := do
  match ← peek with
  | some 'n' => do
    skip
    word ['u', 'l', 'l']
  | _ => refuse wanted

/-- A value or `null`. -/
def optional {α : Type} (r : Reader α) : Reader (Option α) := do
  match ← peek with
  | some 'n' => do
    skip; word ['u', 'l', 'l']
    return none
  | _ => do return some (← r)

/-! ### Lists and objects -/

/-- The next item of a list that may end here; `first` tells that no item came before. -/
def item {α : Type} (first : Bool) (r : Reader α) : Reader (Option α) := do
  match ← peek with
  | none => fault .endOfList
  | some c =>
    if c = ']' then return none
    else if first then return some (← r)
    else if c = ',' then do
      skip
      match ← peek with
      | some ']' => fault .commaBeforeEnd
      | some _ => return some (← r)
      | none => fault .endOfValue
    else fault .noListEnd

/-- The end of a list. -/
def endOfItems : Reader Unit := do
  match ← peek with
  | some ']' => skip
  | some ',' => do
    skip
    match ← peek with
    | some ']' => fault .commaBeforeEnd
    | _ => fault .moreAfterEnd
  | some _ => fault .moreAfterEnd
  | none => fault .endOfList

/-- The colon after a key. -/
def colon : Reader Unit := do
  match ← peek with
  | some ':' => skip
  | some _ => fault .noColon
  | none => fault .endOfObject

/-- The key of the next member, or none at the end of the object. -/
def nextKey (first : Bool) (s : List Char) : Except Fault (Option (List Char) × List Char) :=
  let key (s : List Char) := (readText s).map fun (k, rest) => (some k, rest)
  match skipGaps s with
  | [] => .error .endOfObject
  | c :: s =>
    if c = '\x7d' then .ok (none, s)
    else if first then
      if c = '"' then key s else .error .keyNotText
    else if c = ',' then
      match skipGaps s with
      | '"' :: s => key s
      | '\x7d' :: _ => .error .commaBeforeEnd
      | _ :: _ => .error .keyNotText
      | [] => .error .endOfValue
    else .error .noObjectEnd

theorem length_of_nextKey {first : Bool} {s rest : List Char} {k : Option (List Char)}
    (h : nextKey first s = .ok (k, rest)) : rest.length < s.length := by
  have read : ∀ {t : List Char},
      ((readText t).map fun (k, rest) => (some k, rest)) = .ok (k, rest) →
        rest.length < t.length := by
    intro t ht
    simp only [Except.map] at ht
    split at ht
    · simp at ht
    · next heq =>
      simp only [Except.ok.injEq, Prod.mk.injEq] at ht
      have := length_of_readText heq
      rw [← ht.2]; exact this
  unfold nextKey at h
  split at h
  · simp at h
  · next heq =>
    have h1 := length_of_skipGaps heq
    split at h
    · simp only [Except.ok.injEq, Prod.mk.injEq] at h
      rw [← h.2]; exact h1
    · split at h
      · split at h
        · exact Nat.lt_trans (read h) h1
        · simp at h
      · split at h
        · split at h
          · next heq' =>
            have h2 := length_of_skipGaps heq'
            exact Nat.lt_trans (read h) (Nat.lt_trans h2 h1)
          · simp at h
          · simp at h
          · simp at h
        · simp at h

/-- The first key of an object after its opening brace, or none if the object is empty. -/
def firstKey : Reader (Option (List Char)) where
  run := nextKey true
  shrinks h := Nat.le_of_lt (length_of_nextKey h)

/-- The members of an object after its opening brace, each taken into a running result. -/
def readMembers {σ : Type} (member : σ → List Char → Reader σ) (first : Bool) (acc : σ)
    (s : List Char) : Except Fault (σ × List Char) :=
  match _h : nextKey first s with
  | .error e => .error e
  | .ok (none, rest) => .ok (acc, rest)
  | .ok (some k, rest) =>
    match _h' : (member acc k).run rest with
    | .error e => .error e
    | .ok (next, rest) => readMembers member false next rest
termination_by s.length
decreasing_by exact Nat.lt_of_le_of_lt ((member acc k).shrinks _h') (length_of_nextKey _h)

theorem readMembers_eq {σ : Type} (member : σ → List Char → Reader σ) (first : Bool) (acc : σ)
    (s : List Char) : readMembers member first acc s =
      match nextKey first s with
      | .error e => .error e
      | .ok (none, rest) => .ok (acc, rest)
      | .ok (some k, rest) =>
        match (member acc k).run rest with
        | .error e => .error e
        | .ok (next, rest) => readMembers member false next rest := by
  rw [readMembers]
  split
  · next h => simp only [h]
  · next h => simp only [h]
  · next h =>
    simp only [h]
    split <;> next h' => simp only [h']

theorem length_of_readMembers {σ : Type} {member : σ → List Char → Reader σ} {first : Bool}
    {acc b : σ} {s rest : List Char} (h : readMembers member first acc s = .ok (b, rest)) :
    rest.length < s.length := by
  fun_induction readMembers member first acc s with
  | case1 => simp at h
  | case2 first acc s t heq =>
    have := length_of_nextKey heq
    simp only [Except.ok.injEq, Prod.mk.injEq] at h
    rw [← h.2]; exact this
  | case3 => simp at h
  | case4 first acc s k t heq acc' u heq' ih =>
    exact Nat.lt_trans (ih h)
      (Nat.lt_of_le_of_lt ((member acc k).shrinks heq') (length_of_nextKey heq))

/-- The members of an object after its opening brace, each taken into a running result. -/
def members {σ : Type} (member : σ → List Char → Reader σ) (acc : σ) : Reader σ where
  run := readMembers member true acc
  shrinks h := Nat.le_of_lt (length_of_readMembers h)

/-! ### Documents -/

/-- Reads a value that has to be the whole of a document. -/
def read {α : Type} (r : Reader α) (s : List Char) : Except Fault α := do
  let (a, rest) ← r.run s
  match skipGaps rest with
  | [] => return a
  | _ => throw .moreAfterEnd

end Reader

end Document

end Rollover
