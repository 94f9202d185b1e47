/-
An offset that was kept can be read back.

Keeping writes a number of seconds as text into a file, and loading has much to go
through before it has the number again: the path, the bytes, the text, the blanks
around it, the sign and the digits, and the range of a span.  One lemma goes with
each.  The one about the path is the only one with a catch.  A path is walked again
when it is read, through directories, and the new file hides whatever was at its
place; but a file is never written where a directory is, so no step of the walk has
changed.

What a path is loaded as depends on the text that is read from it and on nothing
else in the files.
-/
import Rollover.OffsetFile
import Rollover.Proofs.Numerals

namespace Rollover

/-! ### The number -/

theorem Text.isBlank_of_isDigit {c : Char} (h : Digits.isDigit c = true) :
    Text.isBlank c = false := by
  have hd : 48 ≤ c.toNat ∧ c.toNat ≤ 57 := by
    simpa [Digits.isDigit, Char.le_def, UInt32.le_iff_toNat_le] using h
  simp only [isBlank, Bool.or_eq_false_iff, Bool.and_eq_false_iff, decide_eq_false_iff_not,
    beq_eq_false_iff_ne]
  omega

namespace Digits

theorem isDigit_of_mem_ofNat {n : Nat} {c : Char} (h : c ∈ ofNat n) : isDigit c = true :=
  List.all_eq_true.mp (all_isDigit_ofNat n) c h

/-- A number of either sign that was written can be read. -/
theorem int?_ofInt (n : Int) : int? (ofInt n) = some n := int?_eq_some_iff.mpr (signed_ofInt n)

theorem isDigit_or_minus_of_mem_ofInt {n : Int} {c : Char} (h : c ∈ ofInt n) :
    isDigit c = true ∨ c = '-' := by
  unfold ofInt at h
  split at h
  · rcases List.mem_cons.mp h with rfl | h
    · exact Or.inr rfl
    · exact Or.inl (isDigit_of_mem_ofNat h)
  · exact Or.inl (isDigit_of_mem_ofNat h)

end Digits

theorem Span.nanos_ofSeconds {n : Int} (lo : -maxSeconds ≤ n) (hi : n ≤ maxSeconds) :
    (ofSeconds n).nanos = n * 1000000000 := by
  have h : max (-maxSeconds) (min n maxSeconds) = n := by omega
  simp only [ofSeconds, h]

theorem Span.ofSeconds?_eq_some_iff {n : Int} {d : Span} :
    ofSeconds? n = some d ↔
      (-maxSeconds ≤ n ∧ n ≤ maxSeconds) ∧ d.nanos = n * 1000000000 := by
  unfold ofSeconds?
  by_cases hn : -maxSeconds ≤ n ∧ n ≤ maxSeconds
  · rw [dif_pos hn, and_iff_right hn, Option.some.injEq, eq_comm]
    exact ⟨congrArg Span.nanos, fun h => Span.ext_nanos h⟩
  · rw [dif_neg hn]
    exact iff_of_false (fun h => nomatch h) fun h => hn h.1

theorem Span.ofSeconds?_eq_some {n : Int} (lo : -maxSeconds ≤ n) (hi : n ≤ maxSeconds) :
    ofSeconds? n = some (ofSeconds n) :=
  ofSeconds?_eq_some_iff.mpr ⟨⟨lo, hi⟩, nanos_ofSeconds lo hi⟩

namespace Files

/-- A walk takes its first step into a directory. -/
theorem walk_cons_eq_ok {fs : Files} {here there : List (List Char)} {name : List Char}
    {rest : List (List Char)} :
    fs.walk here (name :: rest) = .ok there ↔
      fs.lookup? (step here name) = some .directory ∧
        fs.walk (step here name) rest = .ok there := by
  rw [walk]
  constructor
  · intro h
    split at h
    · rename_i hdir
      exact ⟨hdir, h⟩
    · cases h
    · cases h
  · rintro ⟨hdir, h⟩
    rw [hdir]
    exact h

/-- A walk asks for nothing but directories, so it goes on in every tree that has them. -/
theorem walk_of_directories {fs fs' : Files}
    (h : ∀ place, fs.lookup? place = some .directory → fs'.lookup? place = some .directory)
    {names : List (List Char)} :
    ∀ {here there : List (List Char)}, fs.walk here names = .ok there →
      fs'.walk here names = .ok there := by
  induction names with
  | nil => intro here there hwalk; exact hwalk
  | cons name rest ih =>
      intro here there hwalk
      obtain ⟨hdir, hrest⟩ := walk_cons_eq_ok.mp hwalk
      exact walk_cons_eq_ok.mpr ⟨h _ hdir, ih hrest⟩

/-- A file that is put where no directory is does not stand in the way of a walk. -/
theorem walk_put {fs : Files} {place : List (List Char)} (e : Entry)
    (hplace : fs.lookup? place ≠ some .directory) {names here there : List (List Char)}
    (h : fs.walk here names = .ok there) : (fs.put place e).walk here names = .ok there := by
  refine walk_of_directories ?_ h
  intro other hdir
  have hne : other ≠ place := fun heq => hplace (heq ▸ hdir)
  rw [lookup?_put_of_ne hne, hdir]

theorem locate_eq_ok {fs : Files} {names place : List (List Char)} {found : Option Entry} :
    fs.locate names = .ok (place, found) ↔
      ∃ here, fs.walk [] names.dropLast = .ok here ∧
        place = step here (names.getLast?.getD ['.']) ∧ found = fs.lookup? place := by
  unfold locate
  cases hw : fs.walk [] names.dropLast with
  | error e =>
      constructor
      · intro h
        cases h
      · rintro ⟨here, h, -⟩
        cases h
  | ok here =>
      constructor
      · intro h
        cases h
        exact ⟨here, rfl, rfl, rfl⟩
      · rintro ⟨_, h, rfl, rfl⟩
        cases h
        rfl

theorem readBytes_of_locate {fs : Files} {path : String} {place : List (List Char)}
    {content : ByteArray} (hpath : path ≠ "") (hslash : endsInSlash path = false)
    (h : fs.locate (names path) = .ok (place, some (.file content))) :
    fs.readBytes path = .ok content := by
  unfold readBytes
  rw [if_neg hpath, h]
  simp only [hslash]
  rfl

/-- There is room for a file at the end of a path, unless a directory is there. -/
theorem roomFor_eq_ok {fs : Files} {path : String} {place : List (List Char)} :
    fs.roomFor path = .ok place ↔
      path ≠ "" ∧ endsInSlash path = false ∧
        ∃ found, fs.locate (names path) = .ok (place, found) ∧ found ≠ some .directory := by
  unfold roomFor
  constructor
  · intro h
    by_cases hpath : path = ""
    · rw [if_pos hpath] at h
      cases h
    · rw [if_neg hpath] at h
      cases hlocate : fs.locate (names path) with
      | error e =>
          rw [hlocate] at h
          cases h
      | ok found =>
          rw [hlocate] at h
          cases hslash : endsInSlash path with
          | true =>
              rw [hslash] at h
              cases h
          | false =>
              rw [hslash] at h
              obtain ⟨there, _ | _ | _⟩ := found
              · cases h
                exact ⟨hpath, rfl, none, rfl, by simp⟩
              · cases h
                exact ⟨hpath, rfl, _, rfl, by simp⟩
              · cases h
  · rintro ⟨hpath, hslash, found, hlocate, hfound⟩
    rw [if_neg hpath, hlocate]
    simp only [hslash]
    obtain _ | _ | _ := found
    · rfl
    · rfl
    · exact absurd rfl hfound

/-- A write succeeds where there is room, if the host lets it. -/
theorem writeBytes_eq_ok {fs fs' : Files} {path : String} {content : ByteArray} :
    fs.writeBytes path content = (fs', .ok ()) ↔
      ∃ place, fs.roomFor path = .ok place ∧ fs.fault? place = none ∧
        fs' = fs.put place (.file content) := by
  unfold writeBytes
  constructor
  · intro h
    split at h
    · cases h
    · rename_i place hroom
      split at h
      · rename_i hfault
        cases h
        exact ⟨place, hroom, hfault, rfl⟩
      · cases h
      · cases h
  · rintro ⟨place, hroom, hfault, rfl⟩
    simp only [hroom, hfault]

/-- A new file is found where there was room for it. -/
theorem locate_put {fs : Files} {names place : List (List Char)} {found : Option Entry}
    (e : Entry) (h : fs.locate names = .ok (place, found)) (hfound : found ≠ some .directory) :
    (fs.put place e).locate names = .ok (place, some e) := by
  obtain ⟨here, hwalk, hplace, rfl⟩ := locate_eq_ok.mp h
  have hroot : place ≠ [] := fun hnil => hfound (by rw [hnil]; rfl)
  exact locate_eq_ok.mpr
    ⟨here, walk_put e hfound hwalk, hplace, (lookup?_put_self hroot fs e).symm⟩

/-- What was put at the end of a path is read from it. -/
theorem readBytes_put {fs : Files} {path : String} {place : List (List Char)}
    (h : fs.roomFor path = .ok place) (content : ByteArray) :
    (fs.put place (.file content)).readBytes path = .ok content := by
  obtain ⟨hpath, hslash, found, hlocate, hfound⟩ := roomFor_eq_ok.mp h
  exact readBytes_of_locate hpath hslash (locate_put _ hlocate hfound)

theorem readBytes_of_writeBytes {fs fs' : Files} {path : String} {content : ByteArray}
    (h : fs.writeBytes path content = (fs', .ok ())) : fs'.readBytes path = .ok content := by
  obtain ⟨place, hroom, -, rfl⟩ := writeBytes_eq_ok.mp h
  exact readBytes_put hroom content

theorem fromUTF8?_toUTF8 (text : String) : String.fromUTF8? text.toUTF8 = some text := by
  rw [String.fromUTF8?, String.toUTF8_eq_toByteArray, dif_pos text.isValidUTF8]
  rfl

theorem readText_of_readBytes {fs : Files} {path text : String}
    (h : fs.readBytes path = .ok text.toUTF8) : fs.readText path = .ok text := by
  simp only [readText, h, bind, Except.bind, fromUTF8?_toUTF8]
  rfl

theorem readText_of_writeText {fs fs' : Files} {path text : String}
    (h : fs.writeText path text = (fs', .ok ())) : fs'.readText path = .ok text :=
  readText_of_readBytes (readBytes_of_writeBytes h)

end Files

/-! ### The store -/

namespace OffsetFile

/-- Keeping makes the directories first and writes the text of the seconds into the file. -/
theorem save_of_writeText {fs made fs' : Files} {path : String} {d : Span}
    (hdirs : fs.makeDirectories (Files.above (Files.names path)) = (made, .ok ()))
    (hwrite : made.writeText path (Digits.text d.wholeSeconds) = (fs', .ok ())) :
    (save fs path d).value.1 = .ok () ∧ (save fs path d).value.2 = fs' := by
  unfold save
  simp only [hdirs, hwrite]
  exact ⟨rfl, rfl⟩

theorem save_eq_ok {fs : Files} {path : String} {d : Span}
    (h : (save fs path d).value.1 = .ok ()) :
    ∃ made fs', fs.makeDirectories (Files.above (Files.names path)) = (made, .ok ()) ∧
      made.writeText path (Digits.text d.wholeSeconds) = (fs', .ok ()) ∧
      (save fs path d).value.2 = fs' := by
  cases hdirs : fs.makeDirectories (Files.above (Files.names path)) with
  | mk made result =>
      cases result with
      | error e =>
          unfold save at h
          simp only [hdirs] at h
          cases h
      | ok _ =>
          cases hwrite : made.writeText path (Digits.text d.wholeSeconds) with
          | mk fs' result =>
              cases result with
              | error e =>
                  unfold save at h
                  simp only [hdirs, hwrite] at h
                  cases h
              | ok _ => exact ⟨made, fs', rfl, hwrite, (save_of_writeText hdirs hwrite).2⟩

end OffsetFile

end Rollover
