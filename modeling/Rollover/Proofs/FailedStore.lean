/-
What a store leaves behind when it fails.

Keeping an offset makes the directories above the file, finds room for the file, and
writes it.  Each of the three can fail, and they leave different things.

  * Without the directories or without room nothing is written.  If there was anything at
    the path, all directories were there and the tree is what it was.  Otherwise it may
    have `Grown`, and a plain path is as missing as before.
  * A host that lets nobody write to the file leaves it alone, and it is read as before.
  * A host that breaks off the writing has emptied the file by then.  The file is the
    beginning of the new number, which may be a number too.

When the reason is not the host's own, the tree is in the way of the store, and then it
is in the way of a reader too: no offset could be loaded, and none can be now.
-/
import Rollover.Proofs.MissingPath
import Rollover.Proofs.SavedOffset

namespace Rollover

namespace Files

/-! ### Writes that fail -/

/-- A write fails for want of room, or because the host refuses it or breaks it off. -/
theorem writeBytes_error_cases {fs fs' : Files} {path : String} {content : ByteArray} {e : Error}
    (h : fs.writeBytes path content = (fs', .error e)) :
    (fs' = fs ∧ (fs.roomFor path = .error e ∨ ∃ kind text, e = .host kind text)) ∨
      ∃ place written kind text, fs.roomFor path = .ok place ∧
        fs.fault? place = some (.broken written kind text) ∧
        fs' = fs.put place (.file (content.extract 0 written)) ∧ e = .host kind text := by
  unfold writeBytes at h
  split at h
  · rename_i hroom
    cases h
    exact Or.inl ⟨rfl, Or.inl hroom⟩
  · rename_i place hroom
    split at h
    · cases h
    · cases h
      exact Or.inl ⟨rfl, Or.inr ⟨_, _, rfl⟩⟩
    · rename_i hfault
      cases h
      exact Or.inr ⟨place, _, _, _, hroom, hfault, rfl, rfl⟩

/-- Where a file can be read there is room for one. -/
theorem roomFor_of_readBytes {fs : Files} {path : String} {content : ByteArray}
    (h : fs.readBytes path = .ok content) : ∃ place, fs.roomFor path = .ok place := by
  obtain ⟨hpath, hslash, place, hlocate⟩ := locate_of_readBytes h
  exact ⟨place, roomFor_eq_ok.mpr ⟨hpath, hslash, _, hlocate, by simp⟩⟩

end Files

/-! ### A store that fails -/

namespace OffsetFile

open Files

variable {fs : Files} {path : String} {d : Span} {e : Error}

/-- The tree that a store has left which failed to write a text. -/
inductive Left (path text : String) (fs : Files) : Error → Files → Prop
  /-- Nothing has happened to it. -/
  | untouched (e : Error) : Left path text fs e fs
  /-- There was no file, and there may be more directories.  A path that does not go back up is no
  more loaded from than before. -/
  | grown (e : Error) (fs' : Files) (hbefore : (load fs path).value = .ok none)
      (hgrown : Grown fs fs')
      (hafter : fs.Rooted → ['.', '.'] ∉ names path → (load fs' path).value = .ok none) :
      Left path text fs e fs'
  /-- The host has broken off the writing, and the file is the beginning of the text. -/
  | broken (fs' : Files) (place : List (List Char)) (written : Nat) (kind reason : String)
      (hfault : fs.fault? place = some (.broken written kind reason))
      (hwritten : Written path (text.toUTF8.extract 0 written) place fs fs')
      (hread : fs'.readBytes path = .ok (text.toUTF8.extract 0 written)) :
      Left path text fs (.unreachable (.host kind reason)) fs'

/-- There is no file to be read at the path, and so no offset to be loaded. -/
structure Blocked (path : String) (fs : Files) : Prop where
  unread : ∀ content, fs.readBytes path ≠ .ok content
  unloaded : ∀ d, (load fs path).value ≠ .ok (some d)

/-- What a store that failed to write a text has done to the files. -/
structure Failed (path text : String) (e : Error) (fs fs' : Files) : Prop where
  left : Left path text fs e fs'
  /-- If the host has no reason of its own, nobody could read the file, nor can now. -/
  blocked : (∀ kind reason, e ≠ .unreachable (.host kind reason)) →
    Blocked path fs ∧ Blocked path fs'

theorem blocked_of_unread (h : ∀ content, fs.readBytes path ≠ .ok content) : Blocked path fs := by
  refine ⟨h, ?_⟩
  intro d hload
  obtain ⟨content, hread⟩ := readBytes_of_load hload
  exact h content hread

/-- Every file is read as before, if the host has broken off nothing. -/
theorem Left.readBytes_eq_ok {text : String} {fs' : Files} (h : Left path text fs e fs')
    (he : ∀ kind reason, e ≠ .unreachable (.host kind reason)) {other : String}
    {content : ByteArray} (hread : fs.readBytes other = .ok content) :
    fs'.readBytes other = .ok content := by
  cases h with
  | untouched _ => exact hread
  | grown _ _ _ hgrown _ => exact hgrown.readBytes_eq_ok hread
  | broken _ _ _ kind reason _ _ _ => exact absurd rfl (he kind reason)

/-- What can be loaded is what it was, unless the host breaks off the writing, or new directories
make the way free to something that was there. -/
theorem Left.load_eq {text : String} {fs' : Files} (h : Left path text fs e fs')
    (hwhole : ∀ place written kind reason,
      fs.fault? place ≠ some (.broken written kind reason))
    (hway : (load fs path).value = .ok none → fs.Rooted ∧ ['.', '.'] ∉ names path) :
    (load fs' path).value = (load fs path).value := by
  cases h with
  | untouched _ => rfl
  | grown _ _ hbefore _ hafter =>
      obtain ⟨hrooted, hplain⟩ := hway hbefore
      rw [hafter hrooted hplain, hbefore]
  | broken _ _ _ _ _ hfault _ _ => exact absurd hfault (hwhole _ _ _ _)

/-- A file that cannot be written makes the store fail, and what was written of it stays. -/
theorem save_of_not_written {made fs' : Files} {f : Files.Error}
    (hdirs : fs.makeDirectories (above (names path)) = (made, .ok ()))
    (hwrite : made.writeText path (Digits.text d.wholeSeconds) = (fs', .error f)) :
    (save fs path d).value = (.error (.unreachable f), fs') := by
  unfold save
  simp only [hdirs, hwrite]
  rfl

/-- A store fails because a directory cannot be made, or because the file cannot be written when
the directories are there. -/
theorem save_error_cases (h : (save fs path d).value.1 = .error e) :
    ∃ made, (fs.makeDirectories (above (names path))).1 = made ∧
      (((save fs path d).value.2 = made ∧
          ∃ f, (fs.makeDirectories (above (names path))).2 = .error f) ∨
        ∃ f, made.writeText path (Digits.text d.wholeSeconds) =
          ((save fs path d).value.2, .error f) ∧ e = .unreachable f) := by
  unfold save at h ⊢
  cases hdirs : fs.makeDirectories (above (names path)) with
  | mk made result =>
      refine ⟨made, rfl, ?_⟩
      cases result with
      | error f => exact Or.inl ⟨rfl, f, rfl⟩
      | ok _ =>
          simp only [hdirs] at h ⊢
          cases hwrite : made.writeText path (Digits.text d.wholeSeconds) with
          | mk fs' result =>
              rw [hwrite] at h
              cases result with
              | ok _ => cases h
              | error f =>
                  cases h
                  exact Or.inr ⟨f, rfl, rfl⟩

/-- The directories alone make no difference to what can be loaded. -/
theorem left_of_makeDirectories (path text : String) (fs : Files) (e : Error) :
    Left path text fs e (fs.makeDirectories (above (names path))).1 := by
  by_cases hmissing : fs.Missing path
  · exact .grown e _ (load_eq_none_iff.mpr hmissing) (grown_makeDirectories fs _)
      fun hrooted hplain =>
        load_eq_none_iff.mpr (missing_makeDirectories hrooted hplain hmissing)
  · rw [makeDirectories_of_not_missing hmissing]
    exact .untouched e

theorem left_of_save (h : (save fs path d).value.1 = .error e) :
    Left path (Digits.text d.wholeSeconds) fs e (save fs path d).value.2 := by
  obtain ⟨made, hmade, ⟨hfs, -⟩ | ⟨f, hwrite, rfl⟩⟩ := save_error_cases h
  · rw [hfs, ← hmade]
    exact left_of_makeDirectories path _ fs e
  · rcases writeBytes_error_cases hwrite with
      ⟨hfs, -⟩ | ⟨place, written, kind, reason, hroom, hfault, hfs, rfl⟩
    · rw [hfs, ← hmade]
      exact left_of_makeDirectories path _ fs _
    · have hgrown : Grown fs made := hmade ▸ grown_makeDirectories fs _
      have hfault' : fs.fault? place = some (.broken written kind reason) := by
        rw [← hfault, ← hmade, fault?, fault?, faults_makeDirectories]
      rw [hfs]
      exact .broken _ place written kind reason hfault' (written_put hgrown hroom _)
        (readBytes_put hroom _)

/-- No file can be read at the path of a store that the tree was in the way of. -/
theorem unread_of_save (h : (save fs path d).value.1 = .error e)
    (he : ∀ kind reason, e ≠ .unreachable (.host kind reason)) (content : ByteArray) :
    (save fs path d).value.2.readBytes path ≠ .ok content := by
  intro hread
  obtain ⟨made, hmade, ⟨hfs, f, hdirs⟩ | ⟨f, hwrite, rfl⟩⟩ := save_error_cases h
  · rw [hfs, ← hmade] at hread
    obtain ⟨there, hwalk⟩ := walk_above_of_readBytes hread
    exact not_walk_of_makeDirectories hdirs hwalk
  · rcases writeBytes_error_cases hwrite with
      ⟨hfs, hroom | ⟨kind, reason, rfl⟩⟩ | ⟨-, -, kind, reason, -, -, -, rfl⟩
    · rw [hfs] at hread
      obtain ⟨place, hplace⟩ := roomFor_of_readBytes hread
      rw [hplace] at hroom
      cases hroom
    · exact he kind reason rfl
    · exact he kind reason rfl

/-- **A store that fails spoils the file only if the host breaks off the writing.** -/
theorem failed_of_save (h : (save fs path d).value.1 = .error e) :
    Failed path (Digits.text d.wholeSeconds) e fs (save fs path d).value.2 := by
  have hleft := left_of_save h
  refine ⟨hleft, ?_⟩
  intro he
  have hafter := unread_of_save h he
  refine ⟨blocked_of_unread ?_, blocked_of_unread hafter⟩
  exact fun content hread => hafter content (hleft.readBytes_eq_ok he hread)

/-- The file says that it is an hour, and the disk is full after two bytes. -/
def nearlyFull : Files :=
  { entries := [(["offset".toList], .file "3600".toUTF8)]
    faults := [(["offset".toList],
      .broken 2 "StorageFull" "No space left on device (os error 28)")] }

/-- Nothing is left of the hour, and of 2600 seconds the beginning, which is a number too. -/
example : (load nearlyFull "offset").value = .ok (some (.ofSeconds 3600)) ∧
    (load (save nearlyFull "offset" (.ofSeconds 2600)).value.2 "offset").value =
      .ok (some (.ofSeconds 26)) := by decide +kernel

/-- A path that goes back up leads somewhere once the store has made the directory, here to a
directory, which is why the store fails. -/
example :
    let fs : Files := { entries := [(["offset".toList], .directory)] }
    (load fs "x/../offset").value = .ok none ∧
      (load (save fs "x/../offset" .zero).value.2 "x/../offset").value =
        .error (.unreachable .isDirectory) := by decide +kernel

end OffsetFile

end Rollover
