/-
What an offset file may say.

An offset file is written by the server and also by hand, so it may say anything.  Four
things decide what is loaded from it, one after the other: whether there is a file,
whether its bytes are a text, whether the text without the blanks at its ends is a number
of either sign, and whether there is a span of so many seconds.  `Holds` puts the last
three together for the bytes of a file, in the words of the numeral grammar and not in
those of the reader.  Zeros in front of a number, however many, do not count, and there is
no number that is too long to be read; one that no span can have is refused like any other
text that makes no sense.

For the first of the four, `Missing` says what it means that there is no file: the path
can be walked along up to a name under which there is nothing.  A path that runs into a
file half way is not missing.  Its file cannot be reached, and that is an error.
-/
import Rollover.Proofs.MadeDirectories
import Rollover.Proofs.Numerals

namespace Rollover

/-! ### Files that are not there -/

namespace Files

/-- The path leads along directories to a name under which there is nothing. -/
def Missing (fs : Files) (path : String) : Prop :=
  path = "" ∨ ∃ before name after here, names path = before ++ name :: after ∧
    fs.walk [] before = .ok here ∧ fs.lookup? (step here name) = none

/-- A walk finds nothing exactly at a name under which there is nothing. -/
theorem walk_eq_notFound {fs : Files} {names : List (List Char)} :
    ∀ {here : List (List Char)}, fs.walk here names = .error .notFound ↔
      ∃ before name after there, names = before ++ name :: after ∧
        fs.walk here before = .ok there ∧ fs.lookup? (step there name) = none := by
  -- Along the names, and for every place that the walk may have come to.
  induction names with
  | nil =>
      intro here
      constructor
      · intro h
        cases h
      · rintro ⟨before, name, after, there, heq, -⟩
        cases before <;> cases heq
  | cons name rest ih =>
      intro here
      constructor
      · intro h
        unfold walk at h
        split at h
        · rename_i hdir
          obtain ⟨before, name', after, there, rfl, hwalk, hnone⟩ := ih.mp h
          exact ⟨name :: before, name', after, there, rfl, walk_cons_eq_ok.mpr ⟨hdir, hwalk⟩,
            hnone⟩
        · cases h
        · rename_i hnone
          exact ⟨[], name, rest, here, rfl, rfl, hnone⟩
      · rintro ⟨before, name', after, there, heq, hwalk, hnone⟩
        unfold walk
        cases before with
        | nil =>
            cases heq
            cases hwalk
            rw [hnone]
        | cons _ before =>
            cases heq
            obtain ⟨hdir, hrest⟩ := walk_cons_eq_ok.mp hwalk
            rw [hdir]
            exact ih.mpr ⟨before, name', after, there, rfl, hrest, hnone⟩

/-- The place of a last name is looked at only when all names before it lead to directories. -/
theorem locate_concat (fs : Files) (init : List (List Char)) (name : List Char) :
    fs.locate (init ++ [name]) =
      (fs.walk [] init).map fun here => (step here name, fs.lookup? (step here name)) := by
  rw [locate, List.dropLast_concat, List.getLast?_concat, Option.getD_some]
  cases fs.walk [] init <;> rfl

/-- What reading makes of what is found at the end of the path. -/
theorem readBytes_eq {fs : Files} {path : String} (hpath : path ≠ "") :
    fs.readBytes path = (fs.locate (names path)).bind fun found =>
      match found.2 with
      | none => .error .notFound
      | some .directory => .error .isDirectory
      | some (.file content) => if endsInSlash path then .error .notDirectory else .ok content := by
  unfold readBytes
  rw [if_neg hpath]
  rfl

theorem readBytes_eq_notFound_iff {fs : Files} {path : String} :
    fs.readBytes path = .error .notFound ↔ fs.Missing path := by
  unfold Missing
  rw [← walk_eq_notFound]
  by_cases hpath : path = ""
  · subst hpath
    exact ⟨fun _ => Or.inl rfl, fun _ => rfl⟩
  · rw [or_iff_right hpath, readBytes_eq hpath]
    rcases List.eq_nil_or_concat (names path) with hnil | ⟨init, name, hlast⟩
    · -- The path means the root, which is there.
      rw [hnil]
      exact iff_of_false (fun h => nomatch h) (fun h => nomatch h)
    · -- Reading does not step onto the last name but looks under it.  Both find nothing there.
      rw [hlast, List.concat_eq_append, locate_concat, walk_append]
      cases fs.walk [] init with
      | error e => simp only [Except.map, Except.bind, Except.error.injEq]
      | ok here =>
          simp only [Except.map, Except.bind, walk]
          cases fs.lookup? (step here name) with
          | none => simp only
          | some e =>
              cases e with
              | directory => simp
              | file content => cases endsInSlash path <;> simp

theorem readText_of_error {fs : Files} {path : String} {e : Error}
    (h : fs.readBytes path = .error e) : fs.readText path = .error e := by
  simp only [readText, h, bind, Except.bind]

/-- Bytes that are no text cannot be read as one. -/
theorem readText_of_not_valid {fs : Files} {path : String} {content : ByteArray}
    (h : fs.readBytes path = .ok content) (hvalid : ¬ content.IsValidUTF8) :
    fs.readText path = .error .notText := by
  simp only [readText, h, bind, Except.bind, String.fromUTF8?, dif_neg hvalid]
  rfl

theorem readText_eq_notFound_iff {fs : Files} {path : String} :
    fs.readText path = .error .notFound ↔ fs.readBytes path = .error .notFound := by
  refine ⟨?_, readText_of_error⟩
  intro h
  cases hread : fs.readBytes path with
  | error e =>
      rw [readText_of_error hread] at h
      cases h
      rfl
  | ok content =>
      by_cases hvalid : content.IsValidUTF8
      · have hok : fs.readText path = .ok ⟨content, hvalid⟩ := readText_of_readBytes hread
        rw [hok] at h
        cases h
      · rw [readText_of_not_valid hread hvalid] at h
        cases h

end Files

/-! ### Texts that are offsets -/

namespace OffsetFile

/-- The bytes are a text that is a number of either sign but for blanks at its ends, and `d` is
the span of so many seconds. -/
def Holds (content : ByteArray) (d : Span) : Prop :=
  ∃ (text : String) (t : List Char) (n : Int), content = text.toUTF8 ∧
    Text.Trimmed text.toList t ∧ Digits.Signed t n ∧
    (-Span.maxSeconds ≤ n ∧ n ≤ Span.maxSeconds) ∧ d.nanos = n * 1000000000

theorem holds_iff {text : String} {d : Span} :
    Holds text.toUTF8 d ↔ ofText? (Text.trim text.toList) = some d := by
  unfold ofText?
  rw [Option.bind_eq_some_iff]
  constructor
  · rintro ⟨text', t, n, htext, ht, hn, hd⟩
    have hsame : text = text' := String.toByteArray_inj.mp htext
    subst hsame
    rw [ht.trim_eq]
    exact ⟨n, Digits.int?_eq_some_iff.mpr hn, Span.ofSeconds?_eq_some_iff.mpr hd⟩
  · rintro ⟨n, hn, hd⟩
    exact ⟨text, _, n, rfl, Text.trimmed_trim _, Digits.int?_eq_some_iff.mp hn,
      Span.ofSeconds?_eq_some_iff.mp hd⟩

/-! ### Loading -/

variable {fs : Files} {path : String}

theorem load_of_notFound (h : fs.readText path = .error .notFound) :
    (load fs path).value = .ok none := by
  unfold load
  rw [h]
  rfl

theorem load_of_error {e : Files.Error} (h : fs.readText path = .error e) (he : e ≠ .notFound) :
    (load fs path).value = .error (.unreachable e) := by
  unfold load
  rw [h]
  cases e with
  | notFound => exact absurd rfl he
  | _ => rfl

/-- A text either is an offset or is named in the error, without the blanks around it. -/
theorem load_of_text {text : String} (h : fs.readText path = .ok text) :
    (load fs path).value =
      match ofText? (Text.trim text.toList) with
      | some d => .ok (some d)
      | none => .error (.badOffset path (String.ofList (Text.trim text.toList))) := by
  unfold load
  rw [h]
  cases hd : ofText? (Text.trim text.toList) with
  | none =>
      simp only [hd]
      rfl
  | some d =>
      simp only [hd]
      rfl

/-- An offset that is loaded comes out of a file that can be read. -/
theorem readBytes_of_load {d : Span} (h : (load fs path).value = .ok (some d)) :
    ∃ content, fs.readBytes path = .ok content := by
  unfold load at h
  split at h
  · cases h
  · cases h
  · rename_i text hread
    unfold Files.readText at hread
    cases hbytes : fs.readBytes path with
    | ok content => exact ⟨content, rfl⟩
    | error f =>
        rw [hbytes] at hread
        cases hread

/-- Nothing is loaded only where there is no file to be read. -/
theorem load_eq_none_iff : (load fs path).value = .ok none ↔ fs.Missing path := by
  rw [← Files.readBytes_eq_notFound_iff]
  constructor
  · intro h
    cases hread : fs.readText path with
    | error e =>
        by_cases he : e = .notFound
        · subst he
          exact Files.readText_eq_notFound_iff.mp hread
        · rw [load_of_error hread he] at h
          cases h
    | ok text =>
        rw [load_of_text hread] at h
        split at h <;> cases h
  · intro h
    exact load_of_notFound (Files.readText_eq_notFound_iff.mpr h)

/-- From a file exactly the offset is loaded that its bytes hold. -/
theorem load_eq_some_iff {content : ByteArray} (hread : fs.readBytes path = .ok content) {d : Span} :
    (load fs path).value = .ok (some d) ↔ Holds content d := by
  by_cases hvalid : content.IsValidUTF8
  · obtain ⟨text, rfl⟩ : ∃ text : String, content = text.toUTF8 := ⟨⟨content, hvalid⟩, rfl⟩
    rw [holds_iff, load_of_text (Files.readText_of_readBytes hread)]
    cases ofText? (Text.trim text.toList) with
    | none => exact iff_of_false (fun h => nomatch h) fun h => nomatch h
    | some d' => rw [Except.ok.injEq, Option.some.injEq]
  · rw [load_of_error (Files.readText_of_not_valid hread hvalid) (by decide)]
    refine iff_of_false (fun h => nomatch h) ?_
    rintro ⟨text, -, -, rfl, -⟩
    exact hvalid text.isValidUTF8

/-- A text that holds no offset is named in the error. -/
theorem load_of_not_holds {text : String} (h : fs.readText path = .ok text)
    (hnone : ∀ d, ¬ Holds text.toUTF8 d) :
    (load fs path).value = .error (.badOffset path (String.ofList (Text.trim text.toList))) := by
  rw [load_of_text h]
  cases hd : ofText? (Text.trim text.toList) with
  | none => rfl
  | some d => exact absurd (holds_iff.mpr hd) (hnone d)

/--
**An offset file is read by its grammar, whatever bytes it has.**  Nothing is loaded
exactly when there is no file, and that is no error; a file that cannot be reached is
one.  A file gives an offset exactly if its bytes hold it.  Other bytes are an error too:
that they are no text, or, if they are one, that what stands between the blanks is no
offset.
-/
theorem load_accepts_grammar (fs : Files) (path : String) :
    ((load fs path).value = .ok none ↔ fs.Missing path) ∧
      (∀ e, fs.readBytes path = .error e → ¬ fs.Missing path →
        (load fs path).value = .error (.unreachable e)) ∧
      ∀ content, fs.readBytes path = .ok content →
        (∀ d, (load fs path).value = .ok (some d) ↔ Holds content d) ∧
          (¬ content.IsValidUTF8 → (load fs path).value = .error (.unreachable .notText)) ∧
          ∀ text : String, content = text.toUTF8 → (∀ d, ¬ Holds content d) →
            ∃ t, Text.Trimmed text.toList t ∧
              (load fs path).value = .error (.badOffset path (String.ofList t)) := by
  refine ⟨load_eq_none_iff, ?_, ?_⟩
  · intro e hread hthere
    refine load_of_error (Files.readText_of_error hread) ?_
    rintro rfl
    exact hthere (Files.readBytes_eq_notFound_iff.mp hread)
  · intro content hread
    refine ⟨?_, ?_, ?_⟩
    · exact fun d => load_eq_some_iff hread
    · intro hvalid
      exact load_of_error (Files.readText_of_not_valid hread hvalid) (by decide)
    · rintro text rfl hnone
      exact ⟨_, Text.trimmed_trim _, load_of_not_holds (Files.readText_of_readBytes hread) hnone⟩

/-- A file that somebody has written by hand. -/
def byHand : Files := { entries := [(["offset".toList], .file "\u3000-0042\n".toUTF8)] }

/-- Zeros in front and a blank of another script make no difference. -/
theorem load_accepts_grammar_byHand :
    byHand.readBytes "offset" = .ok "\u3000-0042\n".toUTF8 ∧
      (load byHand "offset").value = .ok (some (.ofSeconds (-42))) := by
  have hread : byHand.readBytes "offset" = .ok "\u3000-0042\n".toUTF8 := rfl
  have hheld : Holds "\u3000-0042\n".toUTF8 (.ofSeconds (-42)) := by
    refine ⟨_, ['-', '0', '0', '4', '2'], -42, rfl, ⟨?_, ?_, ?_⟩, ?_, by decide, by decide⟩
    · exact ⟨['\u3000'], ['\n'], rfl, List.forall_mem_singleton.mpr (by decide),
        List.forall_mem_singleton.mpr (by decide)⟩
    · rintro c ⟨⟩
      decide
    · rintro c ⟨⟩
      decide
    · have hnumeral : Digits.Numeral ['0', '0', '4', '2'] 42 :=
        Digits.numeral_value (by decide) (by decide)
      exact .minus hnumeral
  exact ⟨hread, (((load_accepts_grammar byHand "offset").2.2 _ hread).1 _).mpr hheld⟩

end OffsetFile

end Rollover
