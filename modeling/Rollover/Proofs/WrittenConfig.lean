/-
A configuration that is written as a document is read from it again.

Three things have to come together: each value is read as it was written, each member
finds its place by its key, and the zone is one.  The first two need no look at a reader
here.  A document means what its members mean, so it is enough that the members are
written where the text says they are (`writes_written`), and that they mean the
configuration (`means_written`).  The third is looked at when the document has been read,
so a configuration whose zone is no zone is written and read like any other, and refused
afterwards.

The cells are the only condition.  An anchor has 64 bits and a zone 32, and a document
cannot say more: what a reader gives has cells as well (`sized_of_ofText`), whatever
spelling it came in.  So a configuration that was read from any text can be written, and
that text says the same.
-/
import Rollover.Handler
import Rollover.Proofs.ConfigMeaning

namespace Rollover

namespace Config

open Document (Reader)

/-- The numbers have the cells that are meant for them. -/
structure Sized (c : Config) : Prop where
  anchor : Word.Fits c.anchorSecs
  least_le_zone : -2147483648 ≤ c.gm.zoneSecs
  zone_le_greatest : c.gm.zoneSecs ≤ 2147483647

/-! ### The zone -/

theorem zone_eq {c : Config} (hlo : -86400 < c.gm.zoneSecs) (hhi : c.gm.zoneSecs < 86400) :
    c.zone = .ok ⟨c.gm.zoneSecs, hlo, hhi⟩ := by
  simp only [zone, Zone.ofSeconds?, dif_pos (And.intro hlo hhi)]

theorem checked_eq (c : Config) : c.checked =
    if -86400 < c.gm.zoneSecs ∧ c.gm.zoneSecs < 86400 then .ok c
    else .error (.badZone c.gm.zoneSecs) := by
  by_cases h : -86400 < c.gm.zoneSecs ∧ c.gm.zoneSecs < 86400
  · rw [if_pos h, checked, zone_eq h.1 h.2]
    rfl
  · rw [if_neg h]
    simp only [checked, zone, Zone.ofSeconds?, dif_neg h]
    rfl

/-! ### Writing, then reading -/

theorem key_writeText (name : String) :
    Document.Key (some name.toList) (name.toList.flatMap Document.writeChar) :=
  .named (Document.spells_writeText _)

/-- A member as it is written has no gaps. -/
theorem memberText_written (name : String) (v : List Char) :
    Document.MemberText ⟨some name.toList, v⟩ (memberText name v) :=
  .parts (key_writeText name) Document.gaps_nil Document.gaps_nil

theorem intercalate_comma (p : List Char) (ps : List (List Char)) :
    List.intercalate [','] (p :: ps) = p ++ ps.flatMap (',' :: ·) := by
  induction ps generalizing p with
  | nil => simp
  | cons q ps ih => simp [List.intercalate_cons_cons, ih]

/-- A member with a name and a value. -/
def member (m : String × List Char) : Document.Member := ⟨some m.1.toList, m.2⟩

theorem more_written (ms : List (String × List Char)) :
    Document.More Document.MemberText (ms.map member)
      ((ms.map fun m => memberText m.1 m.2).flatMap (',' :: ·)) := by
  induction ms with
  | nil => exact .nil Document.gaps_nil
  | cons m ms ih =>
      have hmore := Document.More.cons Document.gaps_nil Document.gaps_nil
        (memberText_written m.1 m.2) ih
      rw [List.map_cons, List.map_cons, List.flatMap_cons, List.cons_append]
      exact hmore

/-- **An object that was written has the members it was written from.** -/
theorem objectText_written (ms : List (String × List Char)) :
    Document.ObjectText (ms.map member) (objectText (ms.map fun m => memberText m.1 m.2)) := by
  refine ⟨List.intercalate [','] (ms.map fun m => memberText m.1 m.2), ?_,
    by rw [objectText, List.cons_append]⟩
  cases ms with
  | nil => exact .nil Document.gaps_nil
  | cons m ms =>
      have hitems := Document.Items.cons Document.gaps_nil (memberText_written m.1 m.2)
        (more_written ms)
      rw [List.map_cons, List.map_cons, intercalate_comma]
      exact hitems

theorem pathText_written (o : Option String) : PathText o (offsetFileText o) := by
  cases o with
  | none => exact .none
  | some path => exact .some (Document.spells_writeText _)

theorem isValue_offsetFileText (o : Option String) : Document.IsValue (offsetFileText o) := by
  cases o with
  | none => exact .null
  | some path => exact .text (Document.spells_writeText _).isLiteral

/-- The members of the game master settings as they are written. -/
def settingsMembers (g : Settings) : List Document.Member :=
  [member ("enabled", flagText g.enabled), member ("utc_offset_secs", Digits.ofInt g.zoneSecs)]

theorem objectText_settings (g : Settings) :
    Document.ObjectText (settingsMembers g) (settingsText g) :=
  objectText_written [("enabled", flagText g.enabled), ("utc_offset_secs", Digits.ofInt g.zoneSecs)]

theorem settingsMeans_written {g : Settings} (hlo : -2147483648 ≤ g.zoneSecs)
    (hhi : g.zoneSecs ≤ 2147483647) : SettingsMeans (settingsMembers g) g where
  wellFormed := by
    intro m hm
    simp only [settingsMembers, List.mem_cons, List.not_mem_nil, or_false] at hm
    rcases hm with rfl | rfl
    · exact ⟨⟨_, rfl⟩, .flag g.enabled⟩
    · exact ⟨⟨_, rfl⟩, Document.isValue_ofInt _⟩
  enabled := by
    have hnamed : named "enabled" (settingsMembers g) = [flagText g.enabled] := by
      simp [named, settingsMembers, member]
    rw [hnamed]
    exact .once rfl
  zoneSecs := by
    have hnamed : named "utc_offset_secs" (settingsMembers g) = [Digits.ofInt g.zoneSecs] := by
      simp [named, settingsMembers, member]
    rw [hnamed]
    exact .once ⟨hlo, hhi, rfl⟩

/-- The members of a configuration as they are written. -/
def writtenMembers (c : Config) : List Document.Member :=
  [member ("base_timestamp", Digits.ofInt c.anchorSecs),
    member ("offset_file", offsetFileText c.offsetFile), member ("gm", settingsText c.gm)]

theorem means_written {c : Config} (h : c.Sized) : Means (writtenMembers c) c where
  wellFormed := by
    intro m hm
    simp only [writtenMembers, List.mem_cons, List.not_mem_nil, or_false] at hm
    rcases hm with rfl | rfl | rfl
    · exact ⟨⟨_, rfl⟩, Document.isValue_ofInt _⟩
    · exact ⟨⟨_, rfl⟩, isValue_offsetFileText _⟩
    · have hsettings := settingsMeans_written h.least_le_zone h.zone_le_greatest
      exact ⟨⟨_, rfl⟩,
        .object (objectText_settings c.gm) fun m hm => (hsettings.wellFormed m hm).value⟩
  anchor := ⟨_, by simp [named, writtenMembers, member], h.anchor, rfl⟩
  offsetFile := by
    have hnamed : named "offset_file" (writtenMembers c) = [offsetFileText c.offsetFile] := by
      simp [named, writtenMembers, member]
    rw [hnamed]
    exact .once (pathText_written _)
  gm := by
    have hnamed : named "gm" (writtenMembers c) = [settingsText c.gm] := by
      simp [named, writtenMembers, member]
    rw [hnamed]
    exact .once ⟨_, .inl (objectText_settings c.gm),
      settingsMeans_written h.least_le_zone h.zone_le_greatest⟩

theorem writes_written (c : Config) : Writes (writtenMembers c) c.text := by
  have hobject := objectText_written [("base_timestamp", Digits.ofInt c.anchorSecs),
    ("offset_file", offsetFileText c.offsetFile), ("gm", settingsText c.gm)]
  refine ⟨[], _, [], Document.gaps_nil, Document.gaps_nil, .inl hobject, ?_⟩
  rw [List.nil_append, List.append_nil, text, String.toList_ofList]
  rfl

/-- **Writing and reading a configuration.**  It comes back as it was, unless its zone is no
zone; then that is what reading it says. -/
theorem ofText_text {c : Config} (h : c.Sized) : ofText c.text = c.checked :=
  ofText_of_means (means_written h) (writes_written c)

/-! ### Reading, then writing -/

section

variable {α : Type} {r : Reader α} {P : α → Prop}

theorem yields_once (name : String) (old : Option α) (h : r.Yields P) :
    (once name old r).Yields P := by
  unfold once
  split
  · exact Reader.yields_fault _
  · exact Reader.yields_bind fun _ => h

theorem yields_objectOrList (wanted : String) {list : Reader α} (hlist : list.Yields P)
    (h : r.Yields P) : (objectOrList wanted list r).Yields P := by
  unfold objectOrList
  refine Reader.yields_bind fun c => ?_
  split
  · exact Reader.yields_bind fun _ => hlist
  · exact Reader.yields_bind fun _ => h
  · exact Reader.yields_refuse wanted
  · exact Reader.yields_fault _

end

/-- The anchor among the members read so far has a cell. -/
def Draft.Anchored (d : Draft) : Prop := ∀ n ∈ d.anchorSecs, Word.Fits n

theorem yields_anchorSecs : readAnchorSecs.Yields Word.Fits :=
  Reader.yields_whole Word.least Word.greatest "i64"

theorem Draft.yields_finish {d : Draft} (h : d.Anchored) (e : Document.Fault) :
    (d.finish e).Yields fun c => Word.Fits c.anchorSecs := by
  unfold Draft.finish
  split
  · rename_i n heq
    exact Reader.yields_pure (h n heq)
  · exact Reader.yields_fault e

/-- A member leaves the anchor as it is, or is the anchor. -/
theorem yields_configMember {d : Draft} (h : d.Anchored) (key : List Char) :
    (configMember d key).Yields Draft.Anchored := by
  unfold configMember
  split
  · refine (yields_once "base_timestamp" d.anchorSecs yields_anchorSecs).bind fun n hn => ?_
    exact Reader.yields_pure fun m hm => Option.some.inj hm ▸ hn
  · split
    · exact Reader.yields_bind fun _ => Reader.yields_pure h
    · split
      · exact Reader.yields_bind fun _ => Reader.yields_pure h
      · exact Reader.yields_bind fun _ => Reader.yields_bind fun _ => Reader.yields_pure h

theorem yields_configList : configList.Yields fun c => Word.Fits c.anchorSecs := by
  unfold configList
  refine (Reader.yields_item yields_anchorSecs true).bind fun o ho => ?_
  split
  · exact Reader.yields_fault _
  · rename_i n
    refine Reader.yields_bind fun _ => Reader.yields_bind fun _ => Reader.yields_bind fun _ => ?_
    exact Draft.yields_finish (fun m hm => ho m hm) _

theorem yields_reader : reader.Yields fun c => Word.Fits c.anchorSecs := by
  have hempty : Draft.Anchored {} := fun _ hn => nomatch hn
  have hmembers := Reader.yields_members (fun _ key hd => yields_configMember hd key) hempty
  exact yields_objectOrList _ yields_configList
    (hmembers.bind fun _ hd => Draft.yields_finish hd _)

/-- What a text is read as has its cells, and a zone. -/
theorem sized_of_ofText {text : String} {c : Config} (h : ofText text = .ok c) :
    c.Sized ∧ -86400 < c.gm.zoneSecs ∧ c.gm.zoneSecs < 86400 := by
  unfold ofText at h
  split at h
  · rename_i d hread
    rw [checked_eq] at h
    split at h
    · rename_i hzone
      cases h
      exact ⟨⟨yields_reader.of_read hread, by omega, by omega⟩, hzone⟩
    · cases h
  · cases h

/-- **The round trip of a configuration.**  Written and read, it is what it was if its zone is
less than a day away, and else the fault names its zone.  What any text is read as has a zone,
stands the check, describes a handler, and is what it was when it is written and read. -/
theorem text_round_trip :
    (∀ c : Config, c.Sized → ofText c.text =
      if -86400 < c.gm.zoneSecs ∧ c.gm.zoneSecs < 86400 then .ok c
      else .error (.badZone c.gm.zoneSecs)) ∧
    ∀ (text : String) (c : Config), ofText text = .ok c →
      (∃ z : Zone, z.secs = c.gm.zoneSecs ∧ c.zone = .ok z ∧
        Handler.ofConfig c = .ok { zone := z, store := c.offsetFile, enabled := c.gm.enabled }) ∧
      c.checked = .ok c ∧ ofText c.text = .ok c := by
  refine ⟨fun c h => ?_, fun text c h => ?_⟩
  · rw [ofText_text h, checked_eq]
  · obtain ⟨hsized, hlo, hhi⟩ := sized_of_ofText h
    have hzone := zone_eq hlo hhi
    have hchecked : c.checked = .ok c := by rw [checked_eq, if_pos ⟨hlo, hhi⟩]
    refine ⟨⟨_, rfl, hzone, ?_⟩, hchecked, ?_⟩
    · rw [Handler.ofConfig, hzone]
      rfl
    · rw [ofText_text hsized, hchecked]

/-- A configuration at the edge of its cells, with a path that has to be escaped. -/
def intricate : Config where
  anchorSecs := Word.least
  offsetFile := some "\x01\"日\\"
  gm := { enabled := false, zoneSecs := -86399 }

/-- The same in another spelling, with the settings as a list. -/
def respelt : String :=
  "\x7b \"gm\" : [false, -86399], \"offset_file\":\"\\u0001\\\"\\u65E5\\\\\",\n\"note\": [1e9]," ++
    "\"base_timestamp\":-9223372036854775808\x7d"

theorem text_round_trip_intricate :
    intricate.Sized ∧ ofText intricate.text = .ok intricate ∧
      ofText (text { anchorSecs := 0, gm := { zoneSecs := 86400 } }) = .error (.badZone 86400) ∧
      ofText respelt = .ok intricate ∧ intricate.checked = .ok intricate := by
  have hsized : intricate.Sized := ⟨by decide, by decide, by decide⟩
  have hwritten := text_round_trip.1 intricate hsized
  rw [if_pos ⟨by decide, by decide⟩] at hwritten
  have hrefused := text_round_trip.1 { anchorSecs := 0, gm := { zoneSecs := 86400 } }
    ⟨by decide, by decide, by decide⟩
  rw [if_neg (by decide)] at hrefused
  have hread : ofText respelt = .ok intricate := by
    have hsome : (ofText respelt).toOption = some intricate := by decide +kernel
    cases h : ofText respelt with
    | error e =>
        rw [h] at hsome
        cases hsome
    | ok c =>
        rw [h] at hsome
        cases hsome
        rfl
  exact ⟨hsized, hwritten, hrefused, hread, (text_round_trip.2 respelt intricate hread).2.1⟩

end Config

end Rollover
