/-
Only the known members of a configuration count.

There are many ways to write one configuration.  What may be changed in a document is
listed here as a relation between its members before and after (`Change`): they may
change places, a member with another name may come in, with a value of any kind and
depth, and a member that was left out may be written with its usual value.  The settings
may be written in all these ways too, and the game master member may have any of them as
its value (`Variant`).  Each change can be taken back.

One change keeps the meaning, in both directions, since for each known name it keeps what
is said of it: the values of that name stay the same up to their order, and there is one
at most; or the usual value takes the place of none.  So any number of changes keep it.
Readers have little part in this.  They show that a value cannot be read in two ways, and
that is what a change which writes a value has to know when it is taken back.

The text needs no changes of its own, since the meaning was never one of a text: gaps, and
the choice between an object and a list, are already open in `Writes`.
-/
import Mathlib.Logic.Relation
import Rollover.Proofs.RepeatedMembers

namespace Rollover

namespace Config

open Document

/-! ### Changes -/

section

variable {order : List String} {Usual : String → List Char → Prop} {ms ms' : List Member}
  {name : String}

/-- What may be done to the members of an object without changing what it means.  `Usual` says
which value stands for a member that is left out. -/
inductive Change (order : List String) (Usual : String → List Char → Prop) :
    List Member → List Member → Prop
  | reordered {ms ms' : List Member} (h : ms'.Perm ms) : Change order Usual ms ms'
  | inserted {ms : List Member} {m : Member} (hm : WellFormed m)
      (hname : ∀ name ∈ order, m.name ≠ some name.toList) : Change order Usual ms (m :: ms)
  | written {ms : List Member} {name : String} {v : List Char} (hnone : named name ms = [])
      (hv : Usual name v) : Change order Usual ms (⟨some name.toList, v⟩ :: ms)

theorem named_of_inserted {m : Member} (h : m.name ≠ some name.toList) (ms : List Member) :
    named name (m :: ms) = named name ms := by
  simp [named, h]

theorem Change.wellFormed_iff (h : Change order Usual ms ms')
    (hvalue : ∀ {name v}, Usual name v → IsValue v) :
    (∀ m ∈ ms, WellFormed m) ↔ ∀ m ∈ ms', WellFormed m := by
  cases h with
  | reordered h => simp only [h.mem_iff]
  | inserted hm => rw [List.forall_mem_cons, and_iff_right hm]
  | written _ hv => rw [List.forall_mem_cons, and_iff_right ⟨⟨_, rfl⟩, hvalue hv⟩]

theorem said_nil {α : Type} {T : α → List Char → Prop} {usual a : α} :
    Said T usual [] a ↔ a = usual := by
  refine ⟨fun h => ?_, fun h => ?_⟩
  · cases h
    rfl
  · rw [h]
    exact .leftOut

theorem said_cons {α : Type} {T : α → List Char → Prop} {usual a : α} {v : List Char}
    {vs : List (List Char)} : Said T usual (v :: vs) a ↔ vs = [] ∧ T a v := by
  refine ⟨fun h => ?_, fun ⟨hvs, h⟩ => ?_⟩
  · cases h with
    | once h => exact ⟨rfl, h⟩
  · rw [hvs]
    exact .once h

/-- What is said of one member does not depend on the places of the others. -/
theorem Said.of_perm {α : Type} {T : α → List Char → Prop} {usual a : α} {vs vs' : List (List Char)}
    (h : Said T usual vs a) (hperm : vs'.Perm vs) : Said T usual vs' a := by
  cases h with
  | leftOut =>
      rw [List.perm_nil.mp hperm]
      exact .leftOut
  | once h =>
      rw [List.perm_singleton.mp hperm]
      exact .once h

theorem Change.said_iff {α : Type} {T : α → List Char → Prop} {usual a : α}
    (h : Change order Usual ms ms') (hname : name ∈ order)
    (husual : ∀ {v}, Usual name v → (T a v ↔ a = usual)) :
    Said T usual (named name ms) a ↔ Said T usual (named name ms') a := by
  cases h with
  | reordered h =>
      have hperm : (named name ms').Perm (named name ms) := (h.filter _).map _
      exact ⟨fun h => h.of_perm hperm, fun h => h.of_perm hperm.symm⟩
  | inserted _ hother => rw [named_of_inserted (hother name hname)]
  | @written name' v hnone hv =>
      by_cases heq : name' = name
      · subst heq
        rw [named_cons_self rfl, hnone, said_nil, said_cons, husual hv, and_iff_right rfl]
      · rw [named_cons_of_ne (fun h => heq (String.toList_inj.mp h))]

/-- A member that has no usual value can only change its place. -/
theorem Change.named_eq_iff {v : List Char} (h : Change order Usual ms ms') (hname : name ∈ order)
    (hnone : ∀ v, ¬ Usual name v) : named name ms = [v] ↔ named name ms' = [v] := by
  cases h with
  | reordered h =>
      have hperm : (named name ms').Perm (named name ms) := (h.filter _).map _
      rw [← List.perm_singleton, ← List.perm_singleton, hperm.congr_left]
  | inserted _ hother => rw [named_of_inserted (hother name hname)]
  | @written name' w _ hw =>
      have hne : name' ≠ name := by
        rintro rfl
        exact hnone w hw
      rw [named_cons_of_ne (fun h => hne (String.toList_inj.mp h))]

end

/-- What stands for a value cannot be anything else. -/
theorem iff_eq_of_reads {α : Type} {r : Reader α} {T : α → List Char → Prop}
    (hread : ∀ {a v}, T a v → r.Reads v a) {a b : α} {v : List Char} (h : T b v) :
    T a v ↔ a = b := by
  refine ⟨fun h' => ?_, fun heq => heq ▸ h⟩
  have hrun := (hread h' [] over_nil).symm.trans (hread h [] over_nil)
  exact (Prod.mk.inj (Except.ok.inj hrun)).1

/-- What each step keeps, any number of steps keep, taken back or not. -/
theorem iff_of_eqvGen {R : List Member → List Member → Prop} {P : List Member → Prop}
    (hstep : ∀ {ms ms'}, R ms ms' → (P ms ↔ P ms')) {ms ms' : List Member}
    (h : Relation.EqvGen R ms ms') : P ms ↔ P ms' := by
  induction h with
  | rel _ _ h => exact hstep h
  | refl => exact Iff.rfl
  | symm _ _ _ ih => exact ih.symm
  | trans _ _ _ _ _ ih ih' => exact ih.trans ih'

/-! ### The game master settings -/

section

variable {gs gs' : List Member} {g : Settings} {name : String} {u v : List Char}

def UsualSetting (name : String) (v : List Char) : Prop :=
  (name = "enabled" ∧ v = "true".toList) ∨ (name = "utc_offset_secs" ∧ v = "0".toList)

theorem UsualSetting.isValue (h : UsualSetting name v) : IsValue v := by
  rcases h with ⟨-, rfl⟩ | ⟨-, rfl⟩
  · exact .flag true
  · have hzero : "0".toList = Digits.ofInt 0 := by decide +kernel
    rw [hzero]
    exact isValue_ofInt 0

abbrev SettingsChange : List Member → List Member → Prop := Change settingsNames UsualSetting

theorem SettingsChange.means_iff (h : SettingsChange gs gs') :
    SettingsMeans gs g ↔ SettingsMeans gs' g := by
  have hwell := h.wellFormed_iff UsualSetting.isValue
  have henabled : Said FlagText true (named "enabled" gs) g.enabled ↔
      Said FlagText true (named "enabled" gs') g.enabled := by
    refine h.said_iff (by decide) fun hv => ?_
    obtain ⟨-, rfl⟩ | ⟨hname, -⟩ := hv
    · exact iff_eq_of_reads reads_enabled rfl
    · exact absurd hname (by decide)
  have hzone : Said ZoneText 0 (named "utc_offset_secs" gs) g.zoneSecs ↔
      Said ZoneText 0 (named "utc_offset_secs" gs') g.zoneSecs := by
    refine h.said_iff (by decide) fun hv => ?_
    obtain ⟨hname, -⟩ | ⟨-, rfl⟩ := hv
    · exact absurd hname (by decide)
    · exact iff_eq_of_reads reads_zoneSecs ⟨by decide, by decide, by decide +kernel⟩
  exact ⟨fun hg => ⟨hwell.mp hg.wellFormed, henabled.mp hg.enabled, hzone.mp hg.zoneSecs⟩,
    fun hg => ⟨hwell.mpr hg.wellFormed, henabled.mpr hg.enabled, hzone.mpr hg.zoneSecs⟩⟩

theorem settingsMeans_iff (h : Relation.EqvGen SettingsChange gs gs') :
    SettingsMeans gs g ↔ SettingsMeans gs' g :=
  iff_of_eqvGen (P := (SettingsMeans · g)) SettingsChange.means_iff h

theorem SettingsText.isValue (h : SettingsText g u) : IsValue u := by
  obtain ⟨gs, hform, hg⟩ := h
  rcases hform with hobject | ⟨-, hlist⟩
  · exact .object hobject fun m hm => (hg.wellFormed m hm).value
  · refine .list hlist fun v hv => ?_
    obtain ⟨m, hm, rfl⟩ := List.mem_map.mp hv
    exact (hg.wellFormed m hm).value

end

/-! ### The whole configuration -/

section

variable {ms ms' : List Member} {c : Config} {name : String} {v : List Char}

/-- The usual settings may be written in any way. -/
def UsualMember (name : String) (v : List Char) : Prop :=
  (name = "offset_file" ∧ v = "null".toList) ∨ (name = "gm" ∧ SettingsText {} v)

theorem UsualMember.isValue (h : UsualMember name v) : IsValue v := by
  rcases h with ⟨-, rfl⟩ | ⟨-, hu⟩
  · exact .null
  · exact hu.isValue

/-- What may be done to the members of a configuration: a change of their own, or changes of
the settings that one of them holds. -/
inductive Variant : List Member → List Member → Prop
  | members {ms ms' : List Member} (h : Change names UsualMember ms ms') : Variant ms ms'
  | settings {ms gs gs' : List Member} {g : Settings} {u u' : List Char} (hg : SettingsMeans gs g)
      (h : Relation.EqvGen SettingsChange gs gs') (hu : Form settingsNames gs u)
      (hu' : Form settingsNames gs' u') :
      Variant (⟨some "gm".toList, u⟩ :: ms) (⟨some "gm".toList, u'⟩ :: ms)

theorem means_iff_of_change (h : Change names UsualMember ms ms') : Means ms c ↔ Means ms' c := by
  have hwell := h.wellFormed_iff UsualMember.isValue
  have hanchor : ∀ v, named "base_timestamp" ms = [v] ↔ named "base_timestamp" ms' = [v] :=
    fun v => h.named_eq_iff (by decide) fun w hw => by
      rcases hw with ⟨hname, -⟩ | ⟨hname, -⟩ <;> exact absurd hname (by decide)
  have hfile : Said PathText none (named "offset_file" ms) c.offsetFile ↔
      Said PathText none (named "offset_file" ms') c.offsetFile := by
    refine h.said_iff (by decide) fun hv => ?_
    obtain ⟨-, rfl⟩ | ⟨hname, -⟩ := hv
    · exact iff_eq_of_reads reads_offsetFile .none
    · exact absurd hname (by decide)
  have hgm : Said SettingsText {} (named "gm" ms) c.gm ↔
      Said SettingsText {} (named "gm" ms') c.gm := by
    refine h.said_iff (by decide) fun hv => ?_
    obtain ⟨hname, -⟩ | ⟨-, hu⟩ := hv
    · exact absurd hname (by decide)
    · exact iff_eq_of_reads reads_settings hu
  constructor
  · intro hc
    obtain ⟨v, hv, htext⟩ := hc.anchor
    exact ⟨hwell.mp hc.wellFormed, ⟨v, (hanchor v).mp hv, htext⟩, hfile.mp hc.offsetFile,
      hgm.mp hc.gm⟩
  · intro hc
    obtain ⟨v, hv, htext⟩ := hc.anchor
    exact ⟨hwell.mpr hc.wellFormed, ⟨v, (hanchor v).mpr hv, htext⟩, hfile.mpr hc.offsetFile,
      hgm.mpr hc.gm⟩

/-- The settings of a configuration may be written in another way. -/
theorem Means.settings_congr {g : Settings} {u u' : List Char} (hu : SettingsText g u)
    (hu' : SettingsText g u') (hc : Means (⟨some "gm".toList, u⟩ :: ms) c) :
    Means (⟨some "gm".toList, u'⟩ :: ms) c where
  wellFormed := by
    rw [List.forall_mem_cons]
    exact ⟨⟨⟨_, rfl⟩, hu'.isValue⟩, (List.forall_mem_cons.mp hc.wellFormed).2⟩
  anchor := by
    have hanchor := hc.anchor
    rwa [named_cons_of_ne (by decide)] at hanchor ⊢
  offsetFile := by
    have hfile := hc.offsetFile
    rwa [named_cons_of_ne (by decide)] at hfile ⊢
  gm := by
    have hgm := hc.gm
    rw [named_cons_self rfl, said_cons] at hgm ⊢
    rw [iff_eq_of_reads reads_settings hu] at hgm
    rwa [iff_eq_of_reads reads_settings hu']

theorem Variant.means_iff (h : Variant ms ms') : Means ms c ↔ Means ms' c := by
  cases h with
  | members h => exact means_iff_of_change h
  | settings hg h hu hu' =>
      have htext : SettingsText _ _ := ⟨_, hu, hg⟩
      have htext' : SettingsText _ _ := ⟨_, hu', (settingsMeans_iff h).mp hg⟩
      exact ⟨.settings_congr htext htext', .settings_congr htext' htext⟩

theorem means_iff (h : Relation.EqvGen Variant ms ms') : Means ms c ↔ Means ms' c :=
  iff_of_eqvGen (P := (Means · c)) Variant.means_iff h

end

/-- **A document means what its known members mean.**  However its members are ordered, added to
and written out, it gives the configuration that they mean, once its zone is looked at; and a
known member that comes twice makes it malformed. -/
theorem only_known_members_count :
    (∀ {ms ms' : List Member} {c : Config} {text text' : String}, Means ms c →
      Relation.EqvGen Variant ms ms' → Writes ms text → Writes ms' text' →
        ofText text = c.checked ∧ ofText text' = ofText text) ∧
    ∀ {g t more : List Char} {text : String}, Repeats t → Gaps g →
      text.toList = g ++ (t ++ more) → ∃ e, ofText text = .error (.malformed e) := by
  refine ⟨fun h hvariant ht ht' => ?_, fun h hg htext => ofText_of_repeats h hg htext⟩
  have hfirst := ofText_of_means h ht
  have hsecond := ofText_of_means ((means_iff hvariant).mp h) ht'
  exact ⟨hfirst, hsecond.trans hfirst.symm⟩

/-! ### Two spellings of one configuration

An anchor and nothing else, and the same anchor in a list, with everything that may be left out.
-/

def shortMembers : List Member := [⟨some "base_timestamp".toList, "7".toList⟩]

/-- Usual settings, one of them written and one left out, behind a member that is none. -/
def usualSettings : List Member :=
  [⟨some "x".toList, "[7]".toList⟩, ⟨some "enabled".toList, "true".toList⟩]

def longMembers : List Member :=
  shortMembers ++ [⟨some "offset_file".toList, "null".toList⟩,
    ⟨some "gm".toList, "\x7b\"x\":[7],\"enabled\":true\x7d".toList⟩]

theorem isValue_seven : IsValue "7".toList := by
  have hseven : "7".toList = Digits.ofInt 7 := by decide +kernel
  rw [hseven]
  exact isValue_ofInt 7

theorem isValue_sevens : IsValue "[7]".toList :=
  .list ⟨_, .cons gaps_nil rfl (.nil gaps_nil), rfl⟩ (List.forall_mem_singleton.mpr isValue_seven)

/-- A member without gaps or escapes. -/
theorem memberText_plain {name : String} (h : name.toList.all (IsPlain ·)) (v : List Char) :
    MemberText ⟨some name.toList, v⟩ (quotedText name.toList ++ ([] ++ ':' :: ([] ++ v))) := by
  have hplain : ∀ c ∈ name.toList, IsPlain c := fun c hc =>
    of_decide_eq_true (List.all_eq_true.mp h c hc)
  exact .parts (.named (spells_self hplain)) gaps_nil gaps_nil

theorem means_short : Means shortMembers { anchorSecs := 7 } where
  wellFormed := List.forall_mem_singleton.mpr ⟨⟨_, rfl⟩, isValue_seven⟩
  anchor := ⟨"7".toList, by simp [named, shortMembers], by decide, by decide +kernel⟩
  offsetFile := by
    have hnone : named "offset_file" shortMembers = [] := by simp [named, shortMembers]
    rw [hnone]
    exact .leftOut
  gm := by
    have hnone : named "gm" shortMembers = [] := by simp [named, shortMembers]
    rw [hnone]
    exact .leftOut

theorem form_usualSettings :
    Form settingsNames usualSettings "\x7b\"x\":[7],\"enabled\":true\x7d".toList :=
  .inl ⟨_, .cons gaps_nil (memberText_plain (by decide) _)
    (.cons gaps_nil gaps_nil (memberText_plain (by decide) _) (.nil gaps_nil)), rfl⟩

theorem variant_short_long : Relation.EqvGen Variant shortMembers longMembers := by
  have hmeans : SettingsMeans [] {} := ⟨List.forall_mem_nil _, .leftOut, .leftOut⟩
  have hform : Form settingsNames [] "\x7b\x7d".toList := .inl ⟨[], .nil gaps_nil, rfl⟩
  have hsettings : Relation.EqvGen SettingsChange [] usualSettings :=
    .trans _ _ _ (.rel _ _ (.written rfl (.inl ⟨rfl, rfl⟩)))
      (.rel _ _ (.inserted ⟨⟨_, rfl⟩, isValue_sevens⟩ (by decide)))
  have hnogm : named "gm" (⟨some "offset_file".toList, "null".toList⟩ :: shortMembers) = [] := by
    simp [named, shortMembers]
  have hfile : Change names UsualMember shortMembers
      (⟨some "offset_file".toList, "null".toList⟩ :: shortMembers) :=
    .written (by simp [named, shortMembers]) (.inl ⟨rfl, rfl⟩)
  have hgm : Change names UsualMember _ _ := .written hnogm (.inr ⟨rfl, _, hform, hmeans⟩)
  have hrespelt : ∀ ms, Variant (⟨some "gm".toList, "\x7b\x7d".toList⟩ :: ms)
      (⟨some "gm".toList, "\x7b\"x\":[7],\"enabled\":true\x7d".toList⟩ :: ms) :=
    fun _ => .settings hmeans hsettings hform form_usualSettings
  have hturned : Change names UsualMember longMembers.reverse longMembers :=
    .reordered (List.reverse_perm longMembers).symm
  exact .trans _ _ _ (.rel _ _ (.members hfile)) (.trans _ _ _ (.rel _ _ (.members hgm))
    (.trans _ _ _ (.rel _ _ (hrespelt _)) (.rel _ _ (.members hturned))))

theorem writes_short : Writes shortMembers "\x7b\"base_timestamp\":7\x7d" :=
  ⟨[], _, [], gaps_nil, gaps_nil,
    .inl ⟨_, .cons gaps_nil (memberText_plain (by decide) _) (.nil gaps_nil), rfl⟩, by decide⟩

theorem gaps_space : Gaps [' '] := List.forall_mem_singleton.mpr rfl

theorem writes_long : Writes longMembers "[7 ,null,\x7b\"x\":[7],\"enabled\":true\x7d]" :=
  ⟨[], _, [], gaps_nil, gaps_nil,
    .inr ⟨List.prefix_rfl, _, .cons gaps_nil rfl (.cons gaps_space gaps_nil rfl
      (.cons gaps_nil gaps_nil rfl (.nil gaps_nil))), rfl⟩, by decide⟩

def repeatedSettings : List Member :=
  [⟨some "enabled".toList, "true".toList⟩, ⟨some "enabled".toList, "[7]".toList⟩]

theorem repeats_setting :
    Repeats "\x7b\"gm\":\x7b\"enabled\":true,\"enabled\":[7]\x7d\x7d".toList := by
  have hinner : ObjectText repeatedSettings "\x7b\"enabled\":true,\"enabled\":[7]\x7d".toList :=
    ⟨_, .cons gaps_nil (memberText_plain (by decide) _)
      (.cons gaps_nil gaps_nil (memberText_plain (by decide) _) (.nil gaps_nil)), rfl⟩
  have hvalues : ∀ m ∈ repeatedSettings, IsValue m.value :=
    List.forall_mem_cons.mpr ⟨.flag true, List.forall_mem_singleton.mpr isValue_sevens⟩
  have houter : ObjectText [⟨some "gm".toList, "\x7b\"enabled\":true,\"enabled\":[7]\x7d".toList⟩]
      "\x7b\"gm\":\x7b\"enabled\":true,\"enabled\":[7]\x7d\x7d".toList :=
    ⟨_, .cons gaps_nil (memberText_plain (by decide) _) (.nil gaps_nil), rfl⟩
  exact .setting houter (List.forall_mem_singleton.mpr (.object hinner hvalues)) (by simp [named])
    ⟨hinner, hvalues, "enabled", by decide, by simp [named, repeatedSettings]⟩

theorem only_known_members_count_spellings :
    (ofText "\x7b\"base_timestamp\":7\x7d" = checked { anchorSecs := 7 } ∧
      ofText "[7 ,null,\x7b\"x\":[7],\"enabled\":true\x7d]" =
        ofText "\x7b\"base_timestamp\":7\x7d") ∧
    ∃ e, ofText " \x7b\"gm\":\x7b\"enabled\":true,\"enabled\":[7]\x7d\x7d;" =
      .error (.malformed e) :=
  have htext : " \x7b\"gm\":\x7b\"enabled\":true,\"enabled\":[7]\x7d\x7d;".toList =
      [' '] ++ ("\x7b\"gm\":\x7b\"enabled\":true,\"enabled\":[7]\x7d\x7d".toList ++ [';']) := by
    decide
  ⟨only_known_members_count.1 means_short variant_short_long writes_short writes_long,
    only_known_members_count.2 repeats_setting gaps_space htext⟩

end Config

end Rollover
