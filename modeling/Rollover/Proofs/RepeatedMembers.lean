/-
A known member that comes twice.

Such a document is refused, whatever else is in it: the values may be of the wrong kind,
and keys may spell nothing.  So nothing can be assumed of the document but that it is
spelt well, and the argument goes backwards.  Suppose that it were read.  Its values are
read to their ends, so the reader comes to each member with the key that the grammar
gives it, and each takes the draft a step further.  A member with a known name needs an
empty cell in the draft and leaves it full, and no member empties a cell.  So there is
no second.

An object of settings that is not read stops the reader wherever it is found, as a
member or in a list.
-/
import Rollover.Proofs.ConfigMeaning

namespace Rollover

namespace Config

open Document

/-! ### What a member does to the draft -/

section

variable {α β : Type} {r : Reader α} {g g' v rest rest' key : List Char}

/-- A member that is read had not come before. -/
theorem once_eq_ok {name : String} {old : Option α} {f : α → β} {b : β} (hr : r.Lenient)
    (hg : Gaps g) (hg' : Gaps g')
    (h : (once name old r >>= fun a => pure (f a)).run (g ++ ':' :: (g' ++ (v ++ rest))) =
      .ok (b, rest')) :
    old = none ∧ ∃ a, r.run (v ++ rest) = .ok (a, rest') ∧ b = f a := by
  obtain ⟨a, t, hrun, h⟩ := Reader.ok_of_run_bind h
  cases h
  cases old with
  | some _ => cases hrun
  | none =>
      replace hrun : (Reader.colon >>= fun _ => r).run (g ++ ':' :: (g' ++ (v ++ rest))) =
        .ok (a, rest') := hrun
      obtain ⟨_, u, hcolon, hrun⟩ := Reader.ok_of_run_bind hrun
      rw [Reader.run_colon hg] at hcolon
      cases hcolon
      rw [hr g' _ hg'] at hrun
      exact ⟨rfl, a, hrun, rfl⟩

theorem other_eq_ok {σ : Type} {d d' : σ} (hg : Gaps g) (hg' : Gaps g')
    (h : (do Reader.colon; Reader.ignored; return d : Reader σ).run
      (g ++ ':' :: (g' ++ (v ++ rest))) = .ok (d', rest')) :
    Reader.ignored.run (v ++ rest) = .ok ((), rest') ∧ d' = d := by
  obtain ⟨_, u, hcolon, h⟩ := Reader.ok_of_run_bind h
  rw [Reader.run_colon hg] at hcolon
  cases hcolon
  obtain ⟨_, u, hignored, h⟩ := Reader.ok_of_run_bind h
  rw [Reader.lenient_ignored g' _ hg'] at hignored
  cases h
  exact ⟨hignored, rfl⟩

theorem settingsMember_eq_ok {d d' : SettingsDraft} (hg : Gaps g) (hg' : Gaps g')
    (h : (settingsMember d key).run (g ++ ':' :: (g' ++ (v ++ rest))) = .ok (d', rest')) :
    (key = "enabled".toList ∧ d.enabled = none ∧
      ∃ b, readEnabled.run (v ++ rest) = .ok (b, rest') ∧ d' = { d with enabled := some b }) ∨
    (key = "utc_offset_secs".toList ∧ d.zoneSecs = none ∧
      ∃ n, readZoneSecs.run (v ++ rest) = .ok (n, rest') ∧ d' = { d with zoneSecs := some n }) ∨
    (key ≠ "enabled".toList ∧ key ≠ "utc_offset_secs".toList ∧
      Reader.ignored.run (v ++ rest) = .ok ((), rest') ∧ d' = d) := by
  unfold settingsMember at h
  split at h
  · rename_i hkey
    exact .inl ⟨hkey, once_eq_ok (Reader.lenient_flag _) hg hg' h⟩
  · rename_i hfirst
    split at h
    · rename_i hkey
      exact .inr (.inl ⟨hkey, once_eq_ok (Reader.lenient_whole _ _ _) hg hg' h⟩)
    · rename_i hsecond
      exact .inr (.inr ⟨hfirst, hsecond, other_eq_ok hg hg' h⟩)

theorem configMember_eq_ok {d d' : Draft} (hg : Gaps g) (hg' : Gaps g')
    (h : (configMember d key).run (g ++ ':' :: (g' ++ (v ++ rest))) = .ok (d', rest')) :
    (key = "base_timestamp".toList ∧ d.anchorSecs = none ∧
      ∃ n, readAnchorSecs.run (v ++ rest) = .ok (n, rest') ∧
        d' = { d with anchorSecs := some n }) ∨
    (key = "offset_file".toList ∧ d.offsetFile = none ∧
      ∃ o, readOffsetFile.run (v ++ rest) = .ok (o, rest') ∧
        d' = { d with offsetFile := some o }) ∨
    (key = "gm".toList ∧ d.gm = none ∧
      ∃ gm, readSettings.run (v ++ rest) = .ok (gm, rest') ∧ d' = { d with gm := some gm }) ∨
    (key ≠ "base_timestamp".toList ∧ key ≠ "offset_file".toList ∧ key ≠ "gm".toList ∧
      Reader.ignored.run (v ++ rest) = .ok ((), rest') ∧ d' = d) := by
  unfold configMember at h
  split at h
  · rename_i hkey
    exact .inl ⟨hkey, once_eq_ok (Reader.lenient_whole _ _ _) hg hg' h⟩
  rename_i hfirst
  split at h
  · rename_i hkey
    exact .inr (.inl ⟨hkey, once_eq_ok (Reader.lenient_optional _) hg hg' h⟩)
  rename_i hsecond
  split at h
  · rename_i hkey
    exact .inr (.inr (.inl ⟨hkey, once_eq_ok (lenient_objectOrList _ _ _) hg hg' h⟩))
  · rename_i hthird
    exact .inr (.inr (.inr ⟨hfirst, hsecond, hthird, other_eq_ok hg hg' h⟩))

end

/-! ### A cell is filled once -/

section

variable {σ α : Type} {R : σ → List Char → List Char → σ → Prop} {acc next final : σ}
  {ms : List Member} {name : String}

/-- A step fills an empty cell if the member has its name, and else leaves it alone. -/
def Fillable (cell : σ → Option α) (name : String) (R : σ → List Char → List Char → σ → Prop) :
    Prop :=
  ∀ {acc key v next}, R acc key v next →
    (key = name.toList ∧ cell acc = none ∧ (cell next).isSome) ∨
      (key ≠ name.toList ∧ cell next = cell acc)

/-- Members that fill a cell are one at most, and none if it was full. -/
theorem Fillable.length_named_le {cell : σ → Option α} (hcell : Fillable cell name R)
    (h : Reader.Chain R acc ms final) :
    (named name ms).length ≤ 1 ∧ ((cell acc).isSome → named name ms = []) := by
  induction h with
  | nil acc => exact ⟨Nat.zero_le 1, fun _ => rfl⟩
  | @cons acc next final key v ms head tail ih =>
      rcases hcell head with ⟨hkey, hempty, hfull⟩ | ⟨hkey, hsame⟩
      · rw [named_cons_self hkey, ih.2 hfull, hempty]
        exact ⟨Nat.le_refl 1, fun hacc => nomatch hacc⟩
      · rw [named_cons_of_ne hkey, ← hsame]
        exact ih

theorem exists_step_of_mem {m : Member} (h : Reader.Chain R acc ms final) (hm : m ∈ ms) :
    ∃ acc key next, m.name = some key ∧ R acc key m.value next := by
  induction h with
  | nil acc => cases hm
  | @cons acc next final key v ms head tail ih =>
      rcases List.mem_cons.mp hm with rfl | hm
      · exact ⟨acc, key, next, rfl, head⟩
      · exact ih hm

end

theorem fillable_enabled :
    Fillable SettingsDraft.enabled "enabled" (Reader.MayTake settingsMember) := by
  rintro d key v d' ⟨g, g', rest, hg, hg', -, hrun⟩
  rcases settingsMember_eq_ok hg hg' hrun with
    ⟨hkey, hd, b, -, rfl⟩ | ⟨rfl, -, n, -, rfl⟩ | ⟨hkey, -, -, rfl⟩
  · exact .inl ⟨hkey, hd, rfl⟩
  · exact .inr ⟨by decide, rfl⟩
  · exact .inr ⟨hkey, rfl⟩

theorem fillable_zoneSecs :
    Fillable SettingsDraft.zoneSecs "utc_offset_secs" (Reader.MayTake settingsMember) := by
  rintro d key v d' ⟨g, g', rest, hg, hg', -, hrun⟩
  rcases settingsMember_eq_ok hg hg' hrun with
    ⟨rfl, -, b, -, rfl⟩ | ⟨hkey, hd, n, -, rfl⟩ | ⟨-, hkey, -, rfl⟩
  · exact .inr ⟨by decide, rfl⟩
  · exact .inl ⟨hkey, hd, rfl⟩
  · exact .inr ⟨hkey, rfl⟩

theorem fillable_anchorSecs :
    Fillable Draft.anchorSecs "base_timestamp" (Reader.MayTake configMember) := by
  rintro d key v d' ⟨g, g', rest, hg, hg', -, hrun⟩
  rcases configMember_eq_ok hg hg' hrun with
    ⟨hkey, hd, n, -, rfl⟩ | ⟨rfl, -, o, -, rfl⟩ | ⟨rfl, -, gm, -, rfl⟩ | ⟨hkey, -, -, -, rfl⟩
  · exact .inl ⟨hkey, hd, rfl⟩
  · exact .inr ⟨by decide, rfl⟩
  · exact .inr ⟨by decide, rfl⟩
  · exact .inr ⟨hkey, rfl⟩

theorem fillable_offsetFile :
    Fillable Draft.offsetFile "offset_file" (Reader.MayTake configMember) := by
  rintro d key v d' ⟨g, g', rest, hg, hg', -, hrun⟩
  rcases configMember_eq_ok hg hg' hrun with
    ⟨rfl, -, n, -, rfl⟩ | ⟨hkey, hd, o, -, rfl⟩ | ⟨rfl, -, gm, -, rfl⟩ | ⟨-, hkey, -, -, rfl⟩
  · exact .inr ⟨by decide, rfl⟩
  · exact .inl ⟨hkey, hd, rfl⟩
  · exact .inr ⟨by decide, rfl⟩
  · exact .inr ⟨hkey, rfl⟩

theorem fillable_gm : Fillable Draft.gm "gm" (Reader.MayTake configMember) := by
  rintro d key v d' ⟨g, g', rest, hg, hg', -, hrun⟩
  rcases configMember_eq_ok hg hg' hrun with
    ⟨rfl, -, n, -, rfl⟩ | ⟨rfl, -, o, -, rfl⟩ | ⟨hkey, hd, gm, -, rfl⟩ | ⟨-, -, hkey, -, rfl⟩
  · exact .inr ⟨by decide, rfl⟩
  · exact .inr ⟨by decide, rfl⟩
  · exact .inl ⟨hkey, hd, rfl⟩
  · exact .inr ⟨hkey, rfl⟩

section

variable {ms : List Member} {name : String}

theorem length_named_settings {d d' : SettingsDraft} (hname : name ∈ settingsNames)
    (h : Reader.Chain (Reader.MayTake settingsMember) d ms d') :
    (named name ms).length ≤ 1 := by
  simp only [settingsNames, List.mem_cons, List.not_mem_nil, or_false] at hname
  rcases hname with rfl | rfl
  · exact (fillable_enabled.length_named_le h).1
  · exact (fillable_zoneSecs.length_named_le h).1

theorem length_named_config {d d' : Draft} (hname : name ∈ names)
    (h : Reader.Chain (Reader.MayTake configMember) d ms d') : (named name ms).length ≤ 1 := by
  simp only [names, List.mem_cons, List.not_mem_nil, or_false] at hname
  rcases hname with rfl | rfl | rfl
  · exact (fillable_anchorSecs.length_named_le h).1
  · exact (fillable_offsetFile.length_named_le h).1
  · exact (fillable_gm.length_named_le h).1

end

/-! ### Values are read to their ends -/

section

variable {v rest rest' : List Char}

theorem exact_enabled (hv : IsValue v) : readEnabled.Exact v := (Reader.passes_flag _).exact hv

theorem exact_zoneSecs (hv : IsValue v) : readZoneSecs.Exact v :=
  (Reader.passes_whole _ _ _).exact hv

theorem exact_anchorSecs (hv : IsValue v) : readAnchorSecs.Exact v :=
  (Reader.passes_whole _ _ _).exact hv

theorem exact_offsetFile (hv : IsValue v) : readOffsetFile.Exact v :=
  (Reader.passes_optional ((Reader.passes_quoted _).map _)).exact hv

/-- What is read as a list or an object starts like one. -/
theorem objectOrList_eq_ok {α : Type} {wanted : String} {list object : Reader α} {a : α}
    (hv : IsValue v) (h : (objectOrList wanted list object).run (v ++ rest) = .ok (a, rest')) :
    (∃ s, v = '[' :: s ∧ list.run (s ++ rest) = .ok (a, rest')) ∨
      ∃ s, v = '\x7b' :: s ∧ object.run (s ++ rest) = .ok (a, rest') := by
  obtain ⟨c, s, rfl, hc, -⟩ := hv.exists_cons
  have hgap : skipGaps (c :: s ++ rest) = c :: (s ++ rest) := skipGaps_cons hc _
  obtain ⟨o, t, hpeek, h⟩ := Reader.ok_of_run_bind h
  obtain ⟨rfl, rfl⟩ := Prod.mk.inj (Except.ok.inj hpeek)
  rw [hgap] at h
  split at h
  · rename_i heq
    cases heq
    exact .inl ⟨s, rfl, h⟩
  · rename_i heq
    cases heq
    exact .inr ⟨s, rfl, h⟩
  · exact (Reader.yields_refuse (P := fun _ => False) wanted _ _ _ h).elim
  · rename_i heq
    cases heq

theorem exactMember_settings (hv : IsValue v) : Reader.ExactMember settingsMember v := by
  intro d key g g' rest d' rest' hg hg' hrest h
  rcases settingsMember_eq_ok hg hg' h with
    ⟨-, -, b, hrun, -⟩ | ⟨-, -, n, hrun, -⟩ | ⟨-, -, hrun, -⟩
  · exact exact_enabled hv _ _ _ hrest hrun
  · exact exact_zoneSecs hv _ _ _ hrest hrun
  · exact Reader.passes_ignored.exact hv _ _ _ hrest hrun

variable {ms : List Member} {b : List Char}

theorem chain_of_run_settings {g : Settings} (hb : Items MemberText ms b)
    (hms : ∀ m ∈ ms, IsValue m.value)
    (h : (do return (← Reader.members settingsMember {}).finish : Reader Settings).run
      (b ++ '\x7d' :: rest) = .ok (g, rest')) :
    (∃ d, Reader.Chain (Reader.MayTake settingsMember) {} ms d) ∧ rest' = rest := by
  obtain ⟨d, t, hrun, h⟩ := Reader.ok_of_run_bind h
  cases h
  have hend := Reader.chain_of_run_members hb (fun m hm => exactMember_settings (hms m hm)) hrun
  exact ⟨⟨d, hend.1⟩, hend.2⟩

theorem exact_settingsList {vs : List (List Char)} {g : Settings} (hb : Items (· = ·) vs b)
    (hvs : ∀ v ∈ vs, IsValue v) (h : settingsList.run (b ++ ']' :: rest) = .ok (g, rest')) :
    rest' = rest := by
  have hexact : ∀ v ∈ vs, IsValue v ∧ readEnabled.Exact v := fun v hv =>
    ⟨hvs v hv, exact_enabled (hvs v hv)⟩
  have hexact' : ∀ v ∈ vs.tail, IsValue v ∧ readZoneSecs.Exact v := fun v hv =>
    ⟨hvs v (List.mem_of_mem_tail hv), exact_zoneSecs (hvs v (List.mem_of_mem_tail hv))⟩
  obtain ⟨_, _, hfirst, h⟩ := Reader.ok_of_run_bind h
  obtain ⟨⟨t, ht, rfl⟩, -⟩ := Reader.item_first_eq_ok hb hexact hfirst
  obtain ⟨_, _, hnext, h⟩ := Reader.ok_of_run_bind h
  obtain ⟨⟨t', ht', rfl⟩, -⟩ := Reader.item_next_eq_ok ht hexact' hnext
  obtain ⟨_, _, hend, h⟩ := Reader.ok_of_run_bind h
  cases h
  exact (Reader.endOfItems_eq_ok ht' hend).2

theorem exact_settings (hv : IsValue v) : readSettings.Exact v := by
  intro rest g rest' _ h
  rcases objectOrList_eq_ok hv h with ⟨s, rfl, hrun⟩ | ⟨s, rfl, hrun⟩
  · obtain ⟨vs, ⟨b, hb, hs⟩, hvs⟩ := hv.listText
    cases hs
    rw [List.append_assoc] at hrun
    exact exact_settingsList hb hvs hrun
  · obtain ⟨ms, ⟨b, hb, hs⟩, hms⟩ := hv.objectText
    cases hs
    rw [List.append_assoc] at hrun
    exact (chain_of_run_settings hb hms hrun).2

theorem exactMember_config (hv : IsValue v) : Reader.ExactMember configMember v := by
  intro d key g g' rest d' rest' hg hg' hrest h
  rcases configMember_eq_ok hg hg' h with
    ⟨-, -, n, hrun, -⟩ | ⟨-, -, o, hrun, -⟩ | ⟨-, -, gm, hrun, -⟩ | ⟨-, -, -, hrun, -⟩
  · exact exact_anchorSecs hv _ _ _ hrest hrun
  · exact exact_offsetFile hv _ _ _ hrest hrun
  · exact exact_settings hv _ _ _ hrest hrun
  · exact Reader.passes_ignored.exact hv _ _ _ hrest hrun

end

/-! ### A second member -/

/-- An object of settings, one of whose known members comes twice. -/
structure RepeatsSetting (gs : List Member) (u : List Char) : Prop where
  text : ObjectText gs u
  values : ∀ m ∈ gs, IsValue m.value
  twice : ∃ name ∈ settingsNames, 1 < (named name gs).length

/-- An object that is a configuration with a known member that comes twice, or either form of
one whose settings are such an object. -/
inductive Repeats : List Char → Prop
  | member {ms : List Member} {t : List Char} {name : String} (ht : ObjectText ms t)
      (hms : ∀ m ∈ ms, IsValue m.value) (hname : name ∈ names) (h : 1 < (named name ms).length) :
      Repeats t
  | setting {ms gs : List Member} {t u : List Char} (ht : ObjectText ms t)
      (hms : ∀ m ∈ ms, IsValue m.value) (hu : u ∈ named "gm" ms) (h : RepeatsSetting gs u) :
      Repeats t
  | listedSetting {vs : List (List Char)} {gs : List Member} {t u : List Char} (ht : ListText vs t)
      (hvs : ∀ v ∈ vs, IsValue v) (hu : vs[2]? = some u) (h : RepeatsSetting gs u) : Repeats t

section

variable {ms gs : List Member} {t u rest rest' : List Char} {c : Config} {g : Settings} {d : Draft}

theorem RepeatsSetting.run_ne (h : RepeatsSetting gs u) :
    readSettings.run (u ++ rest) ≠ .ok (g, rest') := by
  intro hrun
  obtain ⟨⟨b, hb, rfl⟩, hgs, name, hname, htwice⟩ := h
  replace hrun : (do return (← Reader.members settingsMember {}).finish : Reader Settings).run
      (b ++ ['\x7d'] ++ rest) = .ok (g, rest') := hrun
  rw [List.append_assoc] at hrun
  obtain ⟨⟨d, hchain⟩, -⟩ := chain_of_run_settings hb hgs hrun
  exact absurd (length_named_settings hname hchain) (by omega)

theorem chain_of_run_config (ht : ObjectText ms t) (hms : ∀ m ∈ ms, IsValue m.value)
    (h : reader.run (t ++ rest) = .ok (c, rest')) :
    ∃ d, Reader.Chain (Reader.MayTake configMember) {} ms d := by
  obtain ⟨b, hb, rfl⟩ := ht
  replace h : (Reader.members configMember {} >>= fun d => d.finish (.missing "base_timestamp")).run
      (b ++ ['\x7d'] ++ rest) = .ok (c, rest') := h
  rw [List.append_assoc] at h
  obtain ⟨d, u, hrun, -⟩ := Reader.ok_of_run_bind h
  exact ⟨d, (Reader.chain_of_run_members hb (fun m hm => exactMember_config (hms m hm)) hrun).1⟩

theorem mem_of_mem_named {name : String} {v : List Char} (h : v ∈ named name ms) :
    ⟨some name.toList, v⟩ ∈ ms := by
  obtain ⟨m, hm, rfl⟩ := List.mem_map.mp h
  obtain ⟨hm, hname⟩ := List.mem_filter.mp hm
  obtain ⟨n, v⟩ := m
  cases of_decide_eq_true hname
  exact hm

/-- The settings of an object are read if the object is. -/
theorem exists_run_settings (hu : u ∈ named "gm" ms)
    (h : Reader.Chain (Reader.MayTake configMember) {} ms d) :
    ∃ rest g rest', readSettings.run (u ++ rest) = .ok (g, rest') := by
  obtain ⟨acc, key, next, hkey, g, g', rest, hg, hg', -, hrun⟩ :=
    exists_step_of_mem h (mem_of_mem_named hu)
  cases hkey
  rcases configMember_eq_ok hg hg' hrun with
    ⟨hkey, -⟩ | ⟨hkey, -⟩ | ⟨-, -, gm, hrun, -⟩ | ⟨-, -, hkey, -⟩
  · exact absurd hkey (by decide)
  · exact absurd hkey (by decide)
  · exact ⟨rest, gm, rest, hrun⟩
  · exact absurd rfl hkey

/-- So are those of a list. -/
theorem exists_run_listedSettings {vs : List (List Char)} (ht : ListText vs t)
    (hvs : ∀ v ∈ vs, IsValue v) (hu : vs[2]? = some u)
    (h : reader.run (t ++ rest) = .ok (c, rest')) :
    ∃ rest g rest', readSettings.run (u ++ rest) = .ok (g, rest') := by
  obtain ⟨b, hb, rfl⟩ := ht
  replace h : configList.run (b ++ [']'] ++ rest) = .ok (c, rest') := h
  rw [List.append_assoc] at h
  obtain ⟨o, _, hfirst, h⟩ := Reader.ok_of_run_bind h
  obtain ⟨⟨s, hs, rfl⟩, -⟩ := Reader.item_first_eq_ok hb
    (fun v hv => ⟨hvs v hv, exact_anchorSecs (hvs v hv)⟩) hfirst
  cases o with
  | none => cases h
  | some anchorSecs =>
      have htail : ∀ v ∈ vs.tail, IsValue v := fun v hv => hvs v (List.mem_of_mem_tail hv)
      have htail' : ∀ v ∈ vs.tail.tail, IsValue v := fun v hv => htail v (List.mem_of_mem_tail hv)
      obtain ⟨_, _, hnext, h⟩ := Reader.ok_of_run_bind h
      obtain ⟨⟨s', hs', rfl⟩, -⟩ := Reader.item_next_eq_ok hs
        (fun v hv => ⟨htail v hv, exact_offsetFile (htail v hv)⟩) hnext
      obtain ⟨_, _, hlast, -⟩ := Reader.ok_of_run_bind h
      obtain ⟨-, hread⟩ := Reader.item_next_eq_ok hs'
        (fun v hv => ⟨htail' v hv, exact_settings (htail' v hv)⟩) hlast
      have hhead : vs.tail.tail.head? = some u := by
        rw [List.head?_eq_getElem?, List.getElem?_tail, List.getElem?_tail, hu]
      obtain ⟨g, hg⟩ := hread u hhead
      exact ⟨_, g, _, hg⟩

theorem Repeats.run_ne (h : Repeats t) : reader.run (t ++ rest) ≠ .ok (c, rest') := by
  intro hrun
  cases h with
  | member ht hms hname htwice =>
      obtain ⟨d, hchain⟩ := chain_of_run_config ht hms hrun
      exact absurd (length_named_config hname hchain) (by omega)
  | setting ht hms hu h =>
      obtain ⟨d, hchain⟩ := chain_of_run_config ht hms hrun
      obtain ⟨_, _, _, hread⟩ := exists_run_settings hu hchain
      exact h.run_ne hread
  | listedSetting ht hvs hu h =>
      obtain ⟨_, _, _, hread⟩ := exists_run_listedSettings ht hvs hu hrun
      exact h.run_ne hread

end

/-- **A text with a known member that comes twice is malformed**, whatever follows it. -/
theorem ofText_of_repeats {g t more : List Char} {text : String} (h : Repeats t) (hg : Gaps g)
    (htext : text.toList = g ++ (t ++ more)) : ∃ e, ofText text = .error (.malformed e) := by
  have hrun : reader.run text.toList = reader.run (t ++ more) := by
    rw [htext]
    exact lenient_objectOrList _ _ _ g _ hg
  cases hread : Reader.read reader text.toList with
  | error e =>
      refine ⟨e, ?_⟩
      rw [ofText, hread]
  | ok c =>
      obtain ⟨⟨c', rest⟩, hok, -⟩ := ok_of_bind hread
      rw [hrun] at hok
      exact absurd hok h.run_ne

end Config

end Rollover
