/-
What a configuration document means.

Two documents can look quite different and say the same.  What counts of an object are
the values of the members that have a known name (`named`): none, and then the usual
value stands, or one (`Said`).  So the meaning of a document is stated over its members
and not over its text, and `Means` does not change when the members change places or
others come in between.  A list is the same members without their keys, from the first
one on.

The readers arrive at it through a draft, which has one cell for each known name.  A
cell is filled once, by the member of its name, wherever that stands (`Fills`).  This is
the invariant that leads from member to member; it looks at the members that are left
and at what the draft has already, so that the order never enters.
-/
import Rollover.Config.Reader
import Rollover.Config.Writer
import Rollover.Proofs.ListsAndObjects

namespace Rollover

namespace Config

open Document

/-! ### Members and their meaning -/

/-- The values of the members with a name, in order. -/
def named (name : String) (ms : List Member) : List (List Char) :=
  (ms.filter (·.name = some name.toList)).map (·.value)

theorem named_cons_self {name : String} {key : List Char} (h : key = name.toList) (v : List Char)
    (ms : List Member) : named name (⟨some key, v⟩ :: ms) = v :: named name ms := by
  simp [named, h]

theorem named_cons_of_ne {name : String} {key : List Char} (h : key ≠ name.toList) (v : List Char)
    (ms : List Member) : named name (⟨some key, v⟩ :: ms) = named name ms := by
  simp [named, h]

/-- The member has a name, and a value of any kind. -/
structure WellFormed (m : Member) : Prop where
  named : ∃ key, m.name = some key
  value : IsValue m.value

/-- A member that may be left out.  Its usual value stands for it then, and else what its one
value says. -/
inductive Said {α : Type} (T : α → List Char → Prop) (usual : α) : List (List Char) → α → Prop
  | leftOut : Said T usual [] usual
  | once {a : α} {v : List Char} (h : T a v) : Said T usual [v] a

def FlagText (b : Bool) (v : List Char) : Prop := v = flagText b

def AnchorText (n : Int) (v : List Char) : Prop := Word.Fits n ∧ v = Digits.ofInt n

def ZoneText (n : Int) (v : List Char) : Prop :=
  -2147483648 ≤ n ∧ n ≤ 2147483647 ∧ v = Digits.ofInt n

inductive PathText : Option String → List Char → Prop
  | none : PathText none "null".toList
  | some {path : String} {k : List Char} (h : Spells path.toList k) :
      PathText (some path) (quotedText k)

/-- The members, written as an object in any order, or as the list of their values in the usual
order and shortened at the end. -/
def Form (order : List String) (ms : List Member) (t : List Char) : Prop :=
  ObjectText ms t ∨
    ms.map (·.name) <+: order.map (fun name => some name.toList) ∧ ListText (ms.map (·.value)) t

def settingsNames : List String := ["enabled", "utc_offset_secs"]

def names : List String := ["base_timestamp", "offset_file", "gm"]

/-- What the members of the game master settings mean. -/
structure SettingsMeans (ms : List Member) (g : Settings) : Prop where
  wellFormed : ∀ m ∈ ms, WellFormed m
  enabled : Said FlagText true (named "enabled" ms) g.enabled
  zoneSecs : Said ZoneText 0 (named "utc_offset_secs" ms) g.zoneSecs

def SettingsText (g : Settings) (t : List Char) : Prop :=
  ∃ ms, Form settingsNames ms t ∧ SettingsMeans ms g

/-- What the members of a configuration mean.  Only the anchor has to be there. -/
structure Means (ms : List Member) (c : Config) : Prop where
  wellFormed : ∀ m ∈ ms, WellFormed m
  anchor : ∃ v, named "base_timestamp" ms = [v] ∧ AnchorText c.anchorSecs v
  offsetFile : Said PathText none (named "offset_file" ms) c.offsetFile
  gm : Said SettingsText {} (named "gm" ms) c.gm

/-- A text with these members in it, and gaps around. -/
def Writes (ms : List Member) (text : String) : Prop :=
  ∃ g t g', Gaps g ∧ Gaps g' ∧ Form names ms t ∧ text.toList = g ++ (t ++ g')

/-! ### Values -/

theorem reads_enabled {b : Bool} {v : List Char} (h : FlagText b v) : readEnabled.Reads v b := by
  rw [h]
  exact Reader.reads_flag b "a boolean"

theorem reads_zoneSecs {n : Int} {v : List Char} (h : ZoneText n v) : readZoneSecs.Reads v n := by
  obtain ⟨hlo, hhi, rfl⟩ := h
  have hcell : Word.Fits n := by
    unfold Word.Fits Word.least Word.greatest
    omega
  exact Reader.reads_whole "i32" hcell hlo hhi

theorem reads_anchorSecs {n : Int} {v : List Char} (h : AnchorText n v) :
    readAnchorSecs.Reads v n := by
  obtain ⟨hcell, rfl⟩ := h
  exact Reader.reads_whole "i64" hcell hcell.1 hcell.2

theorem reads_offsetFile {o : Option String} {v : List Char} (h : PathText o v) :
    readOffsetFile.Reads v o := by
  cases h with
  | none => exact Reader.reads_optional_null _
  | some h =>
      have hpath := (Reader.reads_quoted h "path string").map String.ofList
      rw [String.ofList_toList] at hpath
      exact Reader.reads_optional_text hpath

section

variable {α β : Type} {r : Reader α} {a : α} {v g g' rest rest' : List Char}

/-- A member that has not come yet takes its value, whatever gaps are around the colon. -/
theorem run_once (name : String) (hr : r.Lenient) (h : r.Reads v a) (hg : Gaps g) (hg' : Gaps g')
    (hrest : Over rest) (f : α → β) :
    (once name none r >>= fun a => pure (f a)).run (g ++ ':' :: (g' ++ (v ++ rest))) =
      .ok (f a, rest) := by
  have hrun : (once name none r).run (g ++ ':' :: (g' ++ (v ++ rest))) = .ok (a, rest) := by
    show (Reader.colon >>= fun _ => r).run _ = _
    rw [Reader.run_bind, Reader.run_colon hg]
    exact (hr g' _ hg').trans (h rest hrest)
  rw [Reader.run_bind, hrun]
  rfl

theorem lenient_objectOrList (wanted : String) (list object : Reader α) :
    (objectOrList wanted list object).Lenient :=
  Reader.lenient_peek _

end

/-! ### Cells of a draft -/

/-- A cell is left as it is if no member has its name, and filled by one if it was empty. -/
inductive Fills {α : Type} (r : Reader α) : List (List Char) → Option α → Option α → Prop
  | kept (old : Option α) : Fills r [] old old
  | filled {a : α} {v : List Char} (h : r.Reads v a) : Fills r [v] none (some a)

theorem Fills.exists_of_cons {α : Type} {r : Reader α} {v : List Char} {vs : List (List Char)}
    {old new : Option α} (h : Fills r (v :: vs) old new) :
    ∃ a, r.Reads v a ∧ old = none ∧ Fills r vs (some a) new := by
  cases h with
  | @filled a _ h => exact ⟨a, h, rfl, .kept (some a)⟩

/-- What is said of a member is what is in its cell at the end, or the usual value. -/
theorem Said.exists_fills {α : Type} {T : α → List Char → Prop} {usual a : α}
    {vs : List (List Char)} {r : Reader α} (h : Said T usual vs a)
    (hread : ∀ {a v}, T a v → r.Reads v a) : ∃ o, Fills r vs none o ∧ o.getD usual = a := by
  cases h with
  | leftOut => exact ⟨none, .kept none, rfl⟩
  | once h => exact ⟨some a, .filled (hread h), rfl⟩

section

variable {key v g g' rest : List Char} {σ : Type} {ms : List Member}

/-- A member with another name is passed over. -/
theorem run_other (hv : IsValue v) (d : σ) (hg : Gaps g) (hg' : Gaps g') (hrest : Over rest) :
    (do Reader.colon; Reader.ignored; return d : Reader σ).run
      (g ++ ':' :: (g' ++ (v ++ rest))) = .ok (d, rest) := by
  rw [Reader.run_bind, Reader.run_colon hg]
  show (Reader.ignored >>= fun _ => pure d).run _ = _
  rw [Reader.run_bind, Reader.lenient_ignored g' _ hg', Reader.reads_ignored hv rest hrest]
  rfl

/-! ### The game master settings -/

theorem takes_settings_enabled {d : SettingsDraft} {b : Bool} (hd : d.enabled = none)
    (h : readEnabled.Reads v b) :
    Reader.Takes settingsMember d "enabled".toList v { d with enabled := some b } := by
  intro g g' rest hg hg' hrest
  rw [settingsMember, if_pos rfl, hd]
  exact run_once "enabled" (Reader.lenient_flag _) h hg hg' hrest _

theorem takes_settings_zoneSecs {d : SettingsDraft} {n : Int} (hd : d.zoneSecs = none)
    (h : readZoneSecs.Reads v n) :
    Reader.Takes settingsMember d "utc_offset_secs".toList v { d with zoneSecs := some n } := by
  intro g g' rest hg hg' hrest
  rw [settingsMember, if_neg (by decide), if_pos rfl, hd]
  exact run_once "utc_offset_secs" (Reader.lenient_whole _ _ _) h hg hg' hrest _

theorem takes_settings_other (d : SettingsDraft) (henabled : key ≠ "enabled".toList)
    (hzone : key ≠ "utc_offset_secs".toList) (hv : IsValue v) :
    Reader.Takes settingsMember d key v d := by
  intro g g' rest hg hg' hrest
  rw [settingsMember, if_neg henabled, if_neg hzone]
  exact run_other hv d hg hg' hrest

/-- The induction is over the members that are left, in whatever order they come. -/
theorem chain_settings {d d' : SettingsDraft} (hms : ∀ m ∈ ms, WellFormed m)
    (henabled : Fills readEnabled (named "enabled" ms) d.enabled d'.enabled)
    (hzone : Fills readZoneSecs (named "utc_offset_secs" ms) d.zoneSecs d'.zoneSecs) :
    Reader.Chain (Reader.Takes settingsMember) d ms d' := by
  induction ms generalizing d with
  | nil =>
      obtain ⟨e, z⟩ := d
      obtain ⟨e', z'⟩ := d'
      cases henabled
      cases hzone
      exact .nil _
  | cons m ms ih =>
      obtain ⟨⟨key, hkey⟩, hv⟩ := hms m List.mem_cons_self
      obtain ⟨name, v⟩ := m
      cases hkey
      have hrest : ∀ m ∈ ms, WellFormed m := fun m hm => hms m (List.mem_cons_of_mem _ hm)
      by_cases hfirst : key = "enabled".toList
      · have hne : key ≠ "utc_offset_secs".toList := by rw [hfirst]; decide
        rw [named_cons_self hfirst] at henabled
        rw [named_cons_of_ne hne] at hzone
        obtain ⟨b, hread, hempty, hfills⟩ := henabled.exists_of_cons
        rw [hfirst]
        exact .cons (takes_settings_enabled hempty hread) (ih hrest hfills hzone)
      rw [named_cons_of_ne hfirst] at henabled
      by_cases hsecond : key = "utc_offset_secs".toList
      · rw [named_cons_self hsecond] at hzone
        obtain ⟨n, hread, hempty, hfills⟩ := hzone.exists_of_cons
        rw [hsecond]
        exact .cons (takes_settings_zoneSecs hempty hread) (ih hrest henabled hfills)
      rw [named_cons_of_ne hsecond] at hzone
      exact .cons (takes_settings_other d hfirst hsecond hv) (ih hrest henabled hzone)

/-- The settings as an object. -/
theorem run_settingsMembers {b : List Char} {g : Settings} (hb : Items MemberText ms b)
    (h : SettingsMeans ms g) :
    (do return (← Reader.members settingsMember {}).finish : Reader Settings).run
      (b ++ '\x7d' :: rest) = .ok (g, rest) := by
  obtain ⟨e, henabled, he⟩ := h.enabled.exists_fills reads_enabled
  obtain ⟨z, hzone, hz⟩ := h.zoneSecs.exists_fills reads_zoneSecs
  have hchain : Reader.Chain (Reader.Takes settingsMember) {} ms ⟨e, z⟩ :=
    chain_settings h.wellFormed henabled hzone
  show (Reader.members settingsMember {} >>= fun d => pure d.finish).run _ = _
  rw [Reader.run_bind, hchain.run_members hb]
  show Except.ok (SettingsDraft.finish ⟨e, z⟩, rest) = _
  rw [SettingsDraft.finish, he, hz]

/-- In a list the place tells the name. -/
theorem named_of_order {order : List String} (hnodup : order.Nodup)
    (h : ms.map (·.name) <+: order.map (fun name => some name.toList)) {i : Nat} {name : String}
    (hi : order[i]? = some name) : named name ms = ((ms.map (·.value)).drop i).take 1 := by
  induction order generalizing ms i with
  | nil => cases hi
  | cons first order ih =>
      obtain ⟨hfirst, hnodup⟩ := List.nodup_cons.mp hnodup
      cases ms with
      | nil => simp [named]
      | cons m ms =>
          obtain ⟨mname, v⟩ := m
          simp only [List.map_cons, List.cons_prefix_cons] at h
          obtain ⟨rfl, h⟩ := h
          cases i with
          | zero =>
              obtain rfl : first = name := Option.some.inj hi
              have hnone : named first ms = [] := by
                rw [named, List.map_eq_nil_iff, List.filter_eq_nil_iff]
                intro m hm hname
                obtain ⟨n, hn, heq⟩ := List.mem_map.mp (h.subset (List.mem_map_of_mem hm))
                rw [← heq, decide_eq_true_eq, Option.some.injEq, String.toList_inj] at hname
                exact hfirst (hname ▸ hn)
              rw [named_cons_self rfl, hnone]
              rfl
          | succ i =>
              have hmem : name ∈ order := List.mem_of_getElem? hi
              have hne : first.toList ≠ name.toList := fun heq =>
                hfirst (String.toList_inj.mp heq ▸ hmem)
              rw [named_cons_of_ne hne]
              exact ih hnodup h hi

theorem slot_of_take {α : Type} {r : Reader α} {vs : List (List Char)} {a : α}
    (hvs : ∀ v ∈ vs, IsValue v) (h : vs.take 1 = [v]) (hread : r.Reads v a) :
    Reader.Slot r vs (some a) (vs.drop 1) := by
  cases vs with
  | nil => cases h
  | cons w vs =>
      rw [List.take_succ_cons, List.take_zero] at h
      cases h
      exact .filled (hvs v List.mem_cons_self) hread

/-- Where a list goes on, the next item is what is said of its member. -/
theorem Said.exists_slot {α : Type} {T : α → List Char → Prop} {usual a : α}
    {vs : List (List Char)} {r : Reader α} (h : Said T usual (vs.take 1) a)
    (hvs : ∀ v ∈ vs, IsValue v) (hread : ∀ {a v}, T a v → r.Reads v a) :
    ∃ o, Reader.Slot r vs o (vs.drop 1) ∧ o.getD usual = a := by
  generalize hfirst : vs.take 1 = firsts at h
  cases h with
  | leftOut =>
      cases vs with
      | nil => exact ⟨none, .empty, rfl⟩
      | cons v vs => cases hfirst
  | once h => exact ⟨some a, slot_of_take hvs hfirst (hread h), rfl⟩

theorem run_settingsList {b : List Char} {g : Settings}
    (hb : Items (· = ·) (ms.map (·.value)) b)
    (horder : ms.map (·.name) <+: settingsNames.map (fun name => some name.toList))
    (h : SettingsMeans ms g) : settingsList.run (b ++ ']' :: rest) = .ok (g, rest) := by
  have hvs : ∀ v ∈ ms.map (·.value), IsValue v := by
    intro v hv
    obtain ⟨m, hm, rfl⟩ := List.mem_map.mp hv
    exact (h.wellFormed m hm).value
  have hnodup : settingsNames.Nodup := by decide
  have henabled := h.enabled
  have hzone := h.zoneSecs
  rw [named_of_order hnodup horder (i := 0) rfl] at henabled
  rw [named_of_order hnodup horder (i := 1) rfl] at hzone
  obtain ⟨e, hslot, he⟩ := henabled.exists_slot hvs reads_enabled
  obtain ⟨z, hslot', hz⟩ := hzone.exists_slot (fun v hv => hvs v (List.mem_of_mem_drop hv))
    reads_zoneSecs
  obtain ⟨t, ht, hfirst⟩ := hslot.run_first hb
  obtain ⟨t', ht', hnext⟩ := hslot'.run_next ht
  have hlen : (ms.map (·.value)).length ≤ 2 := by
    have := horder.length_le
    simpa [settingsNames] using this
  rw [List.drop_drop, List.drop_eq_nil_of_le hlen] at ht'
  obtain ⟨hg⟩ := ht'
  rw [settingsList, Reader.run_bind, hfirst]
  show (Reader.item false readZoneSecs >>= _).run _ = _
  rw [Reader.run_bind, hnext]
  show (Reader.endOfItems >>= _).run _ = _
  rw [Reader.run_bind, Reader.endOfItems_close hg]
  show Except.ok (SettingsDraft.finish ⟨e, z⟩, rest) = _
  rw [SettingsDraft.finish, he, hz]

theorem reads_settings {g : Settings} {t : List Char} (h : SettingsText g t) :
    readSettings.Reads t g := by
  obtain ⟨ms, ⟨b, hb, rfl⟩ | ⟨horder, b, hb, rfl⟩, hg⟩ := h
  · intro rest _
    show (do return (← Reader.members settingsMember {}).finish : Reader Settings).run
      (b ++ ['\x7d'] ++ rest) = _
    rw [List.append_assoc]
    exact run_settingsMembers hb hg
  · intro rest _
    show settingsList.run (b ++ [']'] ++ rest) = _
    rw [List.append_assoc]
    exact run_settingsList hb horder hg

/-! ### The whole configuration -/

theorem takes_anchorSecs {d : Draft} {n : Int} (hd : d.anchorSecs = none)
    (h : readAnchorSecs.Reads v n) :
    Reader.Takes configMember d "base_timestamp".toList v { d with anchorSecs := some n } := by
  intro g g' rest hg hg' hrest
  rw [configMember, if_pos rfl, hd]
  exact run_once "base_timestamp" (Reader.lenient_whole _ _ _) h hg hg' hrest _

theorem takes_offsetFile {d : Draft} {o : Option String} (hd : d.offsetFile = none)
    (h : readOffsetFile.Reads v o) :
    Reader.Takes configMember d "offset_file".toList v { d with offsetFile := some o } := by
  intro g g' rest hg hg' hrest
  rw [configMember, if_neg (by decide), if_pos rfl, hd]
  exact run_once "offset_file" (Reader.lenient_optional _) h hg hg' hrest _

theorem takes_gm {d : Draft} {gm : Settings} (hd : d.gm = none) (h : readSettings.Reads v gm) :
    Reader.Takes configMember d "gm".toList v { d with gm := some gm } := by
  intro g g' rest hg hg' hrest
  rw [configMember, if_neg (by decide), if_neg (by decide), if_pos rfl, hd]
  exact run_once "gm" (lenient_objectOrList _ _ _) h hg hg' hrest _

theorem takes_other (d : Draft) (hanchor : key ≠ "base_timestamp".toList)
    (hfile : key ≠ "offset_file".toList) (hgm : key ≠ "gm".toList) (hv : IsValue v) :
    Reader.Takes configMember d key v d := by
  intro g g' rest hg hg' hrest
  rw [configMember, if_neg hanchor, if_neg hfile, if_neg hgm]
  exact run_other hv d hg hg' hrest

theorem chain_config {d d' : Draft} (hms : ∀ m ∈ ms, WellFormed m)
    (hanchor : Fills readAnchorSecs (named "base_timestamp" ms) d.anchorSecs d'.anchorSecs)
    (hfile : Fills readOffsetFile (named "offset_file" ms) d.offsetFile d'.offsetFile)
    (hgm : Fills readSettings (named "gm" ms) d.gm d'.gm) :
    Reader.Chain (Reader.Takes configMember) d ms d' := by
  induction ms generalizing d with
  | nil =>
      obtain ⟨a, o, g⟩ := d
      obtain ⟨a', o', g'⟩ := d'
      cases hanchor
      cases hfile
      cases hgm
      exact .nil _
  | cons m ms ih =>
      obtain ⟨⟨key, hkey⟩, hv⟩ := hms m List.mem_cons_self
      obtain ⟨name, v⟩ := m
      cases hkey
      have hrest : ∀ m ∈ ms, WellFormed m := fun m hm => hms m (List.mem_cons_of_mem _ hm)
      by_cases hfirst : key = "base_timestamp".toList
      · have hne : key ≠ "offset_file".toList ∧ key ≠ "gm".toList := by rw [hfirst]; decide
        rw [named_cons_self hfirst] at hanchor
        rw [named_cons_of_ne hne.1] at hfile
        rw [named_cons_of_ne hne.2] at hgm
        obtain ⟨n, hread, hempty, hfills⟩ := hanchor.exists_of_cons
        rw [hfirst]
        exact .cons (takes_anchorSecs hempty hread) (ih hrest hfills hfile hgm)
      rw [named_cons_of_ne hfirst] at hanchor
      by_cases hsecond : key = "offset_file".toList
      · have hne : key ≠ "gm".toList := by rw [hsecond]; decide
        rw [named_cons_self hsecond] at hfile
        rw [named_cons_of_ne hne] at hgm
        obtain ⟨o, hread, hempty, hfills⟩ := hfile.exists_of_cons
        rw [hsecond]
        exact .cons (takes_offsetFile hempty hread) (ih hrest hanchor hfills hgm)
      rw [named_cons_of_ne hsecond] at hfile
      by_cases hthird : key = "gm".toList
      · rw [named_cons_self hthird] at hgm
        obtain ⟨gm, hread, hempty, hfills⟩ := hgm.exists_of_cons
        rw [hthird]
        exact .cons (takes_gm hempty hread) (ih hrest hanchor hfile hfills)
      rw [named_cons_of_ne hthird] at hgm
      exact .cons (takes_other d hfirst hsecond hthird hv) (ih hrest hanchor hfile hgm)

variable {c : Config}

theorem run_configMembers {b : List Char} (hb : Items MemberText ms b) (h : Means ms c) :
    (Reader.members configMember {} >>= fun d => d.finish (.missing "base_timestamp")).run
      (b ++ '\x7d' :: rest) = .ok (c, rest) := by
  obtain ⟨v, hnamed, hv⟩ := h.anchor
  have hanchor : Fills readAnchorSecs (named "base_timestamp" ms) none (some c.anchorSecs) := by
    rw [hnamed]
    exact .filled (reads_anchorSecs hv)
  obtain ⟨o, hfile, ho⟩ := h.offsetFile.exists_fills reads_offsetFile
  obtain ⟨gm, hgm, hg⟩ := h.gm.exists_fills reads_settings
  have hchain : Reader.Chain (Reader.Takes configMember) {} ms ⟨some c.anchorSecs, o, gm⟩ :=
    chain_config h.wellFormed hanchor hfile hgm
  rw [Reader.run_bind, hchain.run_members hb]
  show Except.ok (Config.mk c.anchorSecs (o.getD none) (gm.getD {}), rest) = _
  rw [ho, hg]

theorem run_configList {b : List Char} (hb : Items (· = ·) (ms.map (·.value)) b)
    (horder : ms.map (·.name) <+: names.map (fun name => some name.toList)) (h : Means ms c) :
    configList.run (b ++ ']' :: rest) = .ok (c, rest) := by
  have hvs : ∀ v ∈ ms.map (·.value), IsValue v := by
    intro v hv
    obtain ⟨m, hm, rfl⟩ := List.mem_map.mp hv
    exact (h.wellFormed m hm).value
  have hnodup : names.Nodup := by decide
  obtain ⟨v, hanchor, hv⟩ := h.anchor
  have hfile := h.offsetFile
  have hgm := h.gm
  rw [named_of_order hnodup horder (i := 0) rfl, List.drop_zero] at hanchor
  rw [named_of_order hnodup horder (i := 1) rfl] at hfile
  rw [named_of_order hnodup horder (i := 2) rfl] at hgm
  obtain ⟨o, hslot', ho⟩ := hfile.exists_slot (fun v hv => hvs v (List.mem_of_mem_drop hv))
    reads_offsetFile
  obtain ⟨gm, hslot'', hg⟩ := hgm.exists_slot (fun v hv => hvs v (List.mem_of_mem_drop hv))
    reads_settings
  have hslot := slot_of_take hvs hanchor (reads_anchorSecs hv)
  obtain ⟨t, ht, hfirst⟩ := hslot.run_first hb
  obtain ⟨t', ht', hnext⟩ := hslot'.run_next ht
  rw [List.drop_drop] at ht'
  obtain ⟨t'', ht'', hlast⟩ := hslot''.run_next ht'
  have hlen : (ms.map (·.value)).length ≤ 3 := by
    have := horder.length_le
    simpa [names] using this
  rw [List.drop_drop, List.drop_eq_nil_of_le hlen] at ht''
  obtain ⟨hgap⟩ := ht''
  rw [configList, Reader.run_bind, hfirst]
  show (Reader.item false readOffsetFile >>= _).run _ = _
  rw [Reader.run_bind, hnext]
  show (Reader.item false readSettings >>= _).run _ = _
  rw [Reader.run_bind, hlast]
  show (Reader.endOfItems >>= _).run _ = _
  rw [Reader.run_bind, Reader.endOfItems_close hgap]
  show Except.ok (Config.mk c.anchorSecs (o.getD none) (gm.getD {}), rest) = _
  rw [ho, hg]

theorem reads_config {t : List Char} (ht : Form names ms t) (h : Means ms c) :
    reader.Reads t c := by
  obtain ⟨b, hb, rfl⟩ | ⟨horder, b, hb, rfl⟩ := ht
  · intro rest _
    show (Reader.members configMember {} >>= fun d => d.finish (.missing "base_timestamp")).run
      (b ++ ['\x7d'] ++ rest) = _
    rw [List.append_assoc]
    exact run_configMembers hb h
  · intro rest _
    show configList.run (b ++ [']'] ++ rest) = _
    rw [List.append_assoc]
    exact run_configList hb horder h

end

/-- **A document means what its members mean**, whatever it looks like. -/
theorem ofText_of_means {ms : List Member} {c : Config} {text : String} (h : Means ms c)
    (ht : Writes ms text) : ofText text = c.checked := by
  obtain ⟨g, t, g', hg, hg', hform, htext⟩ := ht
  have hrun : reader.run text.toList = .ok (c, g') := by
    rw [htext]
    refine (lenient_objectOrList _ _ _ g _ hg).trans (reads_config hform h g' ?_)
    have hover := hg'.over_append over_nil
    rwa [List.append_nil] at hover
  have hend : skipGaps g' = [] := by
    have hskip := skipGaps_append hg' []
    rwa [List.append_nil] at hskip
  rw [ofText, Reader.read, hrun]
  simp only [bind, Except.bind, hend]
  rfl

end Config

end Rollover
