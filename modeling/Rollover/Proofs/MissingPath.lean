/-
A path that leads nowhere, once there are more directories.

When directories are made for a file, the path of the file may begin to lead somewhere, and
there may be something at the end of it.  That takes two things to go wrong.  Either the
path goes back up by two dots, through a directory that was missing, to a place that has
nothing to do with the new directories; or the tree had loose ends, which hung below
nothing.

Without them a path that was `Missing` is missing still.  The new directories are at the
end of the path to the directory of the file and above it, which is
`lookup?_makeDirectories`, so the place of the file is as it was.  It was empty, for it
lies below the name that was missing.  The walk to it goes further than before, through the
new directories, and finds nothing in the end.

A path that is not missing needs no directories, and none are made.
-/
import Rollover.Proofs.OffsetGrammar

namespace Rollover

namespace Files

/-! ### Paths that do not go back up -/

/-- Nothing lies below a place where nothing is. -/
def Rooted (fs : Files) : Prop :=
  ∀ place name, fs.lookup? place = none → fs.lookup? (place ++ [name]) = none

theorem Rooted.lookup?_append {fs : Files} (h : fs.Rooted) (more : List (List Char)) :
    ∀ {place : List (List Char)}, fs.lookup? place = none → fs.lookup? (place ++ more) = none := by
  induction more with
  | nil =>
      intro place hnone
      rw [List.append_nil]
      exact hnone
  | cons name rest ih =>
      intro place hnone
      rw [List.append_cons]
      exact ih (h place name hnone)

theorem step_of_ne {name : List Char} (hdot : name ≠ ['.']) (hdots : name ≠ ['.', '.'])
    (here : List (List Char)) : step here name = here ++ [name] := by
  rw [step, if_neg hdot, if_neg hdots]

/-- Without two dots a walk goes down by every name but dots. -/
theorem walk_eq_append {fs : Files} {names : List (List Char)} :
    ∀ {here there : List (List Char)}, ['.', '.'] ∉ names → fs.walk here names = .ok there →
      there = here ++ names.filter (· ≠ ['.']) := by
  induction names with
  | nil =>
      intro here there _ h
      cases h
      exact (List.append_nil _).symm
  | cons name rest ih =>
      intro here there hplain h
      obtain ⟨hname, hrest⟩ := List.ne_and_not_mem_of_not_mem_cons hplain
      obtain ⟨-, hwalk⟩ := walk_cons_eq_ok.mp h
      by_cases hdot : name = ['.']
      · subst hdot
        rw [step_dot] at hwalk
        rw [List.filter_cons_of_neg (by simp)]
        exact ih hrest hwalk
      · rw [step_of_ne hdot hname.symm] at hwalk
        rw [List.filter_cons_of_pos (by simpa using hdot), List.append_cons]
        exact ih hrest hwalk

/-- What such a path leads to, if its last name is no dot. -/
theorem locate_eq_filter {fs : Files} {names place : List (List Char)} {found : Option Entry}
    (hplain : ['.', '.'] ∉ names) (hdots : isDots (names.getLast?.getD ['.']) = false)
    (h : fs.locate names = .ok (place, found)) : place = names.filter (· ≠ ['.']) := by
  obtain ⟨here, hwalk, rfl, -⟩ := locate_eq_ok.mp h
  rcases List.eq_nil_or_concat names with rfl | ⟨init, name, rfl⟩
  · cases hdots
  · rw [List.concat_eq_append] at hplain hwalk hdots ⊢
    rw [List.dropLast_concat] at hwalk
    rw [List.getLast?_concat, Option.getD_some] at hdots ⊢
    have hname : name ≠ ['.'] ∧ name ≠ ['.', '.'] := by
      simpa [isDots] using hdots
    have hhere := walk_eq_append (fun hmem => hplain (List.mem_append_left _ hmem)) hwalk
    rw [step_of_ne hname.1 hname.2, hhere, List.nil_append, List.filter_append,
      List.filter_cons_of_pos (by simpa using hname.1), List.filter_nil]

theorem mem_of_mem_above {names : List (List Char)} {name : List Char} (h : name ∈ above names) :
    name ∈ names ∧ name ≠ ['.'] := by
  have hmem := List.mem_filter.mp (List.dropLast_subset _ h)
  exact ⟨hmem.1, of_decide_eq_true hmem.2⟩

theorem filter_above (names : List (List Char)) :
    (above names).filter (· ≠ ['.']) = above names :=
  List.filter_eq_self.mpr fun _ hmem => decide_eq_true (mem_of_mem_above hmem).2

/-- Directories are made at the end of such a path and above it, and nowhere else. -/
theorem lookup?_makeDirectories {fs : Files} {names place : List (List Char)}
    (hplain : ['.', '.'] ∉ names) (h : ¬ place <+: names.filter (· ≠ ['.'])) :
    (fs.makeDirectories names).1.lookup? place = fs.lookup? place := by
  refine makeDirectories_induction (P := fun fs fs' => fs'.lookup? place = fs.lookup? place)
    (Q := fun names => ['.', '.'] ∉ names ∧ ¬ place <+: names.filter (· ≠ ['.'])) (fun _ => rfl)
    (fun h h' => h'.trans h) ?_ ?_ fs names ⟨hplain, h⟩
  · rintro names ⟨hplain, h⟩
    refine ⟨fun hmem => hplain (mem_of_mem_above hmem).1, fun hpre => h ?_⟩
    rw [filter_above] at hpre
    exact hpre.trans (List.dropLast_prefix _)
  · rintro fs fs' names ⟨hplain, h⟩ hmade
    obtain ⟨there, hlocate, hdots, rfl⟩ := makeDirectory_eq_ok hmade
    have hthere := locate_eq_filter hplain hdots hlocate
    refine lookup?_put_of_ne ?_ fs _
    rintro rfl
    rw [hthere] at h
    exact h List.prefix_rfl

/-- A walk that finds nothing still finds nothing in a tree that has grown on the way, but not at
the end of it. -/
theorem Grown.walk_eq_notFound {fs fs' : Files} (h : Grown fs fs') (hrooted : fs.Rooted)
    {names : List (List Char)} :
    ∀ {here : List (List Char)}, ['.', '.'] ∉ names → fs'.lookup? here = some .directory →
      fs'.lookup? (here ++ names.filter (· ≠ ['.'])) = none →
      fs.walk here names = .error .notFound ∨ fs.lookup? here = none →
      fs'.walk here names = .error .notFound := by
  -- Along the names, until the old walk finds nothing and also from there on.
  induction names with
  | nil =>
      intro here _ hdir hend _
      rw [List.filter_nil, List.append_nil, hdir] at hend
      cases hend
  | cons name rest ih =>
      intro here hplain hdir hend hold
      obtain ⟨hname, hrest⟩ := List.ne_and_not_mem_of_not_mem_cons hplain
      rw [walk] at hold ⊢
      by_cases hdot : name = ['.']
      · subst hdot
        rw [List.filter_cons_of_neg (by simp)] at hend
        rw [step_dot] at hold ⊢
        rw [hdir]
        refine ih hrest hdir hend ?_
        rcases hold with hold | hnone
        · split at hold
          · exact Or.inl hold
          · cases hold
          · rename_i hnone
            exact Or.inr hnone
        · exact Or.inr hnone
      · rw [List.filter_cons_of_pos (by simpa using hdot), List.append_cons] at hend
        rw [step_of_ne hdot hname.symm] at hold ⊢
        have hbelow : fs.lookup? here = none → fs.lookup? (here ++ [name]) = none :=
          hrooted here name
        rcases h (here ++ [name]) with hsame | ⟨hnone, hnew⟩
        · rw [hsame]
          rcases hold with hold | hnone
          · split at hold
            · rename_i hthere
              exact ih hrest (hsame.trans hthere) hend (Or.inl hold)
            · cases hold
            · rfl
          · rw [hbelow hnone]
        · rw [hnew]
          exact ih hrest hnew hend (Or.inr hnone)

/-! ### Paths that were missing -/

theorem missing_iff {fs : Files} {path : String} :
    fs.Missing path ↔ path = "" ∨ fs.walk [] (names path) = .error .notFound := by
  unfold Missing
  rw [walk_eq_notFound]

/-- No directory is made at the end of a walk that does not find nothing, be it stopped by a file or
not at all. -/
theorem makeDirectory_of_walk_ne {fs : Files} {names : List (List Char)} (hnil : names ≠ [])
    (h : fs.walk [] names ≠ .error .notFound) :
    ∃ e, fs.makeDirectory names = .error e ∧ e ≠ .notFound := by
  cases hwalk : fs.walk [] names with
  | ok there => exact ⟨.alreadyExists, makeDirectory_of_walk hwalk, by decide⟩
  | error e =>
      rw [hwalk] at h
      obtain ⟨init, name, rfl⟩ : ∃ init name, names = init ++ [name] :=
        ⟨_, _, (List.dropLast_concat_getLast hnil).symm⟩
      rw [walk_append] at hwalk
      unfold makeDirectory
      rw [locate_concat]
      cases hinit : fs.walk [] init with
      | error e' =>
          rw [hinit] at hwalk
          cases hwalk
          exact ⟨e, rfl, fun he => h (he ▸ rfl)⟩
      | ok here =>
          rw [hinit] at hwalk
          simp only [Except.bind, walk] at hwalk
          refine ⟨.alreadyExists, ?_, by decide⟩
          cases hfound : fs.lookup? (step here name) with
          | none =>
              rw [hfound] at hwalk
              cases hwalk
              exact absurd rfl h
          | some _ =>
              simp only [Except.map, bind, Except.bind, hfound]
              split <;> rfl

/-- Directories are made only along a way on which something is missing. -/
theorem makeDirectories_of_walk_ne {fs : Files} {names : List (List Char)}
    (h : fs.walk [] names ≠ .error .notFound) : (fs.makeDirectories names).1 = fs := by
  rw [makeDirectories]
  by_cases hnil : names = []
  · rw [dif_pos hnil]
  · obtain ⟨e, he, hne⟩ := makeDirectory_of_walk_ne hnil h
    rw [dif_neg hnil, he]
    cases e with
    | notFound => exact absurd rfl hne
    | _ =>
        simp only
        split <;> rfl

/-- A path that is not missing has all its directories. -/
theorem makeDirectories_of_not_missing {fs : Files} {path : String} (h : ¬ fs.Missing path) :
    (fs.makeDirectories (above (names path))).1 = fs := by
  rw [missing_iff, not_or, ← walk_filter (lookup?_root fs)] at h
  refine makeDirectories_of_walk_ne ?_
  unfold above
  rcases List.eq_nil_or_concat ((names path).filter (· ≠ ['.'])) with hnil | ⟨init, name, hlast⟩
  · rw [hnil]
    exact fun hwalk => nomatch hwalk
  · rw [hlast, List.concat_eq_append, walk_append] at h
    rw [hlast, List.concat_eq_append, List.dropLast_concat]
    intro hwalk
    rw [hwalk] at h
    exact h.2 rfl

/-- Nothing is at the end of a path on which something is missing. -/
theorem Rooted.lookup?_of_walk_notFound {fs : Files} (h : fs.Rooted) {names : List (List Char)}
    (hplain : ['.', '.'] ∉ names) (hwalk : fs.walk [] names = .error .notFound) :
    fs.lookup? (names.filter (· ≠ ['.'])) = none := by
  obtain ⟨before, name, after, here, rfl, hbefore, hnone⟩ := walk_eq_notFound.mp hwalk
  have hdots : name ≠ ['.', '.'] := fun hname => hplain (by simp [hname])
  have hdot : name ≠ ['.'] := by
    rintro rfl
    rw [step_dot, Files.lookup?_of_walk (lookup?_root fs) hbefore] at hnone
    cases hnone
  have hhere := walk_eq_append (fun hmem => hplain (List.mem_append_left _ hmem)) hbefore
  rw [step_of_ne hdot hdots, hhere, List.nil_append] at hnone
  rw [List.filter_append, List.filter_cons_of_pos (by simpa using hdot), List.append_cons]
  exact h.lookup?_append _ hnone

/-- A path that is missing is so still when the directories above it have been made. -/
theorem missing_makeDirectories {fs : Files} {path : String} (hrooted : fs.Rooted)
    (hplain : ['.', '.'] ∉ names path) (h : fs.Missing path) :
    (fs.makeDirectories (above (names path))).1.Missing path := by
  rcases missing_iff.mp h with hpath | hwalk
  · exact Or.inl hpath
  · have hend := hrooted.lookup?_of_walk_notFound hplain hwalk
    have hnil : (names path).filter (· ≠ ['.']) ≠ [] := by
      intro hnil
      rw [hnil, lookup?_root] at hend
      cases hend
    -- The new directories are shorter than the place of the file.
    have hbelow : ¬ (names path).filter (· ≠ ['.']) <+:
        (above (names path)).filter (· ≠ ['.']) := by
      intro hpre
      have hle := hpre.length_le
      have hpos := List.length_pos_iff.mpr hnil
      rw [filter_above, above, List.length_dropLast] at hle
      omega
    have hsame : (fs.makeDirectories (above (names path))).1.lookup? _ = fs.lookup? _ :=
      lookup?_makeDirectories (fun hmem => hplain (mem_of_mem_above hmem).1) hbelow
    exact missing_iff.mpr (Or.inr ((grown_makeDirectories fs _).walk_eq_notFound hrooted hplain
      (lookup?_root _) (hsame.trans hend) (Or.inl hwalk)))

end Files

end Rollover
