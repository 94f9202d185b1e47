/-
What making directories does to a tree.

A directory is made only where nothing is, so a tree with more directories has
`Grown`: every entry it had is still there and the same, and what is new is a
directory.  A walk that was possible still is, and a file that could be read can be
read as before.  A tree that grows can make the way free to a file that could not be
reached, so in general more can be read afterwards.  What making one directory keeps is
kept by making all of them, whether they are made or not.

Directories that could not be made are not there afterwards either, which is
`not_walk_of_makeDirectories`; it follows the recursion of `makeDirectories`, and dots
are the only catch, since they count as steps of a walk but not as directories to make.
-/
import Rollover.Proofs.KeptOffset

namespace Rollover

namespace Files

/-! ### Walks -/

theorem lookup?_root (fs : Files) : fs.lookup? [] = some .directory := if_pos rfl

@[simp] theorem step_dot (here : List (List Char)) : step here ['.'] = here := if_pos rfl

theorem walk_append (fs : Files) (names more : List (List Char)) :
    ∀ here : List (List Char), fs.walk here (names ++ more) =
      (fs.walk here names).bind fun mid => fs.walk mid more := by
  induction names with
  | nil => exact fun _ => rfl
  | cons name rest ih =>
      intro here
      rw [List.cons_append, walk, walk]
      split
      · exact ih _
      · rfl
      · rfl

theorem walk_append_eq_ok {fs : Files} {names more here there : List (List Char)} :
    fs.walk here (names ++ more) = .ok there ↔
      ∃ mid, fs.walk here names = .ok mid ∧ fs.walk mid more = .ok there := by
  rw [walk_append]
  cases fs.walk here names with
  | error e => exact iff_of_false (fun h => nomatch h) fun ⟨_, h, _⟩ => nomatch h
  | ok mid => simp only [Except.bind, Except.ok.injEq, exists_eq_left']

/-- A walk that starts at a directory ends at one. -/
theorem lookup?_of_walk {fs : Files} {names : List (List Char)} :
    ∀ {here there : List (List Char)}, fs.lookup? here = some .directory →
      fs.walk here names = .ok there → fs.lookup? there = some .directory := by
  induction names with
  | nil =>
      intro here there hdir h
      cases h
      exact hdir
  | cons name rest ih =>
      intro here there _ h
      obtain ⟨hdir, hrest⟩ := walk_cons_eq_ok.mp h
      exact ih hdir hrest

/-- Dots can be left out of a walk. -/
theorem walk_filter {fs : Files} {names : List (List Char)} :
    ∀ {here : List (List Char)}, fs.lookup? here = some .directory →
      fs.walk here (names.filter (· ≠ ['.'])) = fs.walk here names := by
  induction names with
  | nil => exact fun _ => rfl
  | cons name rest ih =>
      intro here hdir
      by_cases hdot : name = ['.']
      · subst hdot
        rw [List.filter_cons_of_neg (by simp), walk, step_dot, hdir]
        exact ih hdir
      · rw [List.filter_cons_of_pos (by simpa using hdot), walk, walk]
        split
        · rename_i hname
          exact ih hname
        · rfl
        · rfl

theorem walk_dropLast {fs : Files} {names there : List (List Char)}
    (h : fs.walk [] names = .ok there) : ∃ mid, fs.walk [] names.dropLast = .ok mid := by
  by_cases hnil : names = []
  · subst hnil
    exact ⟨there, h⟩
  · rw [← List.dropLast_concat_getLast hnil] at h
    obtain ⟨mid, hmid, -⟩ := walk_append_eq_ok.mp h
    exact ⟨mid, hmid⟩

/-- What can be walked to is there, and it is a directory. -/
theorem locate_of_walk {fs : Files} {names there : List (List Char)}
    (h : fs.walk [] names = .ok there) : fs.locate names = .ok (there, some .directory) := by
  have hdir := lookup?_of_walk (lookup?_root fs) h
  obtain ⟨mid, hmid⟩ := walk_dropLast h
  refine locate_eq_ok.mpr ⟨mid, hmid, ?_, hdir.symm⟩
  by_cases hnil : names = []
  · subst hnil
    cases h
    cases hmid
    rfl
  · rw [← List.dropLast_concat_getLast hnil] at h
    obtain ⟨mid', hmid', hlast⟩ := walk_append_eq_ok.mp h
    rw [hmid] at hmid'
    cases hmid'
    obtain ⟨-, hthere⟩ := walk_cons_eq_ok.mp hlast
    cases hthere
    rw [List.getLast?_eq_some_getLast hnil]
    rfl

theorem isDirectory_of_walk {fs : Files} {names there : List (List Char)}
    (h : fs.walk [] names = .ok there) : fs.isDirectory names = true := by
  unfold isDirectory
  rw [locate_of_walk h]

/-! ### Growing -/

/-- The second tree has the entries of the first one, and what it has besides are directories. -/
def Grown (fs fs' : Files) : Prop :=
  ∀ place, fs'.lookup? place = fs.lookup? place ∨
    fs.lookup? place = none ∧ fs'.lookup? place = some .directory

theorem Grown.refl (fs : Files) : Grown fs fs := fun _ => Or.inl rfl

theorem Grown.trans {fs fs' fs'' : Files} (h : Grown fs fs') (h' : Grown fs' fs'') :
    Grown fs fs'' := by
  intro place
  rcases h' place with h' | ⟨hnone, hdir⟩
  · rcases h place with h | ⟨hnone, hdir⟩
    · exact Or.inl (h'.trans h)
    · exact Or.inr ⟨hnone, h'.trans hdir⟩
  · rcases h place with h | ⟨_, hdir'⟩
    · exact Or.inr ⟨h.symm.trans hnone, hdir⟩
    · rw [hdir'] at hnone
      cases hnone

theorem Grown.lookup?_eq_some {fs fs' : Files} (h : Grown fs fs') {place : List (List Char)}
    {e : Entry} (he : fs.lookup? place = some e) : fs'.lookup? place = some e := by
  rcases h place with h | ⟨hnone, -⟩
  · exact h.trans he
  · rw [hnone] at he
    cases he

theorem Grown.walk_eq_ok {fs fs' : Files} (h : Grown fs fs') {names here there : List (List Char)}
    (hwalk : fs.walk here names = .ok there) : fs'.walk here names = .ok there :=
  walk_of_directories (fun _ hdir => h.lookup?_eq_some hdir) hwalk

/-- A file that can be read is at its place, which is not the root. -/
theorem locate_of_readBytes {fs : Files} {path : String} {content : ByteArray}
    (h : fs.readBytes path = .ok content) :
    path ≠ "" ∧ endsInSlash path = false ∧
      ∃ place, fs.locate (names path) = .ok (place, some (.file content)) := by
  unfold readBytes at h
  by_cases hpath : path = ""
  · rw [if_pos hpath] at h
    cases h
  · rw [if_neg hpath] at h
    cases hlocate : fs.locate (names path) with
    | error e =>
        rw [hlocate] at h
        cases h
    | ok found =>
        rw [hlocate] at h
        obtain ⟨place, _ | _ | _⟩ := found
        · cases h
        · cases hslash : endsInSlash path with
          | true =>
              simp only [hslash] at h
              cases h
          | false =>
              simp only [hslash] at h
              cases h
              exact ⟨hpath, rfl, place, rfl⟩
        · cases h

/-- In a tree that has grown, every file can be read as before. -/
theorem Grown.readBytes_eq_ok {fs fs' : Files} (h : Grown fs fs') {path : String}
    {content : ByteArray} (hread : fs.readBytes path = .ok content) :
    fs'.readBytes path = .ok content := by
  obtain ⟨hpath, hslash, place, hlocate⟩ := locate_of_readBytes hread
  obtain ⟨here, hwalk, hplace, hfound⟩ := locate_eq_ok.mp hlocate
  have hlocate' : fs'.locate (names path) = .ok (place, some (.file content)) :=
    locate_eq_ok.mpr
      ⟨here, h.walk_eq_ok hwalk, hplace, (h.lookup?_eq_some hfound.symm).symm⟩
  exact readBytes_of_locate hpath hslash hlocate'

/-! ### Making directories -/

/-- A directory is made under a name that means no directory yet, if the host lets it. -/
theorem makeDirectory_eq_ok {fs fs' : Files} {names : List (List Char)}
    (h : fs.makeDirectory names = .ok fs') :
    ∃ place, fs.locate names = .ok (place, none) ∧
      isDots (names.getLast?.getD ['.']) = false ∧ fs' = fs.put place .directory := by
  unfold makeDirectory at h
  cases hlocate : fs.locate names with
  | error e =>
      rw [hlocate] at h
      cases h
  | ok found =>
      obtain ⟨place, found⟩ := found
      rw [hlocate] at h
      cases hdots : isDots (names.getLast?.getD ['.']) with
      | true =>
          simp only [hdots] at h
          cases h
      | false =>
          simp only [hdots, bind, Except.bind] at h
          cases found with
          | some _ => cases h
          | none =>
              cases hfault : fs.fault? place with
              | some fault =>
                  simp only [hfault] at h
                  cases h
              | none =>
                  simp only [hfault] at h
                  cases h
                  exact ⟨place, rfl, rfl, rfl⟩

theorem grown_makeDirectory {fs fs' : Files} {names : List (List Char)}
    (h : fs.makeDirectory names = .ok fs') : Grown fs fs' := by
  obtain ⟨place, hlocate, -, rfl⟩ := makeDirectory_eq_ok h
  obtain ⟨here, -, -, hfound⟩ := locate_eq_ok.mp hlocate
  intro other
  by_cases hother : other = place
  · subst hother
    have hroot : other ≠ [] := by
      rintro rfl
      rw [lookup?_root] at hfound
      cases hfound
    exact Or.inr ⟨hfound.symm, lookup?_put_self hroot fs _⟩
  · exact Or.inl (lookup?_put_of_ne hother fs _)

/-- What the making of one directory keeps, the making of all keeps.  A fact about the names can be
handed on from a directory to the one above it. -/
theorem makeDirectories_induction {P : Files → Files → Prop} {Q : List (List Char) → Prop}
    (hrefl : ∀ fs, P fs fs) (htrans : ∀ {fs fs' fs''}, P fs fs' → P fs' fs'' → P fs fs'')
    (habove : ∀ {names}, Q names → Q (above names))
    (hone : ∀ {fs fs' names}, Q names → fs.makeDirectory names = .ok fs' → P fs fs')
    (fs : Files) (names : List (List Char)) (hnames : Q names) :
    P fs (fs.makeDirectories names).1 := by
  fun_induction makeDirectories fs names with
  | case1 => exact hrefl fs
  | case2 names _ fs' hmade => exact hone hnames hmade
  | case3 names _ _ fs' e hrest ih =>
      rw [hrest] at ih
      exact ih (habove hnames)
  | case4 names _ _ fs' hrest fs'' hmade ih =>
      rw [hrest] at ih
      exact htrans (ih (habove hnames)) (hone hnames hmade)
  | case5 names _ settled _ fs' hrest e _ ih =>
      rw [hrest] at ih
      simp only [settled]
      split <;> exact ih (habove hnames)
  | case6 names _ settled e _ _ =>
      simp only [settled]
      split <;> exact hrefl fs

theorem grown_makeDirectories (fs : Files) (names : List (List Char)) :
    Grown fs (fs.makeDirectories names).1 :=
  makeDirectories_induction (Q := fun _ => True) Grown.refl Grown.trans (fun _ => trivial)
    (fun _ hmade => grown_makeDirectory hmade) fs names trivial

/-- Making directories changes nothing about what the host refuses. -/
theorem faults_makeDirectories (fs : Files) (names : List (List Char)) :
    (fs.makeDirectories names).1.faults = fs.faults := by
  refine makeDirectories_induction (P := fun fs fs' => fs'.faults = fs.faults)
    (Q := fun _ => True) (fun _ => rfl) (fun h h' => h'.trans h) (fun _ => trivial) ?_ fs names
    trivial
  intro fs fs' names _ h
  obtain ⟨place, -, -, rfl⟩ := makeDirectory_eq_ok h
  exact faults_put fs place .directory

/-! ### Directories that are there, and those that could not be made -/

theorem makeDirectory_of_walk {fs : Files} {names there : List (List Char)}
    (h : fs.walk [] names = .ok there) : fs.makeDirectory names = .error .alreadyExists := by
  unfold makeDirectory
  rw [locate_of_walk h]
  simp only [bind, Except.bind]
  split <;> rfl

/-- Directories that could not be made are not there, so nobody can walk along them. -/
theorem not_walk_of_makeDirectories {fs : Files} {names : List (List Char)} {e : Error}
    (h : (fs.makeDirectories names).2 = .error e) {there : List (List Char)} :
    (fs.makeDirectories names).1.walk [] names ≠ .ok there := by
  fun_induction makeDirectories fs names generalizing there with
  | case1 => cases h
  | case2 names _ fs' _ => cases h
  | case3 names _ _ fs' e' hrest ih =>
      -- Whoever can walk to the last name can walk to the directory above it.
      intro hwalk
      rw [hrest] at ih
      rw [← walk_filter (lookup?_root fs')] at hwalk
      obtain ⟨mid, habove⟩ := walk_dropLast hwalk
      exact ih h habove
  | case4 names _ _ fs' _ fs'' _ ih => cases h
  | case5 names _ settled _ fs' _ e' _ ih =>
      simp only [settled] at h ⊢
      split at h
      · cases h
      · rename_i hnot
        rw [dif_neg hnot]
        exact fun hwalk => hnot (isDirectory_of_walk hwalk)
  | case6 names _ settled e' _ _ =>
      simp only [settled] at h ⊢
      split at h
      · cases h
      · rename_i hnot
        rw [dif_neg hnot]
        exact fun hwalk => hnot (isDirectory_of_walk hwalk)

/-- A file that can be read lies in directories that can be walked along. -/
theorem walk_above_of_readBytes {fs : Files} {path : String} {content : ByteArray}
    (h : fs.readBytes path = .ok content) :
    ∃ there, fs.walk [] (above (names path)) = .ok there := by
  obtain ⟨-, -, place, hlocate⟩ := locate_of_readBytes h
  obtain ⟨here, hwalk, hplace, hfound⟩ := locate_eq_ok.mp hlocate
  have hdir := lookup?_of_walk (lookup?_root fs) hwalk
  refine ⟨here, ?_⟩
  by_cases hnil : names path = []
  · rw [hnil] at hwalk ⊢
    exact hwalk
  · have hlast : names path = (names path).dropLast ++ [(names path).getLast hnil] :=
      (List.dropLast_concat_getLast hnil).symm
    -- The last name is no dot, for then the file would be the directory before it.
    have hdot : (names path).getLast hnil ≠ ['.'] := by
      intro hdot
      rw [List.getLast?_eq_some_getLast hnil, hdot, Option.getD_some, step_dot] at hplace
      rw [hplace, hdir] at hfound
      cases hfound
    have habove : above (names path) = (names path).dropLast.filter (· ≠ ['.']) := by
      rw [above, hlast, List.filter_append, List.filter_cons_of_pos (by simpa using hdot),
        List.filter_nil, List.dropLast_concat, List.dropLast_concat]
    rw [habove, walk_filter (lookup?_root fs)]
    exact hwalk

end Files

end Rollover
