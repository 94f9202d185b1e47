/-
A directory tree, and the ways in which reading and writing it can fail.

Every path starts at the root of the tree.  Its names are walked one by one: a
name leads into a directory, one dot stays where it is and two dots go back up.
Only the last name may be a file, or may be missing when something is about to be
written there.  A path that ends in a slash means a directory.

The tree is a list of entries with the newest first, so an entry hides the older
ones of the same place.  A place is the list of names that leads to it.

What the tree has room for the host can still refuse: a file may be closed to writers,
and a disk may be full.  Those faults are listed beside the entries.  A write empties
the file before it fills it, so one that the host breaks off leaves the first bytes of
what was to be written, and nothing of what was there.  No fault keeps a file from
being read.
-/

namespace Rollover

namespace Files

inductive Entry
  | file (content : ByteArray)
  | directory

instance : DecidableEq Entry
  | .file a, .file b =>
    decidable_of_decidable_of_iff
      (show a.data = b.data ↔ Entry.file a = .file b from
        ⟨fun h => congrArg Entry.file (ByteArray.ext h), fun h => by cases h; rfl⟩)
  | .file _, .directory => isFalse Entry.noConfusion
  | .directory, .file _ => isFalse Entry.noConfusion
  | .directory, .directory => isTrue rfl

/-- Why a file could not be read or written. -/
inductive Error
  | notFound
  | isDirectory
  | notDirectory
  | alreadyExists
  | notText
  /-- The host has another reason, which it names and puts in words. -/
  | host (kind text : String)
deriving DecidableEq

def Error.message : Error → String
  | notFound => "No such file or directory (os error 2)"
  | isDirectory => "Is a directory (os error 21)"
  | notDirectory => "Not a directory (os error 20)"
  | alreadyExists => "File exists (os error 17)"
  | notText => "stream did not contain valid UTF-8"
  | host _ text => text

/-- How the host fails a writer at a place, and the reason it gives.  No directory is made there
either. -/
inductive Fault
  /-- Nothing is opened there for writing. -/
  | closed (kind text : String)
  /-- A file is emptied, and the writing ends after some of the bytes. -/
  | broken (written : Nat) (kind text : String)
deriving DecidableEq

def Fault.error : Fault → Error
  | closed kind text => .host kind text
  | broken _ kind text => .host kind text

/-- The pieces of a text between slashes. -/
def pieces : List Char → List (List Char)
  | [] => [[]]
  | c :: s =>
    match pieces s with
    | [] => [[c]]
    | p :: ps => if c = '/' then [] :: p :: ps else (c :: p) :: ps

/-- The names of a path, in order. -/
def names (path : String) : List (List Char) := (pieces path.toList).filter (· ≠ [])

/-- The path says by its last character that it means a directory. -/
def endsInSlash (path : String) : Bool := path.toList.getLast? == some '/'

def isDots (name : List Char) : Bool := name == ['.'] || name == ['.', '.']

end Files

structure Files where
  entries : List (List (List Char) × Files.Entry) := []
  /-- The places where the host fails those who write. -/
  faults : List (List (List Char) × Files.Fault) := []
deriving DecidableEq

namespace Files

def empty : Files := {}

/-- What is at a place; the root is a directory. -/
def lookup? (fs : Files) (place : List (List Char)) : Option Entry :=
  if place = [] then some .directory else (fs.entries.find? (·.1 == place)).map (·.2)

def fault? (fs : Files) (place : List (List Char)) : Option Fault :=
  (fs.faults.find? (·.1 == place)).map (·.2)

def put (fs : Files) (place : List (List Char)) (e : Entry) : Files :=
  { fs with entries := (place, e) :: fs.entries }

/-- The place that a name leads to. -/
def step (here : List (List Char)) (name : List Char) : List (List Char) :=
  if name = ['.'] then here
  else if name = ['.', '.'] then here.dropLast
  else here ++ [name]

/-- Follows names from one directory to another. -/
def walk (fs : Files) (here : List (List Char)) :
    List (List Char) → Except Error (List (List Char))
  | [] => .ok here
  | name :: rest =>
    match fs.lookup? (step here name) with
    | some .directory => walk fs (step here name) rest
    | some (.file _) => .error .notDirectory
    | none => .error .notFound

/-- The place of a path and what is there; all but the last name have to exist. -/
def locate (fs : Files) (names : List (List Char)) :
    Except Error (List (List Char) × Option Entry) := do
  let here ← fs.walk [] names.dropLast
  let place := step here (names.getLast?.getD ['.'])
  return (place, fs.lookup? place)

def isDirectory (fs : Files) (names : List (List Char)) : Bool :=
  match fs.locate names with
  | .ok (_, some .directory) => true
  | _ => false

/-! ### Reading -/

def readBytes (fs : Files) (path : String) : Except Error ByteArray := do
  if path = "" then throw .notFound
  match (← fs.locate (names path)).2 with
  | none => throw .notFound
  | some .directory => throw .isDirectory
  | some (.file content) => if endsInSlash path then throw .notDirectory else return content

/-- The content of a file as text, which it may fail to be. -/
def readText (fs : Files) (path : String) : Except Error String := do
  match String.fromUTF8? (← fs.readBytes path) with
  | some s => return s
  | none => throw .notText

/-! ### Writing -/

/-- The place of a file that is new or replaces the old one. -/
def roomFor (fs : Files) (path : String) : Except Error (List (List Char)) := do
  if path = "" then throw .notFound
  let (place, found) ← fs.locate (names path)
  if endsInSlash path then throw .isDirectory
  match found with
  | some .directory => throw .isDirectory
  | _ => return place

/-- Writes a file.  What the host lets through of it stays, also when it breaks off the writing. -/
def writeBytes (fs : Files) (path : String) (content : ByteArray) : Files × Except Error Unit :=
  match fs.roomFor path with
  | .error e => (fs, .error e)
  | .ok place =>
    match fs.fault? place with
    | none => (fs.put place (.file content), .ok ())
    | some (.closed kind text) => (fs, .error (.host kind text))
    | some (.broken written kind text) =>
      (fs.put place (.file (content.extract 0 written)), .error (.host kind text))

def writeText (fs : Files) (path : String) (text : String) : Files × Except Error Unit :=
  fs.writeBytes path text.toUTF8

/-- Makes one directory. -/
def makeDirectory (fs : Files) (names : List (List Char)) : Except Error Files := do
  let (place, found) ← fs.locate names
  if isDots (names.getLast?.getD ['.']) then throw .alreadyExists
  match found, fs.fault? place with
  | some _, _ => throw .alreadyExists
  | none, some fault => throw fault.error
  | none, none => return fs.put place .directory

/-- The names of the directory that the last name lies in.  A dot does not count as a name, so
above `x/y/.` is `x`. -/
def above (names : List (List Char)) : List (List Char) := (names.filter (· ≠ ['.'])).dropLast

theorem length_above_lt {names : List (List Char)} (h : names ≠ []) :
    (above names).length < names.length := by
  have h1 := List.length_pos_iff.2 h
  have h2 := List.length_filter_le (fun n : List Char => decide (n ≠ ['.'])) names
  rw [above, List.length_dropLast]
  omega

/-- Makes a directory and those above it that are missing.  Directories made before a failure
stay. -/
def makeDirectories (fs : Files) (names : List (List Char)) : Files × Except Error Unit :=
  if _h : names = [] then (fs, .ok ())
  else
    let settled (fs : Files) (e : Error) : Files × Except Error Unit :=
      if fs.isDirectory names then (fs, .ok ()) else (fs, .error e)
    match fs.makeDirectory names with
    | .ok fs => (fs, .ok ())
    | .error .notFound =>
      match makeDirectories fs (above names) with
      | (fs, .error e) => (fs, .error e)
      | (fs, .ok ()) =>
        match fs.makeDirectory names with
        | .ok fs => (fs, .ok ())
        | .error e => settled fs e
    | .error e => settled fs e
termination_by names.length
decreasing_by exact length_above_lt _h

@[simp] theorem makeDirectories_nil (fs : Files) : fs.makeDirectories [] = (fs, .ok ()) := by
  rw [makeDirectories, dif_pos rfl]

/-! ### What is there after writing -/

theorem lookup?_put_self {place : List (List Char)} (h : place ≠ []) (fs : Files) (e : Entry) :
    (fs.put place e).lookup? place = some e := by
  simp [lookup?, put, h]

theorem lookup?_put_of_ne {place other : List (List Char)} (h : other ≠ place) (fs : Files)
    (e : Entry) : (fs.put place e).lookup? other = fs.lookup? other := by
  have : (place == other) = false := by simpa using fun h' => h h'.symm
  simp [lookup?, put, this]

@[simp] theorem faults_put (fs : Files) (place : List (List Char)) (e : Entry) :
    (fs.put place e).faults = fs.faults := rfl

end Files

end Rollover
