import TestScaffold.Path
import TestScaffold.Text.Quote
import TestScaffold.Text.Utf8

/-!
# File trees

A file tree is a value: the regular files with their bytes and the directories,
each under the names that lead to it from the root, and the working directory
from which relative paths start.  Operations on files give a new tree.

Main results:

- Theorem `FileTree.lookup_insert_self` and `FileTree.lookup_insert_of_ne`:
  writing an entry changes that entry only.
-/

namespace TestScaffold

/-- The names that lead from the root to an entry. -/
abbrev Place := List String

/-- An entry of a file tree. -/
inductive Entry where
  | file (bytes : List UInt8)
  | directory
deriving DecidableEq, Repr

/-- A file tree and the working directory in it. -/
structure FileTree where
  workingDirectory : Place := []
  entries : List (Place × Entry) := []
deriving DecidableEq, Repr

/-- Why an operation on a file fails. -/
inductive FileCause where
  | notFound
  | exists
  | notDirectory
  | isDirectory
deriving DecidableEq, Repr

/-- The number by which a cause is known. -/
def FileCause.code : FileCause → Nat
  | .notFound => 2
  | .exists => 17
  | .notDirectory => 20
  | .isDirectory => 21

/-- The text of a cause. -/
def FileCause.text : FileCause → String
  | .notFound => "No such file or directory"
  | .exists => "File exists"
  | .notDirectory => "Not a directory"
  | .isDirectory => "Is a directory"

/-- A failed operation on a file. -/
structure FileError where
  cause : FileCause
  path : Path
deriving DecidableEq, Repr

/-- The message of a failed operation. -/
def FileError.message (error : FileError) : String :=
  "[Errno " ++ toString error.cause.code ++ "] " ++ error.cause.text ++ ": " ++
    Text.quote error.path.toString

namespace FileTree

/-! ## Entries -/

/-- The entry at a place; the root is always a directory. -/
def lookup (tree : FileTree) (place : Place) : Option Entry :=
  if place = [] then some .directory else tree.entries.lookup place

/-- The tree without an entry. -/
def erase (tree : FileTree) (place : Place) : FileTree :=
  { tree with entries := tree.entries.filter fun row => row.1 != place }

/-- The tree with an entry set. -/
def insert (tree : FileTree) (place : Place) (entry : Entry) : FileTree :=
  { tree with entries := (place, entry) :: (tree.erase place).entries }

/-- Without an entry, the others are as they were. -/
theorem lookup_erase_of_ne (tree : FileTree) {place other : Place} (h : other ≠ place) :
    (tree.erase place).entries.lookup other = tree.entries.lookup other := by
  simp only [erase]
  induction tree.entries with
  | nil => rfl
  | cons row rest ih =>
    obtain ⟨first, entry⟩ := row
    by_cases hfirst : first = place
    · subst hfirst
      have hother : (other == first) = false := by simpa using h
      simp [List.lookup_cons, hother, ih]
    · by_cases hother : other = first
      · subst hother
        simp [hfirst]
      · have hother : (other == first) = false := by simpa using hother
        simp [hfirst, List.lookup_cons, hother, ih]

/-- An entry that was set is found. -/
theorem lookup_insert_self (tree : FileTree) {place : Place} (entry : Entry) (h : place ≠ []) :
    (tree.insert place entry).lookup place = some entry := by
  simp [lookup, insert, h]

/-- Setting an entry changes no other. -/
theorem lookup_insert_of_ne (tree : FileTree) {place q : Place} (entry : Entry)
    (h : q ≠ place) : (tree.insert place entry).lookup q = tree.lookup q := by
  have hq : (q == place) = false := by simpa using h
  simp [lookup, insert, List.lookup_cons, hq, lookup_erase_of_ne tree h]

/-- An entry that is set twice is the one that was set last. -/
theorem insert_insert (tree : FileTree) (place : Place) (first last : Entry) :
    (tree.insert place first).insert place last = tree.insert place last := by
  simp [insert, erase, List.filter_filter]

/-! ## Places of paths -/

/-- The place that one segment leads to. -/
def enter (place : Place) (segment : String) : Place :=
  if segment = ".." then place.dropLast else place ++ [segment]

/-- Walks along segments.  Each segment is looked for in a directory that exists; where the last
one leads need not exist. -/
def walk (tree : FileTree) : Place → List String → Except FileCause Place
  | place, [] => .ok place
  | place, segment :: rest =>
    match tree.lookup place with
    | none => .error .notFound
    | some (.file _) => .error .notDirectory
    | some .directory => tree.walk (enter place segment) rest

/-- The directory where a path starts. -/
def startOf (tree : FileTree) (path : Path) : Place :=
  match path.anchor with
  | .relative => tree.workingDirectory
  | _ => []

/-- The place of a path. -/
def place (tree : FileTree) (path : Path) : Except FileCause Place :=
  tree.walk (tree.startOf path) path.parts

/-- The entry at a path, if there is one. -/
def entry? (tree : FileTree) (path : Path) : Option Entry :=
  match tree.place path with
  | .ok place => tree.lookup place
  | .error _ => none

/-- Whether a path leads to a regular file. -/
def isFile (tree : FileTree) (path : Path) : Bool :=
  match tree.entry? path with
  | some (.file _) => true
  | _ => false

/-- Whether a path leads to a directory. -/
def isDirectory (tree : FileTree) (path : Path) : Bool :=
  tree.entry? path == some .directory

/-- The place that a path names when directories are taken to exist. -/
def resolve (tree : FileTree) (path : Path) : Place :=
  path.parts.foldl enter (tree.startOf path)

/-! ## Reading and writing -/

/-- The bytes of the file at a path. -/
def read (tree : FileTree) (path : Path) : Except FileError (List UInt8) :=
  match tree.place path with
  | .error cause => .error ⟨cause, path⟩
  | .ok place =>
    match tree.lookup place with
    | none => .error ⟨.notFound, path⟩
    | some .directory => .error ⟨.isDirectory, path⟩
    | some (.file bytes) => .ok bytes

/-- The text of the file at a path, with line ends unified and bytes that are no text replaced. -/
def readText (tree : FileTree) (path : Path) : Except FileError (List Char) :=
  (fun bytes => Text.unifyLineEnds (Utf8.decodeLossy bytes)) <$> tree.read path

/-- Makes one directory. -/
def makeDirectory (tree : FileTree) (path : Path) : Except FileCause FileTree := do
  let place ← tree.place path
  match tree.lookup place with
  | some _ => .error .exists
  | none => .ok (tree.insert place .directory)

/-- The outcome of making a directory, where one that is there already will do. -/
def directoryOutcome (tree : FileTree) (path : Path) (cause : FileCause) :
    FileTree × Except FileError Unit :=
  if cause ≠ .notFound ∧ tree.isDirectory path then (tree, .ok ())
  else (tree, .error ⟨cause, path⟩)

/-- Makes a directory and the directories above it that are missing. -/
def makeDirectories (tree : FileTree) (path : Path) : FileTree × Except FileError Unit :=
  match tree.makeDirectory path with
  | .ok tree => (tree, .ok ())
  | .error cause =>
    if _h : cause = .notFound ∧ path.parts ≠ [] then
      match tree.makeDirectories path.parent with
      | (tree, .error error) => (tree, .error error)
      | (tree, .ok ()) =>
        match tree.makeDirectory path with
        | .ok tree => (tree, .ok ())
        | .error cause => tree.directoryOutcome path cause
    else tree.directoryOutcome path cause
termination_by path.parts.length
decreasing_by
  have := List.length_pos_iff.mpr _h.2
  simp only [Path.parent, List.length_dropLast]
  omega

/-- Writes a file whose directory exists. -/
def write (tree : FileTree) (path : Path) (bytes : List UInt8) :
    Except FileError FileTree :=
  match tree.place path with
  | .error cause => .error ⟨cause, path⟩
  | .ok place =>
    match tree.lookup place with
    | some .directory => .error ⟨.isDirectory, path⟩
    | _ => .ok (tree.insert place (.file bytes))

/-- Writes a text to a file, after making the directories above it that are missing. -/
def writeText (tree : FileTree) (path : Path) (text : String) :
    FileTree × Except FileError Unit :=
  match tree.makeDirectories path.parent with
  | (tree, .error error) => (tree, .error error)
  | (tree, .ok ()) =>
    match tree.write path (Utf8.encode text.toList) with
    | .error error => (tree, .error error)
    | .ok tree => (tree, .ok ())

/-! ## Searching upward -/

/-- A directory, given by its names from the deepest on, and the directories above it. -/
def upwardFrom : List String → List Place
  | [] => [[]]
  | name :: above => (name :: above).reverse :: upwardFrom above

/-- A directory and the directories above it, the deepest first. -/
def upward (place : Place) : List Place :=
  upwardFrom place.reverse

/-- The path of a name in the deepest directory, from a start upward, that holds it as a file. -/
def findUp? (tree : FileTree) (name : Path) (start : Place) : Option Path :=
  ((upward start).map fun directory => Path.join ⟨.root, directory⟩ name).find? tree.isFile

end FileTree

end TestScaffold
