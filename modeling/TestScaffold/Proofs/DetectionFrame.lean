import Mathlib.Data.List.Find
import TestScaffold.Proofs.TestFileName
import TestScaffold.Proofs.WriteEffect

/-!
# What detection does not see

Two trees may differ at one place only, where neither has a directory.  Then a
path leads somewhere in both or in neither, because the way to it goes through
directories, and what it leads to is the same unless it is that place.

Detection asks for the entries of a few files in some directory and for nothing
else.  So if no file that it looks for can be at the place where the trees
differ, it finds out the same about the project of every file.  Only why a
manifest cannot be read may differ, which detection logs and then ignores.

Main results:

- Theorem `FileTree.AgreeOff.entryAt_eq`: what is at every other path is the same.
- Theorem `Project.detect_info`: what detection finds out, without its log.
- Theorem `Project.detect_info_of_agreeOff`: detection does not see a place where
  none of its files can be.
-/

namespace TestScaffold

/-! ## Trees that differ at one place -/

namespace FileTree

/-- Whether two trees agree off a place, and neither has a directory there. -/
structure AgreeOff (place : Place) (before after : FileTree) : Prop where
  workingDirectory : after.workingDirectory = before.workingDirectory
  lookup : ∀ other ≠ place, after.lookup other = before.lookup other
  noDirectory : before.lookup place ≠ some .directory
  noDirectory' : after.lookup place ≠ some .directory

/-- Setting a file where there is no directory changes nothing elsewhere. -/
theorem agreeOff_insert {tree : FileTree} {place : Place} (bytes : List UInt8)
    (h : tree.lookup place ≠ some .directory) :
    AgreeOff place tree (tree.insert place (.file bytes)) := by
  have hroot : place ≠ [] := by
    rintro rfl
    exact h (by simp [FileTree.lookup])
  refine ⟨rfl, ?_, h, ?_⟩
  · intro other hne
    exact lookup_insert_of_ne tree _ hne
  · rw [lookup_insert_self tree _ hroot]
    simp

/-- A file is read from a path exactly when that is what the path leads to. -/
theorem read_eq_ok_iff (tree : FileTree) (path : Path) (bytes : List UInt8) :
    tree.read path = .ok bytes ↔ tree.entry? path = some (.file bytes) := by
  unfold read entry?
  cases tree.place path with
  | error cause => simp
  | ok place =>
    cases hlookup : tree.lookup place with
    | none => simp [hlookup]
    | some entry =>
      cases entry with
      | file content => simp [hlookup]
      | directory => simp [hlookup]

/-- A path leads to a file exactly when it can be read. -/
theorem isFile_iff (tree : FileTree) (path : Path) :
    tree.isFile path = true ↔ ∃ bytes, tree.read path = .ok bytes := by
  simp only [read_eq_ok_iff, isFile]
  cases tree.entry? path with
  | none => simp
  | some entry => cases entry <;> simp

namespace AgreeOff

variable {place : Place} {before after : FileTree}

theorem resolve_eq (h : AgreeOff place before after) (path : Path) :
    after.resolve path = before.resolve path := by
  simp only [FileTree.resolve, startOf, h.workingDirectory]

/-- The two trees have the same directories. -/
theorem directory_iff (h : AgreeOff place before after) (other : Place) :
    after.lookup other = some .directory ↔ before.lookup other = some .directory := by
  by_cases hother : other = place
  · subst hother
    exact iff_of_false h.noDirectory' h.noDirectory
  · rw [h.lookup other hother]

/-- A path leads to the same place in both trees, or nowhere in either. -/
theorem place_eq_ok_iff (h : AgreeOff place before after) (path : Path) (other : Place) :
    after.place path = .ok other ↔ before.place path = .ok other := by
  simp only [FileTree.place_eq_ok_iff, h.resolve_eq, h.directory_iff]

/-- What is at a path that resolves to another place is the same. -/
theorem entryAt_eq (h : AgreeOff place before after) {path : Path}
    (hne : before.resolve path ≠ place) : after.entry? path = before.entry? path := by
  unfold entry?
  cases hbefore : before.place path with
  | ok found =>
    have hfound := ((FileTree.place_eq_ok_iff ..).mp hbefore).1
    rw [(h.place_eq_ok_iff path found).mpr hbefore]
    exact h.lookup found (hfound ▸ hne)
  | error cause =>
    cases hafter : after.place path with
    | ok found =>
      rw [(h.place_eq_ok_iff path found).mp hafter] at hbefore
      cases hbefore
    | error cause' => rfl

/-- The same files are read from a path that resolves to another place. -/
theorem read_eq_ok_iff (h : AgreeOff place before after) {path : Path}
    (hne : before.resolve path ≠ place) (bytes : List UInt8) :
    after.read path = .ok bytes ↔ before.read path = .ok bytes := by
  rw [FileTree.read_eq_ok_iff, FileTree.read_eq_ok_iff, h.entryAt_eq hne]

end AgreeOff

end FileTree

/-! ## What detection finds out -/

namespace Project

/-- The members of a manifest that can be used. -/
def Manifest.members? : Manifest → Option (List (RawText × Json))
  | .found members => some members
  | _ => none

/-- What is known about a project with these members of its manifest, or with none. -/
def infoWith (tree : FileTree) (directory : Path) :
    Option (List (RawText × Json)) → Except Failure Info
  | some members => infoOf tree directory <$> dependencies members
  | none => .ok { packageManager := packageManager tree directory }

/-- The members of the manifest of a file's project, if it can be used. -/
def membersFor (tree : FileTree) (file : Path) :
    Except Failure (Option (List (RawText × Json))) :=
  Manifest.members? <$> readManifest tree (Path.child ⟨.root, root tree file⟩ manifestName)

/-- What detection finds out depends on the members of the manifest and on the directory. -/
theorem detect_info (tree : FileTree) (file : Path) :
    (·.2) <$> detect tree file =
      membersFor tree file >>= infoWith tree ⟨.root, root tree file⟩ := by
  simp only [detect, membersFor]
  cases readManifest tree (Path.child ⟨.root, root tree file⟩ manifestName) with
  | error failure => rfl
  | ok manifest =>
    cases manifest with
    | absent | unreadable _ | notObject => rfl
    | found members =>
      simp only [bind, Except.bind, Functor.map, Except.map, Manifest.members?, infoWith]
      cases dependencies members <;> rfl

/-! ## A place that detection does not look at -/

/-- The members of a manifest are the same if the same files are read from its path. -/
theorem members?_readManifest {before after : FileTree} {path : Path}
    (h : ∀ bytes, after.read path = .ok bytes ↔ before.read path = .ok bytes) :
    Manifest.members? <$> readManifest after path =
      Manifest.members? <$> readManifest before path := by
  -- A manifest that cannot be read has no members, whatever the reason.
  have hunread : ∀ (tree : FileTree) (error : FileError), tree.read path = .error error →
      Manifest.members? <$> readManifest tree path = .ok none := by
    intro tree error hread
    unfold readManifest
    rw [hread]
    simp only
    split <;> rfl
  cases hbefore : before.read path with
  | ok bytes =>
    have hafter := (h bytes).mpr hbefore
    unfold readManifest
    rw [hbefore, hafter]
  | error error =>
    cases hafter : after.read path with
    | ok bytes =>
      rw [(h bytes).mp hafter] at hbefore
      cases hbefore
    | error error' => rw [hunread before error hbefore, hunread after error' hafter]

section Frame

variable {place : Place} {before after : FileTree} (h : FileTree.AgreeOff place before after)
  (hplace : ∀ file ∈ projectFiles, place.getLast? ≠ some file)
include h hplace

omit h in
/-- A file of a project is not at such a place, in whatever directory it is looked for. -/
theorem resolve_child_ne {file : String} (hfile : file ∈ projectFiles) (directory : Path) :
    before.resolve (directory.child file) ≠ place := by
  have hup : ".." ∉ projectFiles := by decide
  have hne : file ≠ ".." := by
    rintro rfl
    exact hup hfile
  intro heq
  apply hplace file hfile
  rw [← heq, before.resolve_child directory hne, List.getLast?_concat]

/-- A directory holds the same files of a project. -/
theorem holds_of_agreeOff {file : String} (hfile : file ∈ projectFiles) (directory : Path) :
    holds after directory file = holds before directory file := by
  unfold holds FileTree.isFile
  rw [h.entryAt_eq (resolve_child_ne hplace hfile directory)]

/-- So the package manager is the same. -/
theorem packageManager_of_agreeOff (directory : Path) :
    packageManager after directory = packageManager before directory := by
  have hlock : ∀ row ∈ lockFiles, row.1 ∈ projectFiles := by decide
  unfold packageManager
  rw [List.find?_congr fun row hrow =>
    holds_of_agreeOff h hplace (hlock row hrow) directory]

/-- So is the root of the project of a file. -/
theorem root_of_agreeOff (file : Path) : root after file = root before file := by
  have hmanifest : manifestName ∈ projectFiles := by decide
  have hfind : ∀ start, after.findUp? ⟨.relative, [manifestName]⟩ start =
      before.findUp? ⟨.relative, [manifestName]⟩ start := by
    intro start
    unfold FileTree.findUp?
    apply List.find?_congr
    intro candidate hcandidate
    obtain ⟨directory, -, rfl⟩ := List.mem_map.mp hcandidate
    exact holds_of_agreeOff h hplace hmanifest ⟨.root, directory⟩
  simp only [root, h.resolve_eq, hfind]

theorem infoOf_of_agreeOff (directory : Path) (all : List (RawText × Json)) :
    infoOf after directory all = infoOf before directory all := by
  have hconfig : ∀ file ∈ testConfigFiles, file ∈ projectFiles := by decide
  have hangular : angularConfigFile ∈ projectFiles := by decide
  unfold infoOf
  rw [packageManager_of_agreeOff h hplace, holds_of_agreeOff h hplace hangular,
    List.filter_congr fun file hfile => holds_of_agreeOff h hplace (hconfig file hfile) directory]

/-- Detection finds out the same about the project of every file in two trees that differ only
where none of the files that it looks for can be. -/
theorem detect_info_of_agreeOff (file : Path) :
    (·.2) <$> detect after file = (·.2) <$> detect before file := by
  have hmanifest : manifestName ∈ projectFiles := by decide
  have hmembers : membersFor after file = membersFor before file := by
    unfold membersFor
    rw [root_of_agreeOff h hplace]
    apply members?_readManifest
    exact h.read_eq_ok_iff (resolve_child_ne hplace hmanifest _)
  have hinfo : ∀ directory, infoWith after directory = infoWith before directory := by
    intro directory
    funext members
    cases members with
    | none => simp only [infoWith, packageManager_of_agreeOff h hplace]
    | some members =>
      have hall : infoOf after directory = infoOf before directory :=
        funext (infoOf_of_agreeOff h hplace directory)
      simp only [infoWith, hall]
  rw [detect_info, detect_info, hmembers, root_of_agreeOff h hplace, hinfo]

end Frame

end Project
end TestScaffold
