import Mathlib.Data.List.Induction
import TestScaffold.Proofs.DetectionFrame

/-!
# Searching upward

A search upward looks for a name in a directory and in the directories above it,
the deepest first.  These are the prefixes of the directory's place, each once and
by falling length, so the first one that holds the name as a regular file is the
deepest one that does.  A directory of that name is passed over, and a start that
is not there is searched like one that is, since some directory above it may be
there.

The root of a project is found by such a search, from the directory of a file.
A place that has been resolved has no upward segments left, so a name in the root
resolves to that name in the root, and from there the search finds the same root
again: either the manifest is right there, or there is none in any directory above.

Main results:

- Theorem `FileTree.find?_upward`: the first directory upward that passes a test is
  the deepest one.
- Theorem `FileTree.isFile_child_iff`: which names in a directory are regular files.
- Theorem `Project.root_cases`: the root holds the nearest manifest, or is the
  directory of the file where there is no manifest.
- Theorem `Project.upward_search_nearest`: a search upward finds the nearest file,
  and the root of a project is the root of every name in it.
-/

namespace TestScaffold

/-! ## Plain names -/

namespace Path

/-- Whether a text is the name of an entry of a directory: a segment that a path keeps and that
does not lead upward. -/
structure IsPlain (name : String) : Prop extends IsSegment name where
  ne_up : name ≠ ".."

/-- A plain name is a relative path of one segment. -/
theorem ofString_plain {name : String} (h : IsPlain name) :
    ofString name = ⟨.relative, [name]⟩ := by
  have hnormal : IsNormal ⟨.relative, [name]⟩ := by
    intro part hpart
    rw [List.mem_singleton.mp hpart]
    exact h.toIsSegment
  simpa [toString, Anchor.text] using ofString_toString hnormal

/-- A plain name leads from a directory to its entry of that name. -/
theorem join_plain (path : Path) {name : String} (h : IsPlain name) :
    path.join (.ofString name) = path.child name := by
  rw [ofString_plain h]
  rfl

/-- The directories above an entry of a directory: that directory and those above it. -/
theorem mem_parents_child (path : Path) (name : String) (above : Path) :
    above ∈ (path.child name).parents ↔
      ∃ parts, parts <+: path.parts ∧ above = ⟨path.anchor, parts⟩ := by
  rw [mem_parents]
  simp only [child, List.length_append, List.length_singleton]
  constructor
  · rintro ⟨k, hk, rfl⟩
    refine ⟨path.parts.take k, List.take_prefix .., ?_⟩
    rw [List.take_append_of_le_length (by omega)]
  · rintro ⟨parts, hparts, rfl⟩
    have hlength := hparts.length_le
    refine ⟨parts.length, by omega, ?_⟩
    rw [List.take_append_of_le_length hlength, ← List.prefix_iff_eq_take.mp hparts]

end Path

namespace FileTree

/-! ## The directories above a place -/

theorem upward_nil : upward [] = [[]] := rfl

/-- Upward from an entry is the entry, and then upward from its directory. -/
theorem upward_concat (place : Place) (name : String) :
    upward (place ++ [name]) = (place ++ [name]) :: upward place := by
  simp [upward, upwardFrom]

/-- A directory and the directories above it are the prefixes of its place. -/
theorem mem_upward (place above : Place) : above ∈ upward place ↔ above <+: place := by
  induction place using List.reverseRecOn with
  | nil => simp [upward_nil]
  | append_singleton place name ih => rw [upward_concat, List.mem_cons, ih, List.prefix_concat_iff]

/-- The first directory upward that passes a test is the deepest one that does. -/
theorem find?_upward (p : Place → Bool) (place found : Place) :
    (upward place).find? p = some found ↔
      found <+: place ∧ p found = true ∧
        ∀ above, above <+: place → p above = true → above.length ≤ found.length := by
  induction place using List.reverseRecOn with
  | nil =>
    simp only [upward_nil, List.find?_singleton, List.prefix_nil]
    constructor
    · intro h
      split at h
      · rename_i hp
        obtain rfl := Option.some.inj h
        exact ⟨rfl, hp, by rintro _ rfl -; exact Nat.le_refl _⟩
      · cases h
    · rintro ⟨rfl, hp, -⟩
      rw [if_pos hp]
  | append_singleton place name ih =>
    rw [upward_concat]
    by_cases hp : p (place ++ [name]) = true
    · rw [List.find?_cons_of_pos hp]
      constructor
      · intro h
        obtain rfl := Option.some.inj h
        exact ⟨List.prefix_rfl, hp, fun _ habove _ => habove.length_le⟩
      · rintro ⟨hfound, -, hdeepest⟩
        -- The place itself passes, so what is as deep as every directory that does is the place.
        have hlength := hdeepest _ List.prefix_rfl hp
        rw [hfound.eq_of_length_le hlength]
    · rw [List.find?_cons_of_neg hp, ih]
      have hself : ∀ above, p above = true → (above <+: place ++ [name] ↔ above <+: place) := by
        intro above habove
        have hne : above ≠ place ++ [name] := by
          rintro rfl
          exact hp habove
        simp [List.prefix_concat_iff, hne]
      constructor
      · rintro ⟨hfound, hpass, hdeepest⟩
        refine ⟨(hself found hpass).mpr hfound, hpass, fun above habove hpass' => ?_⟩
        exact hdeepest above ((hself above hpass').mp habove) hpass'
      · rintro ⟨hfound, hpass, hdeepest⟩
        refine ⟨(hself found hpass).mp hfound, hpass, fun above habove hpass' => ?_⟩
        exact hdeepest above ((hself above hpass').mpr habove) hpass'

/-! ## Places without upward segments -/

/-- Walking along segments never leaves an upward segment. -/
theorem up_notMem_foldl_enter (segments : List String) {start : Place} (h : ".." ∉ start) :
    ".." ∉ segments.foldl enter start := by
  induction segments generalizing start with
  | nil => exact h
  | cons segment rest ih =>
    apply ih
    rw [enter]
    split
    · exact fun hmem => h (List.dropLast_subset start hmem)
    · rename_i hne
      simpa [h] using fun heq => hne heq.symm

/-- A path resolves to a place without upward segments, if the working directory is one. -/
theorem up_notMem_resolve {tree : FileTree} (h : ".." ∉ tree.workingDirectory) (path : Path) :
    ".." ∉ tree.resolve path := by
  apply up_notMem_foldl_enter
  unfold startOf
  split
  · exact h
  · simp

/-- Segments that do not lead upward are entered one after another. -/
theorem foldl_enter (segments : List String) (start : Place) (h : ".." ∉ segments) :
    segments.foldl enter start = start ++ segments := by
  induction segments generalizing start with
  | nil => simp
  | cons segment rest ih =>
    simp only [List.mem_cons, not_or] at h
    rw [List.foldl_cons, ih _ h.2, enter, if_neg (Ne.symm h.1), List.append_assoc,
      List.singleton_append]

/-- A place without upward segments is where its own path resolves to. -/
theorem resolve_root (tree : FileTree) {place : Place} (h : ".." ∉ place) :
    tree.resolve ⟨.root, place⟩ = place := by
  simpa [resolve, startOf] using foldl_enter place [] h

/-! ## The nearest file of a name -/

/-- Whether a name is a regular file in a directory, which is there and so is all above it. -/
def HasFile (tree : FileTree) (directory : Place) (name : String) : Prop :=
  (∀ above, above <+: directory → tree.lookup above = some .directory) ∧
    ∃ bytes, tree.lookup (directory ++ [name]) = some (.file bytes)

/-- Whether a directory is the deepest one, from a start upward, in which a name is a regular
file. -/
structure IsNearest (tree : FileTree) (start : Place) (name : String) (directory : Place) :
    Prop where
  above : directory <+: start
  hasFile : tree.HasFile directory name
  deepest : ∀ other, other <+: start → tree.HasFile other name → other.length ≤ directory.length

/-- There is one nearest directory at most. -/
theorem IsNearest.unique {tree : FileTree} {start directory other : Place} {name : String}
    (h : tree.IsNearest start name directory) (h' : tree.IsNearest start name other) :
    directory = other := by
  have hprefix := List.prefix_of_prefix_length_le h.above h'.above
    (h'.deepest directory h.above h.hasFile)
  exact hprefix.eq_of_length_le (h.deepest other h'.above h'.hasFile)

/-- A directory that holds a name as a regular file is the nearest one from itself. -/
theorem HasFile.isNearest {tree : FileTree} {directory : Place} {name : String}
    (h : tree.HasFile directory name) : tree.IsNearest directory name directory :=
  ⟨List.prefix_rfl, h, fun _ hother _ => hother.length_le⟩

/-! ## The search -/

section Search

variable {tree : FileTree} {name : String}

/-- Which names in a directory are regular files. -/
theorem isFile_child_iff {directory : Place} (hdirectory : ".." ∉ directory) (hname : name ≠ "..") :
    tree.isFile (Path.child ⟨.root, directory⟩ name) = true ↔ tree.HasFile directory name := by
  have hresolve : tree.resolve (Path.child ⟨.root, directory⟩ name) = directory ++ [name] := by
    rw [resolve_child tree _ hname, resolve_root tree hdirectory]
  have habove : (∀ above ∈ (Path.child ⟨.root, directory⟩ name).parents,
      tree.lookup (tree.resolve above) = some .directory) ↔
        ∀ above, above <+: directory → tree.lookup above = some .directory := by
    have hplace : ∀ above, above <+: directory → tree.resolve ⟨.root, above⟩ = above :=
      fun above habove => resolve_root tree fun hmem => hdirectory (habove.subset hmem)
    simp only [Path.mem_parents_child]
    constructor
    · intro h above hprefix
      rw [← hplace above hprefix]
      exact h _ ⟨above, hprefix, rfl⟩
    · rintro h _ ⟨above, hprefix, rfl⟩
      rw [hplace above hprefix]
      exact h above hprefix
  rw [isFile_iff, HasFile, ← habove]
  simp only [read_eq_ok_iff, entry?]
  constructor
  · rintro ⟨bytes, hentry⟩
    split at hentry
    · rename_i place hplace
      obtain ⟨rfl, hparents⟩ := (place_eq_ok_iff ..).mp hplace
      exact ⟨hparents, bytes, hresolve ▸ hentry⟩
    · cases hentry
  · rintro ⟨hparents, bytes, hfile⟩
    refine ⟨bytes, ?_⟩
    rw [(place_eq_ok_iff ..).mpr ⟨hresolve, hparents⟩]
    exact hfile

variable {start : Place} (hstart : ".." ∉ start) (hname : name ≠ "..")
include hstart hname

/-- A path to a directory above leads to a file exactly when there is one. -/
theorem isFile_above_iff {directory : Place} (h : directory <+: start) :
    tree.isFile (Path.child ⟨.root, directory⟩ name) = true ↔ tree.HasFile directory name :=
  isFile_child_iff (fun hmem => hstart (h.subset hmem)) hname

/-- A search upward finds a name in the nearest directory where it is a regular file. -/
theorem findUp?_eq_some_iff (found : Path) :
    tree.findUp? ⟨.relative, [name]⟩ start = some found ↔
      ∃ directory, tree.IsNearest start name directory ∧
        found = Path.child ⟨.root, directory⟩ name := by
  have hnearest : ∀ directory,
      (upward start).find? (fun d => tree.isFile (Path.child ⟨.root, d⟩ name)) = some directory ↔
        tree.IsNearest start name directory := by
    intro directory
    rw [find?_upward]
    constructor
    · rintro ⟨habove, hpass, hdeepest⟩
      refine ⟨habove, (isFile_above_iff hstart hname habove).mp hpass, fun other hother hhas => ?_⟩
      exact hdeepest other hother ((isFile_above_iff hstart hname hother).mpr hhas)
    · rintro ⟨habove, hhas, hdeepest⟩
      refine ⟨habove, (isFile_above_iff hstart hname habove).mpr hhas, fun other hother hpass => ?_⟩
      exact hdeepest other hother ((isFile_above_iff hstart hname hother).mp hpass)
  unfold findUp?
  rw [List.find?_map, Option.map_eq_some_iff]
  constructor
  · rintro ⟨directory, hfind, rfl⟩
    exact ⟨directory, (hnearest directory).mp hfind, rfl⟩
  · rintro ⟨directory, hfind, rfl⟩
    exact ⟨directory, (hnearest directory).mpr hfind, rfl⟩

/-- A search upward finds nothing exactly when the name is a regular file in no directory. -/
theorem findUp?_eq_none_iff :
    tree.findUp? ⟨.relative, [name]⟩ start = none ↔
      ∀ directory, directory <+: start → ¬ tree.HasFile directory name := by
  unfold findUp?
  rw [List.find?_eq_none]
  simp only [List.mem_map, mem_upward, Bool.not_eq_true]
  constructor
  · intro h directory hprefix hhas
    have hpass := (isFile_above_iff hstart hname hprefix).mpr hhas
    have hfail : tree.isFile (Path.child ⟨.root, directory⟩ name) = false :=
      h _ ⟨directory, hprefix, rfl⟩
    simp [hpass] at hfail
  · rintro h _ ⟨directory, hprefix, rfl⟩
    apply Bool.eq_false_iff.mpr
    exact fun hpass => h directory hprefix ((isFile_above_iff hstart hname hprefix).mp hpass)

end Search

end FileTree

/-! ## The root of a project -/

namespace Project

open FileTree

variable {tree : FileTree} (htree : ".." ∉ tree.workingDirectory)
include htree

theorem up_notMem_directory (file : Path) : ".." ∉ (tree.resolve file).dropLast :=
  fun hmem => up_notMem_resolve htree file (List.dropLast_subset _ hmem)

/-- The root of a project holds the nearest manifest; where there is no manifest, it is the
directory of the file. -/
theorem root_cases (file : Path) :
    tree.IsNearest (tree.resolve file).dropLast manifestName (root tree file) ∨
      (∀ directory, directory <+: (tree.resolve file).dropLast →
          ¬ tree.HasFile directory manifestName) ∧
        root tree file = (tree.resolve file).dropLast := by
  have hstart := up_notMem_directory htree file
  have hname : manifestName ≠ ".." := by decide
  unfold root
  cases hfind : tree.findUp? ⟨.relative, [manifestName]⟩ (tree.resolve file).dropLast with
  | some found =>
    obtain ⟨directory, hnearest, rfl⟩ := (findUp?_eq_some_iff hstart hname found).mp hfind
    left
    simpa [Path.child, hfind] using hnearest
  | none =>
    right
    exact ⟨(findUp?_eq_none_iff hstart hname).mp hfind, by simp [hfind]⟩

/-- The root of a project is the file's directory or above it. -/
theorem root_above (file : Path) : root tree file <+: (tree.resolve file).dropLast := by
  rcases root_cases htree file with hnearest | ⟨-, hroot⟩
  · exact hnearest.above
  · exact hroot ▸ List.prefix_rfl

/-- A name in the root of a project is in a project of the same root. -/
theorem root_child_root (file : Path) {name : String} (hname : name ≠ "..") :
    root tree (Path.child ⟨.root, root tree file⟩ name) = root tree file := by
  have hfree : ".." ∉ root tree file :=
    fun hmem => up_notMem_directory htree file ((root_above htree file).subset hmem)
  have hdirectory : (tree.resolve (Path.child ⟨.root, root tree file⟩ name)).dropLast =
      root tree file := by
    rw [resolve_child tree _ hname, resolve_root tree hfree, List.dropLast_concat]
  have hagain := root_cases htree (Path.child ⟨.root, root tree file⟩ name)
  rw [hdirectory] at hagain
  rcases hagain with hagain | ⟨-, hagain⟩
  · rcases root_cases htree file with hnearest | ⟨hnone, hroot⟩
    · exact hagain.unique hnearest.hasFile.isNearest
    · -- A manifest found from the root would be above the file as well.
      exact absurd hagain.hasFile (hnone _ (hroot ▸ hagain.above))
  · exact hagain

/-- A search upward finds the nearest file.  For every plain name, it finds the name in the deepest
directory, among the one where the start resolves to and those above it, in which the name is a
regular file, and it finds nothing exactly when there is no such directory.  The root of a project
is the root of every plain name in it, with a manifest or without. -/
theorem upward_search_nearest {name : String} (hname : Path.IsPlain name) (start : Path) :
    (∀ found, tree.findUp? (.ofString name) (tree.resolve start) = some found ↔
      ∃ directory, tree.IsNearest (tree.resolve start) name directory ∧
        found = Path.join ⟨.root, directory⟩ (.ofString name)) ∧
    (tree.findUp? (.ofString name) (tree.resolve start) = none ↔
      ∀ directory, directory <+: tree.resolve start → ¬ tree.HasFile directory name) ∧
    (∀ file : Path,
      root tree (Path.join ⟨.root, root tree file⟩ (.ofString name)) = root tree file) := by
  have hstart := up_notMem_resolve htree start
  simp only [Path.join_plain _ hname]
  rw [Path.ofString_plain hname]
  refine ⟨?_, ?_, ?_⟩
  · exact findUp?_eq_some_iff hstart hname.ne_up
  · exact findUp?_eq_none_iff hstart hname.ne_up
  · exact fun file => root_child_root htree file hname.ne_up

omit htree

/-- A tree with a manifest, and a directory of the manifest's name below it. -/
def shadowedTree : FileTree where
  workingDirectory := ["w"]
  entries := [(["w"], .directory), (["w", "package.json"], .file []), (["w", "a"], .directory),
    (["w", "a", "package.json"], .directory), (["w", "a", "b"], .directory)]

/-- The directory of the manifest's name is passed over, and the start may be spelled through a
directory that is not there. -/
theorem upward_search_nearest_shadowedTree :
    shadowedTree.resolve (.ofString "a/./missing/../b") = ["w", "a", "b"] ∧
      shadowedTree.IsNearest ["w", "a", "b"] "package.json" ["w"] ∧
      (∀ directory, directory <+: ["w", "a", "b"] →
        ¬ shadowedTree.HasFile directory "yarn.lock") ∧
      root shadowedTree (.ofString "a/b/x.js") = ["w"] ∧
      root shadowedTree (Path.child ⟨.root, ["w"]⟩ "package.json") = ["w"] := by
  have htree : ".." ∉ shadowedTree.workingDirectory := by decide
  have hmanifest : Path.IsPlain "package.json" := ⟨⟨by decide, by decide, by decide⟩, by decide⟩
  have hlock : Path.IsPlain "yarn.lock" := ⟨⟨by decide, by decide, by decide⟩, by decide⟩
  have hstart : shadowedTree.resolve (.ofString "a/./missing/../b") = ["w", "a", "b"] := by
    decide +kernel
  have hfile : root shadowedTree (.ofString "a/b/x.js") = ["w"] := by decide +kernel
  obtain ⟨hsome, -, hroot⟩ :=
    upward_search_nearest htree hmanifest (.ofString "a/./missing/../b")
  obtain ⟨-, hnone, -⟩ := upward_search_nearest htree hlock (.ofString "a/./missing/../b")
  rw [hstart] at hsome hnone
  refine ⟨hstart, ?_, hnone.mp (by decide +kernel), hfile, ?_⟩
  · obtain ⟨directory, hnearest, hfound⟩ :=
      (hsome (Path.child ⟨.root, ["w"]⟩ "package.json")).mp (by decide +kernel)
    rw [Path.join_plain _ hmanifest] at hfound
    have hdirectory : ["w"] = directory :=
      List.append_cancel_right (congrArg Path.parts hfound)
    exact hdirectory ▸ hnearest
  · have hagain := hroot (.ofString "a/b/x.js")
    rwa [hfile, Path.join_plain _ hmanifest] at hagain

end Project
end TestScaffold
