import TestScaffold.Proofs.GenerationOutcome
import TestScaffold.Proofs.JoinedText

/-!
# What a generation changes

Writing a test file makes the directories above it that are missing and then
sets one entry.  Making directories goes up to the first directory that is there
and down again, so it may be stopped half-way, but whatever it did, the tree has
grown by directories only, and only by directories on the way to the file.

A walk along a path succeeds exactly when every directory above the path is
there, and it ends where the path resolves to.  From this follows what a file
that was written leaves: the directories above it are there, the path leads to
the file, and no other place changed.

Main results:

- Theorem `FileTree.place_eq_ok_iff`: the paths that lead somewhere.
- Theorem `FileTree.makeDirectories_grows`: making directories adds directories
  of the path and above it only.
- Theorem `FileTree.writeText_written`: what a text that was written leaves.
- Theorem `Generate.run_tree`: the tree that a generation leaves.
-/

namespace TestScaffold

/-! ## Paths above a path -/

namespace Path

/-- The paths of the directories above a path, the nearest first. -/
def parents (path : Path) : List Path :=
  (List.range path.parts.length).reverse.map fun k => ⟨path.anchor, path.parts.take k⟩

/-- The paths above a path are those of its first segments. -/
theorem mem_parents {path above : Path} :
    above ∈ path.parents ↔
      ∃ k < path.parts.length, above = ⟨path.anchor, path.parts.take k⟩ := by
  simp [parents, eq_comm]

/-- The parents of a path that has a name: its own directory, and the parents of that. -/
theorem parents_eq_cons {path : Path} (h : path.parts ≠ []) :
    path.parents = path.parent :: path.parent.parents := by
  obtain ⟨anchor, parts⟩ := path
  obtain ⟨before, last, rfl⟩ : ∃ before last, parts = before ++ [last] :=
    ⟨_, _, (List.dropLast_concat_getLast h).symm⟩
  simp only [parents, parent, List.length_append, List.length_singleton,
    List.dropLast_concat, List.range_succ, List.reverse_append, List.reverse_singleton,
    List.singleton_append, List.map_cons, List.take_left]
  congr 1
  refine List.map_congr_left fun k hk => ?_
  have hk : k ≤ before.length := by
    simp only [List.mem_reverse, List.mem_range] at hk
    omega
  rw [List.take_append_of_le_length hk]

end Path

namespace FileTree

/-! ## Where a path leads -/

/-- A walk succeeds exactly when it goes through directories only, and ends where the segments
lead when directories are taken to exist. -/
theorem walk_eq_ok_iff (tree : FileTree) (start place : Place) (segments : List String) :
    tree.walk start segments = .ok place ↔
      segments.foldl enter start = place ∧
        ∀ k < segments.length,
          tree.lookup ((segments.take k).foldl enter start) = some .directory := by
  induction segments generalizing start with
  | nil => simp [walk]
  | cons segment rest ih =>
    have hsplit : (∀ k < (segment :: rest).length,
        tree.lookup (((segment :: rest).take k).foldl enter start) = some .directory) ↔
          tree.lookup start = some .directory ∧ ∀ k < rest.length,
            tree.lookup ((rest.take k).foldl enter (enter start segment)) = some .directory := by
      constructor
      · intro h
        refine ⟨h 0 (by simp), fun k hk => h (k + 1) (by simpa using hk)⟩
      · rintro ⟨hstart, hrest⟩ k hk
        cases k with
        | zero => exact hstart
        | succ k => exact hrest k (by simpa using hk)
    rw [hsplit, walk]
    cases hlookup : tree.lookup start with
    | none => simp
    | some entry =>
      cases entry with
      | file bytes => simp
      | directory => simp [ih]

/-- A path leads to the place it resolves to exactly when the directories above it are there. -/
theorem place_eq_ok_iff (tree : FileTree) (path : Path) (place : Place) :
    tree.place path = .ok place ↔
      tree.resolve path = place ∧
        ∀ above ∈ path.parents, tree.lookup (tree.resolve above) = some .directory := by
  have habove : (∀ above ∈ path.parents, tree.lookup (tree.resolve above) = some .directory) ↔
      ∀ k < path.parts.length,
        tree.lookup ((path.parts.take k).foldl enter (tree.startOf path)) = some .directory := by
    constructor
    · intro h k hk
      exact h ⟨path.anchor, path.parts.take k⟩ (Path.mem_parents.mpr ⟨k, hk, rfl⟩)
    · rintro h above hmem
      obtain ⟨k, hk, rfl⟩ := Path.mem_parents.mp hmem
      exact h k hk
  rw [habove]
  exact walk_eq_ok_iff tree (tree.startOf path) place path.parts

/-! ## Trees that grow by directories -/

/-- Whether a tree differs from the one before by new directories only, and has them at some of
the given places. -/
structure Grows (before after : FileTree) (places : List Place) : Prop where
  workingDirectory : after.workingDirectory = before.workingDirectory
  lookup : ∀ place, after.lookup place = before.lookup place ∨
    place ∈ places ∧ before.lookup place = none ∧ after.lookup place = some .directory

namespace Grows

variable {before middle after : FileTree} {places others : List Place}

theorem refl (tree : FileTree) (places : List Place) : Grows tree tree places :=
  ⟨rfl, fun _ => .inl rfl⟩

/-- A tree that grows twice grows. -/
theorem trans (h₁ : Grows before middle places) (h₂ : Grows middle after places) :
    Grows before after places := by
  refine ⟨h₂.workingDirectory.trans h₁.workingDirectory, fun place => ?_⟩
  rcases h₂.lookup place with hsame | ⟨hmem, hnone, hnew⟩
  · rw [hsame]
    exact h₁.lookup place
  · rcases h₁.lookup place with hsame | ⟨-, -, hmiddle⟩
    · exact .inr ⟨hmem, hsame ▸ hnone, hnew⟩
    · simp [hmiddle] at hnone

/-- It may grow at more places. -/
theorem mono (h : Grows before after places) (hsub : places ⊆ others) :
    Grows before after others := by
  refine ⟨h.workingDirectory, fun place => ?_⟩
  rcases h.lookup place with hsame | ⟨hmem, hrest⟩
  · exact .inl hsame
  · exact .inr ⟨hsub hmem, hrest⟩

/-- A path resolves to the same place, which depends on the working directory only. -/
theorem resolve (h : Grows before after places) (path : Path) :
    after.resolve path = before.resolve path := by
  simp only [FileTree.resolve, startOf, h.workingDirectory]

/-- The regular files stay as they are. -/
theorem file_iff (h : Grows before after places) (place : Place) (bytes : List UInt8) :
    after.lookup place = some (.file bytes) ↔ before.lookup place = some (.file bytes) := by
  rcases h.lookup place with hsame | ⟨-, hnone, hnew⟩
  · rw [hsame]
  · simp [hnone, hnew]

/-- What is a directory was one before, or is new at one of the places. -/
theorem directory_cases (h : Grows before after places) {place : Place}
    (hdir : after.lookup place = some .directory) :
    before.lookup place = some .directory ∨ before.lookup place = none ∧ place ∈ places := by
  rcases h.lookup place with hsame | ⟨hmem, hnone, -⟩
  · exact .inl (hsame ▸ hdir)
  · exact .inr ⟨hnone, hmem⟩

/-- A directory stays one. -/
theorem directory (h : Grows before after places) {place : Place}
    (hdir : before.lookup place = some .directory) : after.lookup place = some .directory := by
  rcases h.lookup place with hsame | ⟨-, hnone, -⟩
  · rw [hsame, hdir]
  · simp [hdir] at hnone

end Grows

/-! ## Making directories -/

/-- A directory that is made is new, and stands where its path resolves to. -/
theorem makeDirectory_ok {tree after : FileTree} {path : Path}
    (h : tree.makeDirectory path = .ok after) :
    Grows tree after [tree.resolve path] ∧
      after.lookup (tree.resolve path) = some .directory := by
  rw [makeDirectory] at h
  cases hplace : tree.place path with
  | error cause => simp [hplace, bind, Except.bind] at h
  | ok place =>
    obtain ⟨hresolve, -⟩ := (place_eq_ok_iff ..).mp hplace
    simp only [hplace, bind, Except.bind] at h
    cases hlookup : tree.lookup place with
    | some entry => simp [hlookup] at h
    | none =>
      simp only [hlookup, Except.ok.injEq] at h
      subst h hresolve
      have hroot : tree.resolve path ≠ [] := by
        intro hroot
        simp [FileTree.lookup, hroot] at hlookup
      have hnew := lookup_insert_self tree .directory hroot
      refine ⟨⟨rfl, fun place => ?_⟩, hnew⟩
      by_cases hplace : place = tree.resolve path
      · subst hplace
        exact .inr ⟨by simp, hlookup, hnew⟩
      · exact .inl (lookup_insert_of_ne tree _ hplace)

@[simp]
theorem directoryOutcome_tree (tree : FileTree) (path : Path) (cause : FileCause) :
    (tree.directoryOutcome path cause).1 = tree := by
  rw [directoryOutcome]
  split <;> rfl

/-- A directory that was there already stands where its path resolves to. -/
theorem lookup_of_directoryOutcome {tree : FileTree} {path : Path} {cause : FileCause}
    (h : (tree.directoryOutcome path cause).2 = .ok ()) :
    tree.lookup (tree.resolve path) = some .directory := by
  rw [directoryOutcome] at h
  split at h
  · rename_i hdir
    have hentry : tree.entry? path = some .directory := by simpa [isDirectory] using hdir.2
    rw [ entry?] at hentry
    split at hentry
    · rename_i place hplace
      rw [((place_eq_ok_iff ..).mp hplace).1, hentry]
    · cases hentry
  · cases h

/-- Making directories adds directories of the path and above it only, also where it fails. -/
theorem makeDirectories_grows (tree : FileTree) (path : Path) :
    Grows tree (tree.makeDirectories path).1 ((path :: path.parents).map tree.resolve) := by
  -- The places above a path that has a name include those above its directory.
  have habove : ∀ path : Path, path.parts ≠ [] →
      (path.parent :: path.parent.parents).map tree.resolve ⊆
        (path :: path.parents).map tree.resolve := by
    intro path hparts
    rw [← Path.parents_eq_cons hparts]
    simp
  fun_induction makeDirectories tree path with
  | case1 path after hmade => exact (makeDirectory_ok hmade).1.mono (by simp)
  | case2 path cause hfailed hmissing after error hparent ih =>
    rw [hparent] at ih
    exact ih.mono (habove path hmissing.2)
  | case3 path cause hfailed hmissing middle hparent after hmade ih =>
    rw [hparent] at ih
    have hstep := (makeDirectory_ok hmade).1
    rw [ih.resolve] at hstep
    exact (ih.mono (habove path hmissing.2)).trans (hstep.mono (by simp))
  | case4 path cause hfailed hmissing middle hparent again hmade ih =>
    rw [hparent] at ih
    rw [directoryOutcome_tree]
    exact ih.mono (habove path hmissing.2)
  | case5 path cause hfailed hother =>
    rw [directoryOutcome_tree]
    exact .refl ..

/-- Where making directories succeeds, the path resolves to a directory. -/
theorem lookup_of_makeDirectories (tree : FileTree) (path : Path) :
    (tree.makeDirectories path).2 = .ok () →
      (tree.makeDirectories path).1.lookup (tree.resolve path) = some .directory := by
  fun_cases makeDirectories tree path with
  | case1 after hmade => exact fun _ => (makeDirectory_ok hmade).2
  | case2 cause hfailed hmissing after error hparent =>
    intro h
    cases h
  | case3 cause hfailed hmissing middle hparent after hmade =>
    have hgrows := makeDirectories_grows tree path.parent
    rw [hparent] at hgrows
    rw [← hgrows.resolve]
    exact fun _ => (makeDirectory_ok hmade).2
  | case4 cause hfailed hmissing middle hparent again hmade =>
    have hgrows := makeDirectories_grows tree path.parent
    rw [hparent] at hgrows
    rw [directoryOutcome_tree, ← hgrows.resolve]
    exact lookup_of_directoryOutcome
  | case5 cause hfailed hother =>
    rw [directoryOutcome_tree]
    exact lookup_of_directoryOutcome

/-! ## Writing -/

/-- What a file that was written leaves of the tree before: the path leads to the file, the other
files are unchanged, and the directories are those from before and those above the file. -/
structure Written (before after : FileTree) (path : Path) (bytes : List UInt8) : Prop where
  read : after.read path = .ok bytes
  file : after.lookup (before.resolve path) = some (.file bytes)
  otherFile : ∀ place ≠ before.resolve path, ∀ content,
    after.lookup place = some (.file content) ↔ before.lookup place = some (.file content)
  directory : ∀ place, after.lookup place = some .directory ↔
    before.lookup place = some .directory ∨
      before.lookup place = none ∧ ∃ above ∈ path.parents, before.resolve above = place

/-- A text that cannot be written leaves all files as they are. -/
theorem writeText_error {tree : FileTree} {path : Path} {text : String} {error : FileError}
    (h : (tree.writeText path text).2 = .error error) :
    ∃ places, Grows tree (tree.writeText path text).1 places := by
  have hgrows := makeDirectories_grows tree path.parent
  simp only [writeText] at h ⊢
  rcases hmade : tree.makeDirectories path.parent with ⟨middle, failed | _⟩
  · simp only [hmade] at hgrows ⊢
    exact ⟨_, hgrows⟩
  · simp only [hmade] at h hgrows ⊢
    cases hwrite : middle.write path (Utf8.encode text.toList) with
    | error error => exact ⟨_, hgrows⟩
    | ok after => simp [hwrite] at h

/-- A file is written where its path leads, which is to no directory. -/
theorem write_ok {tree after : FileTree} {path : Path} {bytes : List UInt8}
    (h : tree.write path bytes = .ok after) :
    tree.place path = .ok (tree.resolve path) ∧
      tree.lookup (tree.resolve path) ≠ some .directory ∧
      after = tree.insert (tree.resolve path) (.file bytes) := by
  rw [write] at h
  cases hplace : tree.place path with
  | error cause => simp [hplace] at h
  | ok place =>
    have hresolve := ((place_eq_ok_iff ..).mp hplace).1
    subst hresolve
    simp only [hplace] at h
    split at h
    · cases h
    · rename_i hfree
      exact ⟨rfl, hfree, (Except.ok.inj h).symm⟩

/-- Where a path leads, an entry can be set without changing where it leads, unless a directory
is there. -/
theorem place_insert {tree : FileTree} {path : Path} {place : Place}
    (h : tree.place path = .ok place) (hfree : tree.lookup place ≠ some .directory)
    (entry : Entry) : (tree.insert place entry).place path = .ok place := by
  obtain ⟨hresolve, habove⟩ := (place_eq_ok_iff ..).mp h
  refine (place_eq_ok_iff ..).mpr ⟨hresolve, fun above hmem => ?_⟩
  have hne : tree.resolve above ≠ place := by
    intro heq
    exact hfree (heq ▸ habove above hmem)
  have hsame : (tree.insert place entry).resolve above = tree.resolve above := rfl
  rw [hsame, lookup_insert_of_ne tree entry hne, habove above hmem]

/-- A text that was written: the directories above the path are made, and then the path leads to
a place that is no directory and gets the file. -/
theorem writeText_ok {tree : FileTree} {path : Path} {text : String}
    (h : (tree.writeText path text).2 = .ok ()) :
    ∃ middle, Grows tree middle (path.parents.map tree.resolve) ∧
      middle.place path = .ok (tree.resolve path) ∧
      middle.lookup (tree.resolve path) ≠ some .directory ∧
      (tree.writeText path text).1 =
        middle.insert (tree.resolve path) (.file (Utf8.encode text.toList)) := by
  have hgrows := makeDirectories_grows tree path.parent
  have hdir := lookup_of_makeDirectories tree path.parent
  simp only [writeText] at h ⊢
  rcases hmade : tree.makeDirectories path.parent with ⟨middle, failed | _⟩
  · simp [hmade] at h
  · simp only [hmade, forall_const] at h hgrows hdir ⊢
    cases hwrite : middle.write path (Utf8.encode text.toList) with
    | error error => simp [hwrite] at h
    | ok after =>
      obtain ⟨hplace, hfree, hafter⟩ := write_ok hwrite
      rw [hgrows.resolve] at hplace hfree hafter
      have hparts : path.parts ≠ [] := by
        intro hparts
        have hself : path.parent = path := by
          cases path
          simp_all [Path.parent]
        exact hfree (hself ▸ hdir)
      refine ⟨middle, ?_, hplace, hfree, hafter⟩
      rw [Path.parents_eq_cons hparts]
      exact hgrows

/-- A text that was written leaves its bytes in a file at its path, and nothing else but missing
directories above that. -/
theorem writeText_written {tree : FileTree} {path : Path} {text : String}
    (h : (tree.writeText path text).2 = .ok ()) :
    Written tree (tree.writeText path text).1 path (Utf8.encode text.toList) := by
  obtain ⟨middle, hgrows, hplace, hfree, hafter⟩ := writeText_ok h
  obtain ⟨-, habove⟩ := (place_eq_ok_iff ..).mp hplace
  simp only [hgrows.resolve] at habove
  rw [hafter]
  have hroot : tree.resolve path ≠ [] := by
    intro hroot
    exact hfree (by simp [FileTree.lookup, hroot])
  have hself := lookup_insert_self middle (.file (Utf8.encode text.toList)) hroot
  have hother : ∀ place ≠ tree.resolve path,
      (middle.insert (tree.resolve path) (.file (Utf8.encode text.toList))).lookup place =
        middle.lookup place :=
    fun place hne => lookup_insert_of_ne middle _ hne
  -- A directory above the path is not the place of the file, which is no directory.
  have hne : ∀ above ∈ path.parents, tree.resolve above ≠ tree.resolve path := by
    intro above hmem heq
    exact hfree (heq ▸ habove above hmem)
  refine ⟨?_, hself, ?_, ?_⟩
  · rw [read, place_insert hplace hfree]
    simp only [hself]
  · intro place hplace content
    rw [hother place hplace]
    exact hgrows.file_iff place content
  · intro place
    by_cases hplace : place = tree.resolve path
    · subst hplace
      have hbefore : tree.lookup (tree.resolve path) ≠ some .directory :=
        fun hdir => hfree (hgrows.directory hdir)
      have hno : ¬ ∃ above ∈ path.parents, tree.resolve above = tree.resolve path := by
        rintro ⟨above, hmem, heq⟩
        exact hne above hmem heq
      simp [hself, hbefore, hno]
    · rw [hother place hplace]
      constructor
      · intro hdir
        rcases hgrows.directory_cases hdir with hold | ⟨hnone, hmem⟩
        · exact .inl hold
        · exact .inr ⟨hnone, List.mem_map.mp hmem⟩
      · rintro (hold | ⟨-, above, hmem, rfl⟩)
        · exact hgrows.directory hold
        · exact habove above hmem

end FileTree

/-! ## Generations -/

namespace Generate

variable {parse : Extract.SyntaxParser} {tree : FileTree} {request : Request}

/-- The tree that a run leaves depends on the outcome of planning and on writing only. -/
theorem run_tree (parse : Extract.SyntaxParser) (tree : FileTree) (request : Request) :
    (run parse tree request).tree =
      match (plan parse tree request).2 with
      | .error _ => tree
      | .ok ready =>
        if request.write then (tree.writeText ready.testPath ready.testCode).1 else tree := by
  rw [run]
  rcases plan parse tree request with ⟨log, failed | ready⟩
  · simp
  · simp only
    split
    · rcases tree.writeText ready.testPath ready.testCode with ⟨after, error | _⟩
      · simp
      · rfl
    · rfl

/-- A plan names its test file as its framework asks. -/
theorem testPathFor_of_plan {ready : Plan} (h : (plan parse tree request).2 = .ok ready) :
    testPathFor request ready.framework = .ok ready.testPath := by
  obtain ⟨source, model, hpassed⟩ := passed_of_plan h
  exact hpassed.path_eq

/-- The path of a test file is normal, whether the request gives it or the source. -/
theorem testPathFor_isNormal {framework : String} {path : Path}
    (h : testPathFor request framework = .ok path) : path.IsNormal := by
  simp only [testPathFor] at h
  split at h
  · cases h
    exact Path.ofString_isNormal _
  · split at h
    · rename_i test htest
      cases h
      exact Project.testPath_isNormal (Path.ofString_isNormal _) htest
    · cases h

/-- A tree with an empty source and a file that stands in the way of a directory. -/
def blockedTree : FileTree where
  entries := [(["a.ts"], .file []), (["taken"], .file [1, 2])]

end Generate
end TestScaffold
