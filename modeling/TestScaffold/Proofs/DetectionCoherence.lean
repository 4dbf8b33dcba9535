import TestScaffold.Proofs.DetectionFrame
import TestScaffold.Proofs.GenerationOutcome
import TestScaffold.Proofs.JsonRoundTrip
import TestScaffold.Proofs.Legibility
import TestScaffold.Proofs.ModelCheck

/-!
# What detection tells fits together

A manifest lists dependencies twice, and the entry for development overrides the
other, also with a value that does not count.  The two lists are merged by
setting the members of one in the other, which comes to looking a name up in one
and then in the other only because no object that was read has two members of
one name.

Two tables tell the kind of the project and its framework from the merged
entries: the first row with an entry that counts, and the first such entry in it.
A row is told exactly when an entry that counts is, so each of the two answers
tells whether there is the other.

Main results:

- Theorem `Json.parse_namesDistinct`: no object that is read has two members of one
  name.
- Theorem `Project.member?_dependencies`: the merged dependencies of a manifest.
- Theorem `Project.firstRow?_told`: what a table of dependencies tells.
- Theorem `Project.detect_coherent`: what detection tells about a project fits
  together, and a framework that suites can be written for follows from it.
-/

namespace TestScaffold

/-! ## Objects with distinct names -/

namespace Json

/-- Whether no object in a value has two members of one name. -/
inductive NamesDistinct : Json → Prop
  | null : NamesDistinct .null
  | bool (value : Bool) : NamesDistinct (.bool value)
  | int (value : Int) : NamesDistinct (.int value)
  | real (value : Binary64) : NamesDistinct (.real value)
  | str (value : RawText) : NamesDistinct (.str value)
  | arr {items : List Json} (items_distinct : ∀ item ∈ items, NamesDistinct item) :
    NamesDistinct (.arr items)
  | obj {members : List (RawText × Json)} (nodup : (members.map (·.1)).Nodup)
    (values_distinct : ∀ member ∈ members, NamesDistinct member.2) : NamesDistinct (.obj members)

/-- The first member of a name is the one that is found. -/
theorem member?_cons (first name : RawText) (value : Json) (rest : List (RawText × Json)) :
    member? ((first, value) :: rest) name =
      if first = name then some value else member? rest name := by
  unfold member?
  by_cases h : first = name
  · simp [h]
  · simp [h]

/-- A member that is found is one of the members. -/
theorem mem_of_member?_eq_some {members : List (RawText × Json)} {name : RawText} {value : Json}
    (h : member? members name = some value) : (name, value) ∈ members := by
  obtain ⟨member, hfind, rfl⟩ := Option.map_eq_some_iff.mp h
  have hname : member.1 = name := by simpa using List.find?_some hfind
  exact hname ▸ List.mem_of_find?_eq_some hfind

/-- A name that no member has is not found. -/
theorem member?_eq_none {members : List (RawText × Json)} {name : RawText}
    (h : name ∉ members.map (·.1)) : member? members name = none := by
  cases hfound : member? members name with
  | none => rfl
  | some value => exact absurd (List.mem_map_of_mem (mem_of_member?_eq_some hfound)) h

/-- Setting a member changes no other. -/
theorem member?_insertMember_of_ne {members : List (RawText × Json)} {name other : RawText}
    (h : other ≠ name) (value : Json) :
    member? (insertMember members name value) other = member? members other := by
  induction members with
  | nil => simp [insertMember, member?_cons, Ne.symm h]
  | cons member rest ih =>
    obtain ⟨first, old⟩ := member
    rw [insertMember]
    split
    · rename_i hfirst
      simp [member?_cons, hfirst, Ne.symm h]
    · simp [member?_cons, ih]

/-- Setting the members of one list in another: a name is looked up in the one, and then in the
other. -/
theorem member?_foldl_insertMember {later : List (RawText × Json)}
    (h : (later.map (·.1)).Nodup) (earlier : List (RawText × Json)) (name : RawText) :
    member? (later.foldl (fun all m => insertMember all m.1 m.2) earlier) name =
      (member? later name).or (member? earlier name) := by
  induction later generalizing earlier with
  | nil => simp
  | cons member rest ih =>
    obtain ⟨first, value⟩ := member
    simp only [List.map_cons, List.nodup_cons] at h
    rw [List.foldl_cons, ih h.2, member?_cons]
    by_cases hfirst : first = name
    · -- The name is set here and, since it is not in the rest, not again.
      subst hfirst
      simp [member?_eq_none h.1, member?_insertMember]
    · simp [hfirst, member?_insertMember_of_ne (Ne.symm hfirst)]

/-- Setting a member brings in no value but its own. -/
theorem mem_insertMember {members : List (RawText × Json)} {name : RawText} {value : Json}
    {member : RawText × Json} (h : member ∈ insertMember members name value) :
    member ∈ members ∨ member.2 = value := by
  induction members with
  | nil =>
    rw [insertMember, List.mem_singleton] at h
    exact .inr (h ▸ rfl)
  | cons head rest ih =>
    obtain ⟨first, old⟩ := head
    rw [insertMember] at h
    split at h
    · rcases List.mem_cons.mp h with rfl | hrest
      · exact .inr rfl
      · exact .inl (List.mem_cons_of_mem _ hrest)
    · rcases List.mem_cons.mp h with rfl | hrest
      · exact .inl List.mem_cons_self
      · exact (ih hrest).imp_left (List.mem_cons_of_mem _)

/-- Setting a member keeps the names distinct. -/
theorem NamesDistinct.insertMember {members : List (RawText × Json)}
    (h : NamesDistinct (.obj members)) {value : Json} (hvalue : NamesDistinct value)
    (name : RawText) : NamesDistinct (.obj (insertMember members name value)) := by
  cases h with
  | obj nodup values_distinct =>
    refine .obj ?_ ?_
    · by_cases hname : name ∈ members.map (·.1)
      · rwa [insertMember_keys members name value hname]
      · rw [insertMember_of_not_mem hname, List.map_append, List.map_singleton]
        exact List.nodup_append_comm.mp (List.nodup_cons.mpr ⟨hname, nodup⟩)
    · intro member hmember
      rcases mem_insertMember hmember with hold | hnew
      · exact values_distinct member hold
      · exact hnew ▸ hvalue

/-! ## Reading objects -/

variable {limit : Option Nat}

/-- A number has no members. -/
theorem readUnsigned_namesDistinct {negative : Bool} {cs rest : List Char} {value : Json}
    (h : readUnsigned limit negative cs = .ok (value, rest)) : NamesDistinct value := by
  unfold readUnsigned at h
  split at h
  · cases h
  · dsimp only at h
    split at h
    · split at h
      · cases h
      · cases h
        exact .int _
    · cases h
      exact .real _

/-- Neither has a word. -/
theorem readAtom_namesDistinct {cs rest : List Char} {value : Json}
    (h : readAtom limit cs = .ok (value, rest)) : NamesDistinct value := by
  unfold readAtom at h
  split at h
  · rename_i found hfound
    obtain rfl := Except.ok.inj h
    obtain ⟨⟨word, value⟩, hword, hafter⟩ := List.exists_of_findSome?_eq_some hfound
    obtain ⟨rest, -, heq⟩ := Option.map_eq_some_iff.mp hafter
    cases heq
    simp only [words, List.mem_cons, Prod.mk.injEq, List.not_mem_nil, or_false] at hword
    rcases hword with ⟨-, rfl⟩ | ⟨-, rfl⟩ | ⟨-, rfl⟩ | ⟨-, rfl⟩ | ⟨-, rfl⟩ | ⟨-, rfl⟩ <;>
      constructor
  · split at h
    · exact readUnsigned_namesDistinct h
    · exact readUnsigned_namesDistinct h

/-- Whether everything that is read with some fuel has distinct names. -/
structure ReadsDistinct (limit : Option Nat) (fuel : Nat) : Prop where
  value : ∀ {cs rest value}, readValue limit fuel cs = .ok (value, rest) → NamesDistinct value
  items : ∀ {cs rest items}, readItems limit fuel cs = .ok (items, rest) →
    ∀ item ∈ items, NamesDistinct item
  members : ∀ {before cs rest members}, NamesDistinct (.obj before) →
    readMembers limit fuel before cs = .ok (members, rest) → NamesDistinct (.obj members)

namespace ReadsDistinct

variable {fuel : Nat} (h : ReadsDistinct limit fuel)
include h

/-- A value has distinct names if what is read inside it has. -/
theorem value_succ {cs rest : List Char} {value : Json}
    (hread : readValue limit (fuel + 1) cs = .ok (value, rest)) : NamesDistinct value := by
  cases cs with
  | nil => cases hread
  | cons c tail =>
    rw [readValue] at hread
    split at hread
    · obtain ⟨found, -, hread⟩ := exists_of_bind_eq_ok hread
      cases hread
      exact .str _
    · split at hread
      · split at hread
        · cases hread
          exact .arr (by simp)
        · obtain ⟨found, hitems, hread⟩ := exists_of_bind_eq_ok hread
          cases hread
          exact .arr (h.items hitems)
      · split at hread
        · split at hread
          · cases hread
            exact .obj (by simp) (by simp)
          · obtain ⟨found, hmembers, hread⟩ := exists_of_bind_eq_ok hread
            cases hread
            exact h.members (.obj (by simp) (by simp)) hmembers
        · exact readAtom_namesDistinct hread

/-- So have the items of an array. -/
theorem items_succ {cs rest : List Char} {items : List Json}
    (hread : readItems limit (fuel + 1) cs = .ok (items, rest)) :
    ∀ item ∈ items, NamesDistinct item := by
  rw [readItems] at hread
  obtain ⟨⟨first, after⟩, hfirst, hread⟩ := exists_of_bind_eq_ok hread
  have hfirst := h.value hfirst
  dsimp only at hread
  split at hread
  · cases hread
    simpa using hfirst
  · obtain ⟨⟨others, after⟩, hothers, hread⟩ := exists_of_bind_eq_ok hread
    cases hread
    intro item hitem
    rcases List.mem_cons.mp hitem with rfl | hitem
    · exact hfirst
    · exact h.items hothers item hitem
  · cases hread

/-- So have the members of an object, in which a later member takes the place of an earlier one. -/
theorem members_succ {before : List (RawText × Json)} {cs rest : List Char}
    {members : List (RawText × Json)} (hbefore : NamesDistinct (.obj before))
    (hread : readMembers limit (fuel + 1) before cs = .ok (members, rest)) :
    NamesDistinct (.obj members) := by
  unfold readMembers at hread
  split at hread
  · cases hread
  · rename_i less tail hless
    obtain rfl : fuel = less := Nat.succ.inj hless
    obtain ⟨⟨name, named⟩, -, hread⟩ := exists_of_bind_eq_ok hread
    dsimp only at hread
    split at hread
    · obtain ⟨⟨value, after⟩, hvalue, hread⟩ := exists_of_bind_eq_ok hread
      have hset := hbefore.insertMember (h.value hvalue) name
      dsimp only at hread
      split at hread
      · cases hread
        exact hset
      · exact h.members hset hread
      · cases hread
    · cases hread
  · cases hread

end ReadsDistinct

/-- The readers give values with distinct names, whatever their fuel. -/
theorem readsDistinct (limit : Option Nat) (fuel : Nat) : ReadsDistinct limit fuel := by
  induction fuel with
  | zero =>
    refine ⟨?_, ?_, ?_⟩
    · intro cs rest value h
      simp [readValue] at h
    · intro cs rest items h
      simp [readItems] at h
    · intro before cs rest members _ h
      simp [readMembers] at h
  | succ fuel ih => exact ⟨ih.value_succ, ih.items_succ, ih.members_succ⟩

/-- No object that is read has two members of one name. -/
theorem parse_namesDistinct {cs : List Char} {value : Json} (h : parse cs = .ok value) :
    NamesDistinct value := by
  obtain ⟨⟨found, rest⟩, hread, h⟩ := exists_of_bind_eq_ok h
  dsimp only at h
  split at h
  · cases h
    exact (readsDistinct _ _).value hread
  · cases h

end Json

/-! ## Merged dependencies -/

namespace Project

/-- The entry of a name in the merged dependencies of a manifest: that for development, if there is
one, and else the other. -/
def mergedEntry? (manifest : Json) (name : String) : Option Json :=
  ((manifest.get? "devDependencies").bind (·.get? name)).or
    ((manifest.get? "dependencies").bind (·.get? name))

section Merged

variable {members listed : List (RawText × Json)} {list : String}

/-- A list of dependencies is looked up in the manifest, and a name in the list. -/
theorem member?_dependenciesIn (h : dependenciesIn members list = .ok listed) (name : String) :
    Json.member? listed (CodePoint.ofString name) =
      ((Json.obj members).get? list).bind (·.get? name) := by
  unfold dependenciesIn at h
  simp only [Json.get?]
  split at h
  · rename_i hnone
    cases h
    simp [hnone]
  · rename_i found hfound
    cases h
    simp [hfound]
  · rename_i value hother hfound
    split at h
    · cases h
    · cases h
      cases value with
      | obj found => exact absurd rfl (hother found)
      | null | bool _ | int _ | real _ | str _ | arr _ => simp [hfound]

/-- A list of dependencies that was read has distinct names. -/
theorem nodup_dependenciesIn (hmembers : Json.NamesDistinct (.obj members))
    (h : dependenciesIn members list = .ok listed) : (listed.map (·.1)).Nodup := by
  unfold dependenciesIn at h
  split at h
  · cases h
    simp
  · rename_i found hfound
    cases h
    cases hmembers with
    | obj _ values_distinct =>
      cases values_distinct _ (Json.mem_of_member?_eq_some hfound) with
      | obj nodup _ => exact nodup
  · split at h
    · cases h
    · cases h
      simp

/-- The merged dependencies of a manifest: the entry for development overrides the other. -/
theorem member?_dependencies {all : List (RawText × Json)}
    (hmembers : Json.NamesDistinct (.obj members)) (h : dependencies members = .ok all)
    (name : String) :
    Json.member? all (CodePoint.ofString name) = mergedEntry? (.obj members) name := by
  obtain ⟨plain, hplain, h⟩ := exists_of_bind_eq_ok h
  obtain ⟨development, hdevelopment, h⟩ := exists_of_bind_eq_ok h
  cases h
  rw [Json.member?_foldl_insertMember (nodup_dependenciesIn hmembers hdevelopment),
    member?_dependenciesIn hplain, member?_dependenciesIn hdevelopment, mergedEntry?]

end Merged

/-! ## Rows of a table -/

/-- Whether a manifest has an entry of a name that counts. -/
def HasEntry (manifest : Json) (name : String) : Prop :=
  ∃ value, mergedEntry? manifest name = some value ∧ value.isTruthy = true

/-- What a table of dependencies tells about a manifest.  A row is told exactly when a version that
counts is; then it is the first row with an entry that counts, and the version is the first such
entry in it.  No row is told where no row has one. -/
structure Told {α : Type} (manifest : Json) (table : List (α × List String)) (unknown row : α)
    (version : Json) : Prop where
  isTruthy_iff : row ≠ unknown ↔ version.isTruthy = true
  first : row ≠ unknown → ∃ names name,
    Suite.IsFirst (fun line => ∃ name ∈ line.2, HasEntry manifest name) table (row, names) ∧
      Suite.IsFirst (HasEntry manifest) names name ∧ mergedEntry? manifest name = some version
  none : row = unknown → ∀ line ∈ table, ∀ name ∈ line.2, ¬ HasEntry manifest name

section Rows

variable {manifest : Json} {all : List (RawText × Json)}
  (hall : ∀ name, Json.member? all (CodePoint.ofString name) = mergedEntry? manifest name)
include hall

/-- The value of a dependency that the manifest has an entry for. -/
theorem dependency_eq {name : String} {value : Json} (h : mergedEntry? manifest name = some value) :
    dependency all name = value := by
  rw [dependency, hall, h, Option.getD_some]

/-- A dependency counts exactly when the manifest has an entry of it that does. -/
theorem isTruthy_dependency_iff (name : String) :
    (dependency all name).isTruthy = true ↔ HasEntry manifest name := by
  rw [dependency, hall, HasEntry]
  cases mergedEntry? manifest name <;> simp [Json.isTruthy]

/-- A dependency that counts has an entry with its value. -/
theorem mergedEntry?_of_isTruthy {name : String} (h : (dependency all name).isTruthy = true) :
    mergedEntry? manifest name = some (dependency all name) := by
  obtain ⟨value, hvalue, -⟩ := (isTruthy_dependency_iff hall name).mp h
  rw [dependency_eq hall hvalue, hvalue]

/-- The first dependency that counts is the first name with an entry that does. -/
theorem firstDependency?_isFirst {names : List String} {name : String}
    (h : firstDependency? all names = some name) :
    Suite.IsFirst (HasEntry manifest) names name := by
  obtain ⟨hname, before, after, hnames, hbefore⟩ := List.find?_eq_some_iff_append.mp h
  refine ⟨before, after, hnames, (isTruthy_dependency_iff hall name).mp hname, ?_⟩
  intro other hother hentry
  simpa [(isTruthy_dependency_iff hall other).mpr hentry] using hbefore other hother

/-- No dependency of a row counts exactly when none of its names has an entry that does. -/
theorem firstDependency?_eq_none_iff (names : List String) :
    firstDependency? all names = none ↔ ¬ ∃ name ∈ names, HasEntry manifest name := by
  simp only [firstDependency?, List.find?_eq_none, isTruthy_dependency_iff hall, not_exists, not_and]

/-- What a table tells, if no row of it stands for the unknown and the version of a row is that of
the dependency which told it. -/
theorem firstRow?_told {α : Type} {table : List (α × List String)} {unknown : α}
    (hunknown : ∀ line ∈ table, line.1 ≠ unknown) {absent : Json}
    (habsent : absent.isTruthy = false) {version : List String → String → Json}
    (hversion : ∀ {names name}, firstDependency? all names = some name →
      version names name = dependency all name) :
    Told manifest table unknown ((firstRow? all table).elim unknown (·.1))
      ((firstRow? all table).elim absent fun found => version found.2.1 found.2.2) := by
  cases hfound : firstRow? all table with
  | none =>
    have hrows := List.findSome?_eq_none_iff.mp hfound
    simp only [Option.map_eq_none_iff, firstDependency?_eq_none_iff hall] at hrows
    refine ⟨by simp [habsent], by simp, ?_⟩
    intro _ line hline name hname hentry
    exact hrows line hline ⟨name, hname, hentry⟩
  | some found =>
    obtain ⟨before, ⟨row, names⟩, after, htable, hrow, hbefore⟩ :=
      List.findSome?_eq_some_iff.mp hfound
    obtain ⟨name, hname, rfl⟩ := Option.map_eq_some_iff.mp hrow
    have htruthy : (dependency all name).isTruthy = true := by simpa using List.find?_some hname
    have hne : row ≠ unknown := hunknown (row, names) (by simp [htable])
    simp only [Option.elim_some, hversion hname]
    refine ⟨by simp [hne, htruthy], ?_, fun hrow => absurd hrow hne⟩
    intro _
    refine ⟨names, name, ⟨before, after, htable, ?_, ?_⟩, firstDependency?_isFirst hall hname,
      mergedEntry?_of_isTruthy hall htruthy⟩
    · exact ⟨name, List.mem_of_find?_eq_some hname, (isTruthy_dependency_iff hall name).mp htruthy⟩
    · intro line hline
      have hnone := Option.map_eq_none_iff.mp (hbefore line hline)
      exact (firstDependency?_eq_none_iff hall line.2).mp hnone

end Rows

/-! ## What the dependencies and the files tell -/

section InfoOf

variable (tree : FileTree) (directory : Path) (all : List (RawText × Json))

/-- The configuration files of tests come first, each once and in the order of their table; that of
a project of the kind that may have one follows. -/
theorem configFiles_infoOf :
    ∃ held : List String, held.Sublist testConfigFiles ∧ held.Nodup ∧
      ((infoOf tree directory all).configFiles = held ∨
        (infoOf tree directory all).kind = .angular ∧
          (infoOf tree directory all).configFiles = held ++ [angularConfigFile]) := by
  have hnodup : testConfigFiles.Nodup := by decide
  refine ⟨testConfigFiles.filter (holds tree directory), List.filter_sublist, hnodup.filter _, ?_⟩
  simp only [infoOf]
  split
  · rename_i hangular
    right
    refine ⟨?_, rfl⟩
    cases hkind : firstRow? all kindDependencies with
    | none => simp [hkind] at hangular
    | some found => simp_all
  · simp

/-- A project has a test configuration exactly when it has one of the files for it. -/
theorem hasTestConfig_infoOf :
    (infoOf tree directory all).hasTestConfig = true ↔
      ∃ name ∈ testConfigFiles, name ∈ (infoOf tree directory all).configFiles := by
  have hangular : angularConfigFile ∉ testConfigFiles := by decide
  simp only [infoOf, Bool.not_eq_true', List.isEmpty_eq_false_iff_exists_mem, List.mem_append]
  constructor
  · rintro ⟨name, hname⟩
    exact ⟨name, List.mem_of_mem_filter hname, .inl hname⟩
  · rintro ⟨name, hname, hfile | hfile⟩
    · exact ⟨name, hfile⟩
    · split at hfile
      · exact absurd (List.mem_singleton.mp hfile ▸ hname) hangular
      · cases hfile

/-- What the two tables tell about the dependencies of a manifest. -/
theorem told_infoOf {members : List (RawText × Json)}
    (hmembers : Json.NamesDistinct (.obj members)) (hall : dependencies members = .ok all) :
    Told (.obj members) kindDependencies .unknown (infoOf tree directory all).kind
        (infoOf tree directory all).version ∧
      Told (.obj members) frameworkDependencies .none (infoOf tree directory all).framework
        (infoOf tree directory all).frameworkVersion := by
  have hentry := member?_dependencies hmembers hall
  exact ⟨firstRow?_told hentry (by decide) rfl fun _ => rfl,
    firstRow?_told hentry (by decide) rfl frameworkVersion_eq⟩

end InfoOf

/-! ## Detection -/

/-- Whether the manifest of a file's project can be used and has these members: it is a file, and
its text writes the object with them. -/
def HasManifest (tree : FileTree) (file : Path) (members : List (RawText × Json)) : Prop :=
  ∃ bytes cs, tree.read (Path.child ⟨.root, root tree file⟩ manifestName) = .ok bytes ∧
    Utf8.decode? bytes = some cs ∧ Json.parse cs = .ok (.obj members)

section Detection

variable {tree : FileTree} {file : Path} {log : Log} {info : Info}

/-- The members of a manifest are those that detection reads. -/
theorem hasManifest_iff (members : List (RawText × Json)) :
    HasManifest tree file members ↔
      readManifest tree (Path.child ⟨.root, root tree file⟩ manifestName) = .ok (.found members) :=
  (readManifest_found_iff tree _ members).symm

/-- A project has one manifest at most. -/
theorem HasManifest.unique {members others : List (RawText × Json)}
    (h : HasManifest tree file members) (h' : HasManifest tree file others) : members = others := by
  rw [hasManifest_iff] at h h'
  simpa [h] using h'

/-- Detection tells what the dependencies of a manifest do; without a manifest that can be used it
tells nothing but the package manager. -/
theorem detect_cases (h : detect tree file = .ok (log, info)) :
    (∃ members all, HasManifest tree file members ∧ dependencies members = .ok all ∧
      info = infoOf tree ⟨.root, root tree file⟩ all) ∨
    (∀ members, ¬ HasManifest tree file members) ∧
      info = { packageManager := packageManager tree ⟨.root, root tree file⟩ } := by
  obtain ⟨manifest, hmanifest, h⟩ := exists_of_bind_eq_ok h
  simp only [hasManifest_iff, hmanifest]
  cases manifest with
  | found members =>
    left
    obtain ⟨all, hall, h⟩ := exists_of_bind_eq_ok h
    cases h
    exact ⟨members, all, rfl, hall, rfl⟩
  | absent | unreadable _ | notObject =>
    right
    cases h
    simp

/-- A framework that is not asked for is one that a convention is chosen by. -/
theorem resolveFramework_accepted {filePath : String}
    (h : detect tree (.ofString filePath) = .ok (log, info)) {asked : Option String}
    (hasked : asked.getD "" = "") :
    ∃ framework, (Generate.resolveFramework tree filePath asked).2 = .ok framework ∧
      (Convention.ofFramework? framework).isSome = true := by
  have haccepted : ∀ framework ∈ supported,
      (Convention.ofFramework? framework.name).isSome = true := by
    decide +kernel
  refine ⟨(recommended info).name, ?_, haccepted _ (recommended_supported info)⟩
  simp [Generate.resolveFramework, hasked, h]

/-- What detection tells about a project fits together, for every file tree and path where it gives
an answer.  The configuration files are some of those for tests, each once and in order, and then
at most the one of an Angular project; there is a test configuration exactly when one of the files
for it is there.  A kind, or a framework, is known exactly when its version counts, and then it is
the first row of its table with an entry that counts in the merged dependencies, and the version is
the first such entry in the row.  Without a manifest that can be used, all but the package manager
is as by default.  So where no framework is asked for, one is chosen that suites can be written
for. -/
theorem detect_coherent {filePath : String}
    (h : detect tree (.ofString filePath) = .ok (log, info)) :
    (∃ held : List String, held.Sublist testConfigFiles ∧ held.Nodup ∧
      (info.configFiles = held ∨
        info.kind = .angular ∧ info.configFiles = held ++ [angularConfigFile])) ∧
    (info.hasTestConfig = true ↔ ∃ name ∈ testConfigFiles, name ∈ info.configFiles) ∧
    (info.kind ≠ .unknown ↔ info.version.isTruthy = true) ∧
    (info.framework ≠ .none ↔ info.frameworkVersion.isTruthy = true) ∧
    (∀ members, HasManifest tree (.ofString filePath) members →
      Told (.obj members) kindDependencies .unknown info.kind info.version ∧
        Told (.obj members) frameworkDependencies .none info.framework info.frameworkVersion) ∧
    ((∀ members, ¬ HasManifest tree (.ofString filePath) members) →
      info = { packageManager := packageManager tree ⟨.root, root tree (.ofString filePath)⟩ }) ∧
    (∀ asked : Option String, asked.getD "" = "" →
      ∃ framework, (Generate.resolveFramework tree filePath asked).2 = .ok framework ∧
        (Convention.ofFramework? framework).isSome = true) := by
  have haccepted : ∀ asked : Option String, asked.getD "" = "" → _ :=
    fun _ hasked => resolveFramework_accepted h hasked
  rcases detect_cases h with ⟨members, all, hhas, hall, rfl⟩ | ⟨hnone, rfl⟩
  · have ⟨bytes, cs, _, _, hparse⟩ := hhas
    have htold := told_infoOf tree ⟨.root, root tree (.ofString filePath)⟩ all
      (Json.parse_namesDistinct hparse) hall
    refine ⟨configFiles_infoOf .., hasTestConfig_infoOf .., htold.1.isTruthy_iff,
      htold.2.isTruthy_iff, ?_, fun hnone => absurd hhas (hnone members), haccepted⟩
    intro others hothers
    exact hhas.unique hothers ▸ htold
  · refine ⟨⟨[], by simp⟩, by simp, ?_, ?_, fun members hhas => absurd hhas (hnone members),
      fun _ => rfl, haccepted⟩
    · simp [Json.text, CodePoint.ofString, Json.isTruthy]
    · simp [Json.isTruthy]

end Detection

/-- A project whose entries for development override others with values that do not count. -/
def overridingTree : FileTree where
  entries := [
    (["jasmine.json"], .file []),
    (["package.json"], .file (Utf8.encode (
      "\x7b\"dependencies\":\x7b\"next\":\"14\",\"react\":\"18\"\x7d," ++
      "\"devDependencies\":\x7b\"next\":\"\",\"karma\":0,\"karma-jasmine\":\"5\"\x7d\x7d").toList))]

/-- There the kind and the framework are told by entries that are not overridden so. -/
theorem detect_coherent_overridingTree :
    ∃ log info, detect overridingTree (.ofString "a.ts") = .ok (log, info) ∧
      info.kind = .react ∧ info.version.isTruthy = true ∧
      info.framework = .karma ∧ info.frameworkVersion.isTruthy = true ∧
      info.configFiles = ["jasmine.json"] ∧ info.hasTestConfig = true ∧
      ∃ framework, (Generate.resolveFramework overridingTree "a.ts" none).2 = .ok framework ∧
        (Convention.ofFramework? framework).isSome = true := by
  have hseen : (detect overridingTree (.ofString "a.ts")).toOption.map
      (fun found => (found.2.kind, found.2.framework, found.2.configFiles)) =
        some (.react, .karma, ["jasmine.json"]) := by
    decide +kernel
  cases hdetect : detect overridingTree (.ofString "a.ts") with
  | error failure => simp [hdetect, Except.toOption] at hseen
  | ok found =>
    obtain ⟨log, info⟩ := found
    simp only [hdetect, Except.toOption, Option.map_some, Option.some.injEq,
      Prod.mk.injEq] at hseen
    obtain ⟨hkind, hframework, hfiles⟩ := hseen
    obtain ⟨-, hconfig, hversion, hframeworkVersion, -, -, hresolve⟩ := detect_coherent hdetect
    refine ⟨log, info, rfl, hkind, hversion.mp (by simp [hkind]), hframework,
      hframeworkVersion.mp (by simp [hframework]), hfiles, hconfig.mpr ?_, hresolve none rfl⟩
    exact ⟨"jasmine.json", by decide, by simp [hfiles]⟩

end Project
end TestScaffold
