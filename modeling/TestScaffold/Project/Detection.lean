import TestScaffold.FileTree
import TestScaffold.Json.Reader
import TestScaffold.Log

/-!
# Project detection

The nearest `package.json` above a file tells what kind of project it belongs
to and which test framework the project uses; lock files tell the package
manager.

Main results:

- Theorem `Project.frameworkVersion_eq`: a framework has the version of the
  dependency that tells it.
- Theorem `Project.recommended_supported`: the recommended framework is one that
  suites can be written for.
-/

namespace TestScaffold
namespace Project

/-! ## Vocabulary -/

/-- The kind of a project. -/
inductive Kind where
  | angular
  | nextjs
  | react
  | unknown
deriving DecidableEq, Repr, Inhabited

/-- The name of a kind of project. -/
def Kind.name : Kind → String
  | .angular => "angular"
  | .nextjs => "nextjs"
  | .react => "react"
  | .unknown => "unknown"

/-- The kind with a name; any other name is of an unknown kind. -/
def Kind.ofName (name : String) : Kind :=
  ([Kind.angular, .nextjs, .react].find? (·.name == name)).getD .unknown

/-- A test framework that a project may use. -/
inductive Framework where
  | jest
  | karma
  | jasmine
  | vitest
  | none
deriving DecidableEq, Repr, Inhabited

/-- The name of a framework. -/
def Framework.name : Framework → String
  | .jest => "jest"
  | .karma => "karma"
  | .jasmine => "jasmine"
  | .vitest => "vitest"
  | .none => "none"

/-- The framework with a name; any other name is of no framework. -/
def Framework.ofName (name : String) : Framework :=
  ([Framework.jest, .karma, .jasmine, .vitest].find? (·.name == name)).getD .none

/-- A package manager. -/
inductive PackageManager where
  | npm
  | yarn
  | pnpm
deriving DecidableEq, Repr, Inhabited

/-- The name of a package manager. -/
def PackageManager.name : PackageManager → String
  | .npm => "npm"
  | .yarn => "yarn"
  | .pnpm => "pnpm"

/-- The package manager with a name; any other name is taken for npm. -/
def PackageManager.ofName (name : String) : PackageManager :=
  ([PackageManager.yarn, .pnpm].find? (·.name == name)).getD .npm

/-- What is known about a project. -/
structure Info where
  kind : Kind := .unknown
  version : Json := .text ""
  framework : Framework := .none
  frameworkVersion : Json := .null
  packageManager : PackageManager := .npm
  hasTestConfig : Bool := false
  configFiles : List String := []
deriving Repr, Inhabited

/-- The dependencies that mark each kind of project; the first kind that matches counts. -/
def kindDependencies : List (Kind × List String) :=
  [(.angular, ["@angular/core"]), (.nextjs, ["next"]), (.react, ["react"])]

/-- The dependencies that mark each framework; the first framework that matches counts. -/
def frameworkDependencies : List (Framework × List String) :=
  [(.jest, ["jest", "@jest/core"]), (.karma, ["karma", "karma-jasmine"]),
    (.jasmine, ["jasmine"]), (.vitest, ["vitest"])]

/-- The configuration files of test frameworks. -/
def testConfigFiles : List String :=
  ["jest.config.js", "jest.config.ts", "jest.config.json", "karma.conf.js", "jasmine.json",
    "vitest.config.js", "vitest.config.ts"]

/-- The configuration file of a project of the kind that may have one. -/
def angularConfigFile : String := "angular.json"

/-! ## The manifest -/

/-- The name of the manifest of a project. -/
def manifestName : String := "package.json"

/-- Why detection fails. -/
inductive Failure where
  /-- A list of dependencies is not an object. -/
  | dependenciesNotObject
  /-- A whole number in the manifest has too many digits. -/
  | tooManyDigits (count : Nat)
deriving DecidableEq, Repr

/-- What is found where a manifest should be. -/
inductive Manifest where
  /-- There is no file. -/
  | absent
  /-- The file cannot be read, for a reason. -/
  | unreadable (reason : String)
  /-- The file holds a value that is no object. -/
  | notObject
  /-- The members of the object that the file holds. -/
  | found (members : List (RawText × Json))
deriving Repr

/-- Reads a manifest. -/
def readManifest (tree : FileTree) (path : Path) : Except Failure Manifest :=
  match tree.read path with
  | .error error =>
    if error.cause = .notFound then .ok .absent else .ok (.unreadable error.message)
  | .ok bytes =>
    match Utf8.decode? bytes with
    | none => .ok (.unreadable "the file is not UTF-8 text")
    | some cs =>
      match Json.parse cs with
      | .error .malformed => .ok (.unreadable "the file is not JSON")
      | .error (.tooManyDigits count) => .error (.tooManyDigits count)
      | .ok (.obj members) => .ok (.found members)
      | .ok _ => .ok .notObject

/-- The dependencies under a name of the manifest; a value that does not count is none. -/
def dependenciesIn (members : List (RawText × Json)) (name : String) :
    Except Failure (List (RawText × Json)) :=
  match Json.member? members (CodePoint.ofString name) with
  | none => .ok []
  | some (.obj dependencies) => .ok dependencies
  | some value => if value.isTruthy then .error .dependenciesNotObject else .ok []

/-- The dependencies of a manifest; those for development override the others. -/
def dependencies (members : List (RawText × Json)) :
    Except Failure (List (RawText × Json)) := do
  let plain ← dependenciesIn members "dependencies"
  let development ← dependenciesIn members "devDependencies"
  return development.foldl (fun all m => Json.insertMember all m.1 m.2) plain

/-- The value of a dependency; null if there is none. -/
def dependency (all : List (RawText × Json)) (name : String) : Json :=
  (Json.member? all (CodePoint.ofString name)).getD .null

/-- The first dependency among some names whose value counts. -/
def firstDependency? (all : List (RawText × Json)) (names : List String) : Option String :=
  names.find? fun name => (dependency all name).isTruthy

/-- The first row of a table that has a dependency which counts: what the row stands for, its
names, and the first of them that counts. -/
def firstRow? {α : Type} (all : List (RawText × Json)) (table : List (α × List String)) :
    Option (α × List String × String) :=
  table.findSome? fun (row, names) =>
    (firstDependency? all names).map fun name => (row, names, name)

/-- The version of a framework: that of the first name in its row, if it counts, or else that of
the dependency which told the framework. -/
def frameworkVersion (all : List (RawText × Json)) (names : List String) (name : String) : Json :=
  let main := dependency all (names.headD name)
  if main.isTruthy then main else dependency all name

/-- The dependency that tells a framework is the one whose version it has. -/
theorem frameworkVersion_eq {all : List (RawText × Json)} {names : List String} {name : String}
    (h : firstDependency? all names = some name) :
    frameworkVersion all names name = dependency all name := by
  cases names with
  | nil => simp [firstDependency?] at h
  | cons first rest =>
    by_cases hfirst : (dependency all first).isTruthy = true
    · have hname : first = name := by simpa [firstDependency?, hfirst] using h
      simp [frameworkVersion, hname]
    · simp [frameworkVersion, hfirst]

/-! ## Detection -/

/-- The directory of the nearest manifest above a file, or the file's own directory. -/
def root (tree : FileTree) (file : Path) : Place :=
  let directory := (tree.resolve file).dropLast
  match tree.findUp? ⟨.relative, [manifestName]⟩ directory with
  | some manifest => manifest.parts.dropLast
  | none => directory

/-- Whether a directory holds a file with a name. -/
def holds (tree : FileTree) (directory : Path) (name : String) : Bool :=
  tree.isFile (directory.child name)

/-- The lock files that tell a package manager; the first one that is there counts. -/
def lockFiles : List (String × PackageManager) :=
  [("pnpm-lock.yaml", .pnpm), ("yarn.lock", .yarn)]

/-- The package manager that the lock files of a directory tell. -/
def packageManager (tree : FileTree) (directory : Path) : PackageManager :=
  ((lockFiles.find? fun (name, _) => holds tree directory name).map (·.2)).getD .npm

/-- What the dependencies and the files of a project tell. -/
def infoOf (tree : FileTree) (directory : Path) (all : List (RawText × Json)) : Info :=
  let kind := firstRow? all kindDependencies
  let framework := firstRow? all frameworkDependencies
  let configs := testConfigFiles.filter (holds tree directory)
  let isAngular := kind.any fun found => found.1 == .angular
  { kind := kind.elim .unknown (·.1)
    version := kind.elim (.text "") fun (_, _, name) => dependency all name
    framework := framework.elim .none (·.1)
    frameworkVersion := framework.elim .null fun (_, names, name) => frameworkVersion all names name
    packageManager := packageManager tree directory
    hasTestConfig := !configs.isEmpty
    configFiles := configs ++
      (if isAngular && holds tree directory angularConfigFile then [angularConfigFile] else []) }

/-- The names of the files that detection looks for. -/
def projectFiles : List String :=
  manifestName :: angularConfigFile :: testConfigFiles ++ lockFiles.map (·.1)

/-- What detection logs about the manifest it found. -/
def manifestLog (directory : Path) : Manifest → Log
  | .unreadable reason =>
    [.warning ("Could not read " ++ (directory.child manifestName).toString ++ ": " ++ reason),
      unusable]
  | .absent | .notObject => [unusable]
  | .found _ => []
where
  /-- The line about a project without a usable manifest. -/
  unusable : LogLine := .info ("No usable package.json in " ++ directory.toString)

/-- What is known about the project of a file, and the log of finding it out. -/
def detect (tree : FileTree) (file : Path) : Except Failure (Log × Info) := do
  let directory : Path := ⟨.root, root tree file⟩
  let manifest ← readManifest tree (directory.child manifestName)
  match manifest with
  | .found members =>
    let info := infoOf tree directory (← dependencies members)
    return ([.info ("Detected " ++ info.kind.name ++ " project using " ++ info.framework.name ++
      " (" ++ info.packageManager.name ++ ") at " ++ directory.toString)], info)
  | _ =>
    return (manifestLog directory manifest,
      { packageManager := packageManager tree directory })

/-! ## Recommendation -/

/-- The frameworks that suites can be written for. -/
def supported : List Framework :=
  [.jest, .karma, .jasmine]

/-- The framework that a project should use: its own if it is supported. -/
def recommended (info : Info) : Framework :=
  if supported.contains info.framework then info.framework
  else if info.kind == .angular then .karma
  else .jest

/-- The recommended framework is one that suites can be written for. -/
theorem recommended_supported (info : Info) : recommended info ∈ supported := by
  simp only [recommended]
  split
  · rename_i h
    simpa using h
  · split <;> decide

/-- The commands that would install a framework. -/
def installCommands (framework : Framework) (kind : Kind) (manager : PackageManager) :
    List String :=
  let install := match manager with
    | .yarn => "yarn add -D"
    | .pnpm => "pnpm add -D"
    | .npm => "npm install --save-dev"
  let packages : Option String := match framework, kind with
    | .jest, .nextjs =>
      some "jest @testing-library/react @testing-library/jest-dom jest-environment-jsdom"
    | .jest, .react =>
      some "jest @testing-library/react @testing-library/jest-dom @babel/preset-react"
    | .jest, .angular => some "jest @types/jest jest-preset-angular"
    | .jest, .unknown => some "jest @types/jest"
    | .karma, _ => some "karma karma-jasmine karma-chrome-launcher jasmine-core @types/jasmine"
    | .jasmine, _ => some "jasmine @types/jasmine"
    | .vitest, _ | .none, _ => none
  packages.toList.map fun names => install ++ " " ++ names

/-- The JSON form of what is known about a project. -/
def Info.toJson (info : Info) : Json :=
  .object [
    ("type", .text info.kind.name),
    ("version", info.version),
    ("test_framework", .text info.framework.name),
    ("test_framework_version", info.frameworkVersion),
    ("package_manager", .text info.packageManager.name),
    ("has_test_config", .bool info.hasTestConfig),
    ("config_files", .arr (info.configFiles.map .text))]

end Project
end TestScaffold
