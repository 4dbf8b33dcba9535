import TestScaffold.Proofs.ExportCorrespondence

/-!
# What the check of a model reports

Before a suite is synthesised, the model is checked.  The check accepts a model
when every name has as many entries as exported declarations and every function
has a name.  It looks at the entries first, then at the exported declarations,
and at the names of functions last, and reports the first thing that is wrong.

The two searches go in one direction each: the first takes the names of the
entries, the second those of the declarations.  Together they find every name
whose counts differ, since such a name has an entry or, if it has none, a
declaration.

Main results:

- Theorem `Suite.validate_of_violation`: the check reports every violation.
- Theorem `Suite.exists_violation`: a model that breaks a condition of the check
  has a violation.
- Theorem `Suite.validate_reports`: when the check accepts a model and what it
  reports otherwise.
-/

namespace TestScaffold
namespace Suite

open Model

/-! ## First items -/

/-- Whether an item is the first one of a list that has a property. -/
def IsFirst {α : Type} (p : α → Prop) (as : List α) (a : α) : Prop :=
  ∃ before after, as = before ++ a :: after ∧ p a ∧ ∀ b ∈ before, ¬ p b

/-- A search finds the first item that passes its test. -/
theorem find?_eq_some_iff_isFirst {α : Type} {p : α → Prop} [DecidablePred p] {as : List α}
    {a : α} : as.find? (fun a => decide (p a)) = some a ↔ IsFirst p as a := by
  rw [List.find?_eq_some_iff_append]
  constructor
  · rintro ⟨ha, before, after, has, hbefore⟩
    exact ⟨before, after, has, by simpa using ha, by simpa using hbefore⟩
  · rintro ⟨before, after, has, ha, hbefore⟩
    exact ⟨by simpa using ha, before, after, has, by simpa using hbefore⟩

/-- What comes first comes first in the image. -/
theorem IsFirst.map {α β : Type} {f : α → β} {p : β → Prop} {as : List α} {a : α}
    (h : IsFirst (fun a => p (f a)) as a) : IsFirst p (as.map f) (f a) := by
  obtain ⟨before, after, rfl, ha, hbefore⟩ := h
  refine ⟨before.map f, after.map f, by simp, ha, ?_⟩
  simpa using hbefore

/-! ## Counts of a name -/

/-- The number of export entries of a name. -/
def entryCount (model : SourceModel) (name : String) : Nat :=
  model.exports.countP (·.name == name)

/-- The number of exported functions and exported classes of a name. -/
def declarationCount (model : SourceModel) (name : String) : Nat :=
  model.exportedFunctions.countP (·.name == name) +
    model.exportedClasses.countP (·.name == name)

variable (model : SourceModel)

/-- A name is listed as often as an export has it. -/
theorem count_listedNames (name : String) :
    (listedNames model).count name = entryCount model name := by
  rw [listedNames, List.count, List.countP_map]
  rfl

/-- A name is declared as often as an exported declaration has it. -/
theorem count_declaredNames (name : String) :
    (declaredNames model).count name = declarationCount model name := by
  rw [declaredNames, List.count, List.countP_append, List.countP_map, List.countP_map]
  rfl

/-- A name without an entry is not listed. -/
theorem entryCount_eq_zero_iff (name : String) :
    entryCount model name = 0 ↔ name ∉ listedNames model := by
  rw [← count_listedNames, List.count_eq_zero]

/-- The first search looks for a name whose counts differ. -/
theorem differs_eq :
    (fun name => (declaredNames model).count name != (listedNames model).count name) =
      fun name => decide (entryCount model name ≠ declarationCount model name) := by
  funext name
  rw [count_declaredNames, count_listedNames, bne_comm, decide_not, bne, beq_eq_decide]

/-- The second search looks for a name without an entry. -/
theorem unlisted_eq :
    (fun name => !(listedNames model).contains name) =
      fun name => decide (entryCount model name = 0) := by
  funext name
  simp [entryCount_eq_zero_iff]

/-! ## Violations -/

/-- What is wrong with a model first, and what is said about it. -/
inductive Violation : Failure → String → Prop where
  /-- An entry is the first one whose name has another number of declarations than of entries. -/
  | mismatched {entry : Export}
    (hentry : IsFirst (fun entry => entryCount model entry.name ≠ declarationCount model entry.name)
      model.exports entry) :
    Violation
      (.mismatched entry.name model.filePath (declarationCount model entry.name)
        (entryCount model entry.name))
      ("Export '" ++ entry.name ++ "' in " ++ model.filePath ++ " has " ++
        toString (declarationCount model entry.name) ++
        " matching exported declarations, expected " ++ toString (entryCount model entry.name))
  /-- The counts agree for all entries, and a declaration is the first one without an entry. -/
  | unlisted {name : String}
    (hentries : ∀ entry ∈ model.exports,
      entryCount model entry.name = declarationCount model entry.name)
    (hname : IsFirst (fun name => entryCount model name = 0)
      (model.exportedFunctions.map (·.name) ++ model.exportedClasses.map (·.name)) name) :
    Violation (.unlisted name model.filePath)
      ("Exported declaration '" ++ name ++ "' in " ++ model.filePath ++ " has no export entry")
  /-- The counts agree for all names, and a function has none. -/
  | unnamed (hcounts : ∀ name, entryCount model name = declarationCount model name)
    (hfunction : ∃ function ∈ model.functions, function.name = "") :
    Violation (.unnamed model.filePath) ("Unnamed function in " ++ model.filePath)

variable {model}

/-- The first search finds nothing where the counts agree for all entries. -/
theorem find?_listedNames_eq_none
    (h : ∀ entry ∈ model.exports, entryCount model entry.name = declarationCount model entry.name) :
    (listedNames model).find? (fun name =>
      decide (entryCount model name ≠ declarationCount model name)) = none := by
  rw [List.find?_eq_none]
  simpa [listedNames] using h

/-- The check reports a violation. -/
theorem validate_of_violation {failure : Failure} {message : String}
    (h : Violation model failure message) :
    validate model = .error failure ∧ failure.message = message := by
  cases h with
  | mismatched hentry =>
    have hfirst := IsFirst.map
      (p := fun name => entryCount model name ≠ declarationCount model name) hentry
    have hfound : (listedNames model).find? _ = some _ := find?_eq_some_iff_isFirst.mpr hfirst
    refine ⟨?_, rfl⟩
    simp only [validate, differs_eq, hfound]
    rw [count_declaredNames, count_listedNames]
  | unlisted hentries hname =>
    have hfound : (declaredNames model).find? _ = some _ := find?_eq_some_iff_isFirst.mpr hname
    refine ⟨?_, rfl⟩
    simp only [validate, differs_eq, unlisted_eq, find?_listedNames_eq_none hentries, hfound]
  | unnamed hcounts hfunction =>
    refine ⟨?_, rfl⟩
    rw [validate_eq fun name => ?_, if_pos (by simpa using hfunction)]
    rw [count_listedNames, count_declaredNames, hcounts]

/-- The counts agree for all names if they do for all entries and no declaration is without one. -/
theorem counts_agree
    (hentries : ∀ entry ∈ model.exports,
      entryCount model entry.name = declarationCount model entry.name)
    (hdeclared : ∀ name ∈ declaredNames model, entryCount model name ≠ 0) (name : String) :
    entryCount model name = declarationCount model name := by
  by_cases hlisted : name ∈ listedNames model
  · obtain ⟨entry, hmem, rfl⟩ := List.mem_map.mp hlisted
    exact hentries entry hmem
  · have hzero := (entryCount_eq_zero_iff model name).mpr hlisted
    have hundeclared : name ∉ declaredNames model := fun hmem => hdeclared name hmem hzero
    rw [hzero, ← count_declaredNames, List.count_eq_zero.mpr hundeclared]

/-- A model that breaks a condition of the check has a violation. -/
theorem exists_violation
    (h : ¬ ((∀ name, entryCount model name = declarationCount model name) ∧
      ∀ function ∈ model.functions, function.name ≠ "")) :
    ∃ failure message, Violation model failure message := by
  cases hentry : model.exports.find? fun entry =>
      decide (entryCount model entry.name ≠ declarationCount model entry.name) with
  | some entry => exact ⟨_, _, .mismatched (find?_eq_some_iff_isFirst.mp hentry)⟩
  | none =>
    have hentries : ∀ entry ∈ model.exports,
        entryCount model entry.name = declarationCount model entry.name := by
      simpa using List.find?_eq_none.mp hentry
    cases hname : (declaredNames model).find? fun name => decide (entryCount model name = 0) with
    | some name => exact ⟨_, _, .unlisted hentries (find?_eq_some_iff_isFirst.mp hname)⟩
    | none =>
      have hcounts := counts_agree hentries (by simpa using List.find?_eq_none.mp hname)
      have hfunction : ∃ function ∈ model.functions, function.name = "" := by
        by_contra hnamed
        exact h ⟨hcounts, by simpa using hnamed⟩
      exact ⟨_, _, .unnamed hcounts hfunction⟩

/-- A model that meets the conditions of the check is accepted. -/
theorem validate_eq_ok (hcounts : ∀ name, entryCount model name = declarationCount model name)
    (hnamed : ∀ function ∈ model.functions, function.name ≠ "") : validate model = .ok () := by
  rw [validate_eq fun name => ?_, if_neg (by simpa using hnamed)]
  rw [count_listedNames, count_declaredNames, hcounts]

/-- What the check of a model reports.  It accepts a model exactly when every name has as many
entries as exported declarations and every function has a name.  It fails exactly with a violation
of the model and says what there is to say about it. -/
theorem validate_reports (model : SourceModel) :
    (validate model = .ok () ↔
      (∀ name, entryCount model name = declarationCount model name) ∧
        ∀ function ∈ model.functions, function.name ≠ "") ∧
    ∀ failure message, (validate model = .error failure ∧ failure.message = message) ↔
      Violation model failure message := by
  refine ⟨⟨?_, fun hvalid => validate_eq_ok hvalid.1 hvalid.2⟩, ?_⟩
  · intro hok
    by_contra hbroken
    obtain ⟨failure, message, hviolation⟩ := exists_violation hbroken
    rw [(validate_of_violation hviolation).1] at hok
    cases hok
  · intro failure message
    refine ⟨?_, validate_of_violation⟩
    rintro ⟨herror, rfl⟩
    obtain ⟨other, message, hviolation⟩ := exists_violation fun hvalid => by
      rw [validate_eq_ok hvalid.1 hvalid.2] at herror
      cases herror
    -- The check reports this violation, so it is the failure.
    obtain ⟨hother, rfl⟩ := validate_of_violation hviolation
    obtain rfl : other = failure := Except.error.inj (hother.symm.trans herror)
    exact hviolation

/-- An entry that is repeated is reported before a declaration that stands first and has none. -/
example :
    validate {
      filePath := "m.ts"
      language := .typescript
      functions := [
        ⟨"f", [], ⟨⟨1, 0⟩, ⟨1, 15⟩⟩, none, false, true, []⟩,
        ⟨"g", [], ⟨⟨2, 0⟩, ⟨2, 15⟩⟩, none, false, true, []⟩]
      exports := [⟨"g", .function⟩, ⟨"g", .function⟩] } =
      .error (.mismatched "g" "m.ts" 1 2) := by
  decide

end Suite
end TestScaffold
