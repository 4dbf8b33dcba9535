import TestScaffold.CommandLine.Run
import TestScaffold.Proofs.GenerationOutcome

/-!
# The flag that asks for the log

A command line may ask for the whole log by a flag before all other words.
Options are taken from the left, and what was given by a flag has no part in how
later words are taken, so the flag changes nothing but the log.  There is one
exception, which comes from the step before.  A file name may stand for the
command that analyses it, but only as the first word; after the flag it is taken
for the name of a command and refused.

Main results:

- Theorem `CommandLine.Signature.takeWords_after`: flags given before have no
  part in how words are taken.
- Theorem `CommandLine.Invocation.read_verbose`: the flag before an explicit
  command asks for the log and nothing else.
- Theorem `CommandLine.seen_run_eq_two_iff`: an exit code of two is that of wrong
  words.
- Theorem `CommandLine.run_verbose_iff`: when the flag changes the log only.
-/

namespace TestScaffold
namespace CommandLine

/-! ## Flags given before other words -/

/-- What the words give when some flags were given before them. -/
def Given.after (given : Given) (flags : List String) : Given :=
  { given with flags := given.flags ++ flags }

/-- A flag that was given before an option does not change what the option takes. -/
theorem Given.take_after (given : Given) (flags : List String) (spec : OptionSpec)
    (value : String) :
    (given.after flags).take spec value = (·.after flags) <$> given.take spec value := by
  unfold Given.take
  cases spec.action with
  | help => rfl
  | flag => rfl
  | value check =>
    cases hcheck : check value with
    | error message => simp [hcheck, Functor.map, Except.map]
    | ok _ => simp [hcheck, Functor.map, Except.map, Given.after]

/-- Nor does it for several options. -/
theorem Given.takeAll_after (given : Given) (flags : List String)
    (uses : List (OptionSpec × Option String)) :
    (given.after flags).takeAll uses = (·.after flags) <$> given.takeAll uses := by
  induction uses generalizing given with
  | nil => rfl
  | cons use rest ih =>
    obtain ⟨spec, value⟩ := use
    simp only [Given.takeAll, Given.take_after]
    cases given.take spec (value.getD "") with
    | error stop => rfl
    | ok taken => exact ih taken

/-- Flags that were given before stay given and have no part in what later words give. -/
theorem Signature.takeWords_after (signature : Signature) (flags : List String) :
    ∀ (roles : List (String × Role)) (given : Given) (afterArgument : Bool),
      signature.takeWords (given.after flags) afterArgument roles =
        (·.after flags) <$> signature.takeWords given afterArgument roles
  -- The recursion is that of the words, since an option with a value takes two of them.
  | [], given, afterArgument => rfl
  | (word, .unknown) :: rest, given, afterArgument =>
    takeWords_after signature flags rest (given.addExtra word) false
  | (word, .option use) :: rest, given, afterArgument => by
    simp only [Signature.takeWords]
    cases signature.expand use.spec ((use.name.toList.drop 1).head? != some '-') use.byEquals
        (use.attached.map String.toList) with
    | error stop => rfl
    | ok cluster =>
      simp only [bind, Except.bind]
      cases wantsNext cluster.uses with
      | none =>
        simp only [Given.takeAll_after]
        cases given.takeAll cluster.uses with
        | error stop => rfl
        | ok taken =>
          cases cluster.unknown with
          | none => exact takeWords_after signature flags rest taken false
          | some word => exact takeWords_after signature flags rest (taken.addExtra word) false
      | some spec =>
        match rest with
        | [] => rfl
        | (_, .unknown) :: _ => rfl
        | (_, .option _) :: _ => rfl
        | (_, .separator) :: _ => rfl
        | (value, .plain) :: rest =>
          simp only [Given.takeAll_after]
          cases given.takeAll (withValue cluster.uses value) with
          | error stop => rfl
          | ok taken => exact takeWords_after signature flags rest taken false
  | (word, .separator) :: rest, given, true => by
    unfold Signature.takeWords
    exact takeWords_after signature flags rest given false
  | (word, .separator) :: rest, ⟨earlier, values, some words, extras⟩, false => rfl
  | (word, .separator) :: rest, ⟨earlier, values, none, extras⟩, false => by
    unfold Signature.takeWords
    simp only [Given.after]
    cases signature.positional with
    | command name choices => cases rest <;> rfl
    | one name =>
      match rest with
      | [] => rfl
      | (value, _) :: later =>
        exact takeWords_after signature flags later ⟨earlier, values, some [value], extras⟩ false
  | (word, .plain) :: rest, ⟨earlier, values, some words, extras⟩, _ => by
    unfold Signature.takeWords
    exact takeWords_after signature flags rest ⟨earlier, values, some words, extras ++ [word]⟩
      false
  | (word, .plain) :: rest, ⟨earlier, values, none, extras⟩, _ => by
    unfold Signature.takeWords
    cases signature.positional with
    | command name choices => rfl
    | one name =>
      exact takeWords_after signature flags rest ⟨earlier, values, some [word], extras⟩ true

/-- A flag before other words is given, and changes nothing else. -/
theorem Signature.read_cons_flag {signature : Signature} {word : String} {spec : OptionSpec}
    (hword : word ≠ "--")
    (hrole : signature.classify word = .ok (.option ⟨spec, word, none, false⟩))
    (hflag : spec.action = .flag) (words : List String) :
    signature.read (word :: words) = (·.after [spec.key]) <$> signature.read words := by
  have hstart : ∀ roles,
      signature.takeWords {} false ((word, .option ⟨spec, word, none, false⟩) :: roles) =
        (·.after [spec.key]) <$> signature.takeWords {} false roles := by
    intro roles
    have htaken : ({} : Given).takeAll [(spec, none)] = .ok (Given.after {} [spec.key]) := by
      simp [Given.takeAll, Given.take, hflag, Given.after, bind, Except.bind]
    have hnext : wantsNext [(spec, none)] = none := by
      simp [wantsNext, OptionSpec.takesValue, hflag]
    rw [← Signature.takeWords_after]
    simp [Signature.takeWords, Signature.expand, hnext, htaken, bind, Except.bind]
  simp only [Signature.read, Signature.roles, if_neg hword, hrole]
  cases signature.roles words with
  | error message => rfl
  | ok roles =>
    simp only [bind, Except.bind, pure, Except.pure, Except.mapError, hstart]
    cases signature.takeWords {} false roles with
    | error stop => rfl
    | ok given =>
      simp only [Functor.map, Except.map]
      cases signature.positional with
      | command name choices => rfl
      | one name =>
        obtain ⟨flags, values, positional, extras⟩ := given
        cases positional <;> rfl

/-- A word that starts with no dash is no option. -/
theorem Signature.classify_plain (signature : Signature) {word : String}
    (h : word.toList.head? ≠ some '-') : signature.classify word = .ok .plain := by
  unfold Signature.classify
  split
  · rfl
  · rfl
  · rename_i first second rest heq
    have hfirst : first ≠ '-' := by simpa [heq] using h
    simp [hfirst]

/-- A word that starts with no dash is taken as the name of a command, with all words after it. -/
theorem Signature.read_cons_plain {signature : Signature} {name : String} {choices : List String}
    (hsignature : signature.positional = .command name choices) {word : String}
    (hword : word.toList.head? ≠ some '-') (words : List String) :
    signature.read (word :: words) =
      (fun _ => { positional := some (word :: words) }) <$>
        (signature.roles words).mapError .wrong := by
  have hne : word ≠ "--" := by
    rintro rfl
    exact hword rfl
  simp only [Signature.read, Signature.roles, if_neg hne, signature.classify_plain hword]
  cases hroles : signature.roles words with
  | error message => rfl
  | ok roles =>
    simp only [bind, Except.bind, pure, Except.pure, Except.mapError, Signature.takeWords,
      hsignature, signature.roles_words hroles]
    rfl

/-! ## Reading a command line with the flag -/

/-- A command line that starts with the name of a file. -/
def StartsWithFile : List String → Prop
  | [] => False
  | first :: _ => first.toList.head? ≠ some '-' ∧ first ∉ commandNames

/-- Words that start with a file get the default command. -/
theorem withDefaultCommand_of_startsWithFile {words : List String} (h : StartsWithFile words) :
    withDefaultCommand words = "analyze" :: words := by
  cases words with
  | nil => cases h
  | cons first rest =>
    obtain ⟨hdash, hname⟩ := h
    simp [withDefaultCommand, hdash, hname]

/-- Other words stay as they are. -/
theorem withDefaultCommand_of_not_startsWithFile {words : List String}
    (h : ¬ StartsWithFile words) : withDefaultCommand words = words := by
  cases words with
  | nil => rfl
  | cons first rest =>
    rw [withDefaultCommand, if_neg]
    simpa [StartsWithFile] using h

/-- After the flag no word stands first, so no command is made explicit. -/
theorem withDefaultCommand_verbose (words : List String) :
    withDefaultCommand ("--verbose" :: words) = "--verbose" :: words := by
  apply withDefaultCommand_of_not_startsWithFile
  rintro ⟨hdash, -⟩
  simp at hdash

/-- The flag in front is one more flag that was given. -/
theorem mainSignature_read_verbose (words : List String) :
    mainSignature.read ("--verbose" :: words) =
      (·.after ["--verbose"]) <$> mainSignature.read words := by
  have hne : "--verbose" ≠ "--" := by decide
  have hrole : mainSignature.classify "--verbose" =
      .ok (.option ⟨⟨["--verbose", "-v"], .flag⟩, "--verbose", none, false⟩) := rfl
  exact Signature.read_cons_flag hne hrole rfl words

/-- The flag before a command line whose command is explicit asks for the log, and for nothing
else. -/
theorem Invocation.read_verbose (words : List String) :
    Invocation.read ("--verbose" :: withDefaultCommand words) =
      ({ · with verbose := true }) <$> Invocation.read words := by
  unfold Invocation.read
  rw [withDefaultCommand_verbose, mainSignature_read_verbose]
  cases mainSignature.read (withDefaultCommand words) with
  | error stop => rfl
  | ok given =>
    have hverbose : (given.after ["--verbose"]).has "--verbose" = true := by
      simp [Given.has, Given.after]
    have hpositional : (given.after ["--verbose"]).positional = given.positional := rfl
    have hextras : (given.after ["--verbose"]).extras = given.extras := rfl
    simp only [Functor.map, Except.map, Except.mapError, bind, Except.bind, pure, Except.pure,
      hverbose, hpositional, hextras]
    rcases given.positional with _ | _ | ⟨name, rest⟩
    · cases given.extras ++ [] <;> rfl
    · cases given.extras ++ [] <;> rfl
    · simp only
      cases readCommand name rest with
      | error refusal => rfl
      | ok result =>
        simp only
        cases given.extras ++ result.2 <;> rfl

/-- A word that names no command is refused as one. -/
theorem readCommand_of_notMem {name : String} (h : name ∉ commandNames) (words : List String) :
    ∃ message, readCommand name words = .error ⟨.main, .wrong message⟩ := by
  have hchoice : ∃ message, oneOf commandNames name = .error message := by
    simp [oneOf, h]
  obtain ⟨message, hmessage⟩ := hchoice
  simp only [commandNames, List.mem_cons, List.not_mem_nil, or_false, not_or] at h
  obtain ⟨hanalyze, hgenerate, hdetect, hprompt⟩ := h
  rw [readCommand, if_neg hanalyze, if_neg hgenerate, if_neg hdetect, if_neg hprompt, hmessage]
  exact ⟨_, rfl⟩

/-- The words after the name of the command that prints a model ask for it. -/
theorem readCommand_analyze {words extras : List String} {command : Command}
    (h : readCommand "analyze" words = .ok (command, extras)) :
    ∃ file, command = .analyze file := by
  rw [readCommand, if_pos rfl] at h
  cases hread : fileSignature.read words with
  | error stop =>
    rw [hread] at h
    cases h
  | ok given =>
    rw [hread] at h
    cases h
    exact ⟨_, rfl⟩

/-- A command line that is refused because its words are wrong. -/
def Misused (words : List String) : Prop :=
  ∃ help message, Invocation.read words = .error ⟨help, .wrong message⟩

/-- After the flag, the name of a file is taken for the name of a command. -/
theorem misused_verbose_of_startsWithFile {words : List String} (h : StartsWithFile words) :
    Misused ("--verbose" :: words) := by
  cases words with
  | nil => cases h
  | cons first rest =>
    obtain ⟨hdash, hname⟩ := h
    unfold Misused Invocation.read
    rw [withDefaultCommand_verbose, mainSignature_read_verbose,
      Signature.read_cons_plain rfl hdash]
    cases mainSignature.roles rest with
    | error message => exact ⟨_, _, rfl⟩
    | ok roles =>
      obtain ⟨message, hmessage⟩ := readCommand_of_notMem hname rest
      refine ⟨.main, message, ?_⟩
      simp only [Functor.map, Except.map, Except.mapError, bind, Except.bind, Given.after,
        hmessage]

/-- A command line that starts with the name of a file asks for an analysis, if it asks for
anything. -/
theorem command_of_startsWithFile {words : List String} {invocation : Invocation}
    (h : StartsWithFile words) (hread : Invocation.read words = .ok invocation) :
    ∃ file, invocation.command = some (.analyze file) := by
  unfold Invocation.read at hread
  rw [withDefaultCommand_of_startsWithFile h, Signature.read_cons_plain rfl (by decide)] at hread
  cases hroles : mainSignature.roles words with
  | error message =>
    rw [hroles] at hread
    cases hread
  | ok roles =>
    rw [hroles] at hread
    simp only [Functor.map, Except.map, Except.mapError, bind, Except.bind] at hread
    cases hcommand : readCommand "analyze" words with
    | error refusal =>
      rw [hcommand] at hread
      cases hread
    | ok result =>
      obtain ⟨command, extras⟩ := result
      obtain ⟨file, rfl⟩ := readCommand_analyze hcommand
      rw [hcommand] at hread
      cases extras with
      | nil =>
        cases hread
        exact ⟨file, rfl⟩
      | cons word more => cases hread

/-! ## Running a command line with the flag -/

/-- What others see of a run: the tree it leaves, and its exit code and output or the failure that
ends it. -/
def seen (result : FileTree × Except Failure Output) :
    FileTree × Except Failure (Nat × String) :=
  (result.1, (fun output => (output.exit, output.stdout)) <$> result.2)

@[simp]
theorem seen_fst (result : FileTree × Except Failure Output) : (seen result).1 = result.1 :=
  rfl

variable (parse : Extract.SyntaxParser) (tree : FileTree)

/-- Asking for the log changes nothing that others see. -/
theorem seen_run_verbose (words : List String) :
    seen (run parse tree ("--verbose" :: withDefaultCommand words)) =
      seen (run parse tree words) := by
  unfold run
  rw [Invocation.read_verbose]
  rcases Invocation.read words with refusal | ⟨verbose, _ | command⟩
  · rfl
  · rfl
  · simp only [Functor.map, Except.map, seen]
    cases (runCommand parse tree command).outcome with
    | error failure => rfl
    | ok reply => rfl

variable {parse tree}

/-- A failure that is reported gives an exit code of one. -/
theorem failureReply_exit {intro : String} {failure : Failure} {reply : Reply}
    (h : (failureReply intro failure).2 = .ok reply) : reply.exit = 1 := by
  unfold failureReply at h
  split at h
  · cases h
  · cases h
    rfl

/-- A generation ends with zero or one. -/
theorem generateReply_exit (dryRun : Bool) (result : Generate.Result) :
    (generateReply dryRun result).exit ≤ 1 := by
  unfold generateReply
  split
  · exact Nat.le_refl 1
  · split <;> exact Nat.zero_le 1

/-- A command that runs has an exit code of zero or one. -/
theorem runCommand_exit {command : Command} {reply : Reply}
    (h : (runCommand parse tree command).outcome = .ok reply) : reply.exit ≤ 1 := by
  cases command with
  | analyze file =>
    simp only [runCommand, analyze] at h
    split at h
    · cases h
      exact Nat.zero_le 1
    · exact Nat.le_of_eq (failureReply_exit h)
  | detect file =>
    simp only [runCommand, detect] at h
    split at h
    · cases h
    · cases h
      exact Nat.zero_le 1
  | prompt request =>
    simp only [runCommand, prompt] at h
    split at h
    · cases h
      exact Nat.zero_le 1
    · exact Nat.le_of_eq (failureReply_exit h)
  | generate file framework output dryRun =>
    simp only [runCommand] at h
    cases houtcome : (Generate.run parse tree
        { filePath := file, framework, outputPath := output, write := !dryRun }).outcome with
    | error failure =>
      rw [houtcome] at h
      cases h
    | ok result =>
      rw [houtcome] at h
      cases h
      exact generateReply_exit dryRun result

variable (parse tree)

/-- The exit code of wrong words is two, and no other run has it. -/
theorem seen_run_eq_two_iff (words : List String) :
    (seen (run parse tree words)).2 = .ok (2, "") ↔ Misused words := by
  unfold run Misused
  rcases Invocation.read words with ⟨help, _ | message⟩ | ⟨verbose, _ | command⟩
  · simp [seen, refusalOutput, Functor.map, Except.map]
  · simp [seen, refusalOutput, Functor.map, Except.map]
  · simp [seen, Functor.map, Except.map]
  · simp only [seen]
    cases houtcome : (runCommand parse tree command).outcome with
    | error failure => simp [Functor.map, Except.map]
    | ok reply =>
      have hexit : reply.exit ≠ 2 := by
        have hle := runCommand_exit houtcome
        omega
      simp [Functor.map, Except.map, hexit]

/-- Wrong words leave the tree alone. -/
theorem run_tree_of_misused {words : List String} (h : Misused words) :
    (run parse tree words).1 = tree := by
  obtain ⟨help, message, hread⟩ := h
  rw [run, hread]

/-- So does the analysis of a file. -/
theorem run_tree_of_startsWithFile {words : List String} (h : StartsWithFile words) :
    (run parse tree words).1 = tree := by
  unfold run
  cases hread : Invocation.read words with
  | error refusal => rfl
  | ok invocation =>
    obtain ⟨file, hcommand⟩ := command_of_startsWithFile h hread
    obtain ⟨verbose, command⟩ := invocation
    cases hcommand
    rfl

/-- Asking for the log leaves the exit code, the output and the tree as they are, once the command
is explicit.  Without a command, a file name after the flag is refused, so the flag changes what
others see exactly when a file name stands first and nothing else is wrong. -/
theorem run_verbose_iff (words : List String) :
    seen (run parse tree ("--verbose" :: withDefaultCommand words)) =
        seen (run parse tree words) ∧
    (run parse tree ("--verbose" :: words)).1 = (run parse tree words).1 ∧
    (StartsWithFile words →
      (seen (run parse tree ("--verbose" :: words))).2 = .ok (2, "")) ∧
    (seen (run parse tree ("--verbose" :: words)) = seen (run parse tree words) ↔
      (StartsWithFile words → Misused words)) := by
  have hexplicit := seen_run_verbose parse tree words
  by_cases hfile : StartsWithFile words
  · have hmisused := misused_verbose_of_startsWithFile hfile
    have htwo := (seen_run_eq_two_iff parse tree _).mpr hmisused
    have htree : (run parse tree ("--verbose" :: words)).1 = (run parse tree words).1 := by
      rw [run_tree_of_misused parse tree hmisused, run_tree_of_startsWithFile parse tree hfile]
    refine ⟨hexplicit, htree, fun _ => htwo, ?_⟩
    calc seen (run parse tree ("--verbose" :: words)) = seen (run parse tree words)
        ↔ (seen (run parse tree words)).2 = .ok (2, "") := by
          rw [Prod.ext_iff, seen_fst, seen_fst, and_iff_right htree, htwo, eq_comm]
      _ ↔ Misused words := seen_run_eq_two_iff parse tree words
      _ ↔ (StartsWithFile words → Misused words) := (imp_iff_right hfile).symm
  · rw [withDefaultCommand_of_not_startsWithFile hfile] at hexplicit ⊢
    have htree := congrArg Prod.fst hexplicit
    exact ⟨hexplicit, htree, fun h => absurd h hfile,
      iff_of_true hexplicit fun h => absurd h hfile⟩

/-- A tree with an empty source and nothing else. -/
def soleTree : FileTree where
  entries := [(["a.ts"], .file [])]

/-- The analysis of its source succeeds, and the same words after the flag are refused. -/
theorem run_verbose_fileName_refused :
    (fun output => output.exit) <$> (run Generate.bareParser soleTree ["a.ts"]).2 = .ok 0 ∧
    (fun output => output.exit) <$>
      (run Generate.bareParser soleTree ["--verbose", "a.ts"]).2 = .ok 2 := by
  decide +kernel

theorem read_soleFile :
    Invocation.read ["a.ts"] = .ok ⟨false, some (.analyze "a.ts")⟩ := by
  decide +kernel

/-- With the command made explicit they are not. -/
theorem run_verbose_iff_soleTree :
    seen (run Generate.bareParser soleTree ["--verbose", "analyze", "a.ts"]) =
      seen (run Generate.bareParser soleTree ["a.ts"]) ∧
    seen (run Generate.bareParser soleTree ["--verbose", "a.ts"]) ≠
      seen (run Generate.bareParser soleTree ["a.ts"]) := by
  obtain ⟨hexplicit, -, -, hiff⟩ := run_verbose_iff Generate.bareParser soleTree ["a.ts"]
  have hfile : StartsWithFile ["a.ts"] := ⟨by decide, by decide⟩
  have hread : ¬ Misused ["a.ts"] := by
    simp [Misused, read_soleFile]
  rw [withDefaultCommand_of_startsWithFile hfile] at hexplicit
  exact ⟨hexplicit, fun heq => hread (hiff.mp heq hfile)⟩

end CommandLine
end TestScaffold
