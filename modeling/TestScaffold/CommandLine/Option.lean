import TestScaffold.Text.Digit
import TestScaffold.Text.Quote

/-!
# Options and arguments

How the words of a command line are told apart.  A word that starts with a dash
is an option, by its full name, by a unique beginning of a long name, or as a
cluster of one-letter names; a value follows an equals sign, the letter itself,
or as the next word.  Two dashes end the options, and a negative number is no
option.

Main results:

- Theorem `CommandLine.Signature.roles_words`: every word has one role.
-/

namespace TestScaffold
namespace CommandLine

/-- What an option does. -/
inductive OptionAction where
  /-- It asks for help. -/
  | help
  /-- It is given or not. -/
  | flag
  /-- It takes a value, which a check may refuse with a message. -/
  | value (check : String → Except String Unit)

/-- An option: its names and what it does. -/
structure OptionSpec where
  names : List String
  action : OptionAction

/-- The name under which an option is looked up. -/
def OptionSpec.key (spec : OptionSpec) : String :=
  spec.names.headD ""

/-- The name of an option in messages. -/
def OptionSpec.title (spec : OptionSpec) : String :=
  "/".intercalate spec.names

/-- Whether an option takes a value. -/
def OptionSpec.takesValue (spec : OptionSpec) : Bool :=
  match spec.action with
  | .value _ => true
  | _ => false

/-- The argument that is no option. -/
inductive Positional where
  /-- One word that has to be given. -/
  | one (name : String)
  /-- The name of a command, and all words after it. -/
  | command (name : String) (choices : List String)

/-- The arguments that a program or command takes. -/
structure Signature where
  options : List OptionSpec
  positional : Positional

/-! ## Roles of words -/

/-- An option as it was written. -/
structure Use where
  spec : OptionSpec
  /-- The name that was used. -/
  name : String
  /-- What is attached to the name. -/
  attached : Option String
  /-- Whether an equals sign stands before what is attached. -/
  byEquals : Bool := false

/-- The part that a word plays. -/
inductive Role where
  /-- It is no option. -/
  | plain
  /-- It ends the options. -/
  | separator
  /-- It is an option. -/
  | option (use : Use)
  /-- It looks like an option and is none. -/
  | unknown

/-- All names of options, with their options, in order. -/
def Signature.named (signature : Signature) : List (String × OptionSpec) :=
  signature.options.flatMap fun spec => spec.names.map (·, spec)

/-- The option with a name. -/
def Signature.find? (signature : Signature) (name : String) : Option OptionSpec :=
  signature.named.lookup name

/-- The parts of a word before and after its first equals sign. -/
def splitEquals? (word : List Char) : Option (List Char × List Char) :=
  match word.dropWhile (· != '=') with
  | [] => none
  | _ :: value => some (word.takeWhile (· != '='), value)

/-- The options that a word may abbreviate. -/
def Signature.candidates (signature : Signature) (word : List Char) : List Use :=
  match word with
  | '-' :: '-' :: _ =>
    let (beginning, value) := match splitEquals? word with
      | some (name, value) => (name, some (String.ofList value))
      | none => (word, none)
    signature.named.filterMap fun (name, spec) =>
      if beginning.isPrefixOf name.toList then some ⟨spec, name, value, value.isSome⟩ else none
  | '-' :: letter :: value =>
    signature.named.filterMap fun (name, spec) =>
      if name = String.ofList ['-', letter] then some ⟨spec, name, some (String.ofList value), false⟩
      else if word.isPrefixOf name.toList then some ⟨spec, name, none, false⟩
      else none
  | _ => []

/-- Whether a word is a negative number. -/
def isNegativeNumber (word : List Char) : Bool :=
  let isDigit (c : Char) : Bool := (Text.digitValue? c).isSome
  match word with
  | '-' :: number =>
    let number := if number.getLast? == some '\n' then number.dropLast else number
    let fraction := number.dropWhile isDigit
    match fraction with
    | [] => !number.isEmpty
    | '.' :: decimals => !decimals.isEmpty && decimals.all isDigit
    | _ => false
  | _ => false

/-- The part that a word plays, or a message when it abbreviates several options. -/
def Signature.classify (signature : Signature) (word : String) : Except String Role :=
  match word.toList with
  | [] => .ok .plain
  | [_] => .ok .plain
  | first :: second :: rest =>
    let letters := first :: second :: rest
    if first != '-' then .ok .plain
    else
      match signature.find? word with
      | some spec => .ok (.option ⟨spec, word, none, false⟩)
      | none =>
        let split := (splitEquals? letters).bind fun (name, value) =>
          (signature.find? (String.ofList name)).map fun spec =>
            (⟨spec, String.ofList name, some (String.ofList value), true⟩ : Use)
        match split with
        | some use => .ok (.option use)
        | none =>
          match signature.candidates letters with
          | [use] => .ok (.option use)
          | first :: second :: rest =>
            let names := (first :: second :: rest).map (·.name)
            .error ("ambiguous option: " ++ word ++ " could match " ++ ", ".intercalate names)
          | [] =>
            if isNegativeNumber letters || letters.contains ' ' then .ok .plain
            else .ok .unknown

/-- The parts that the words of a command line play. -/
def Signature.roles (signature : Signature) :
    List String → Except String (List (String × Role))
  | [] => .ok []
  | word :: rest =>
    if word = "--" then .ok ((word, .separator) :: rest.map (·, .plain))
    else do
      let role ← signature.classify word
      let later ← signature.roles rest
      return (word, role) :: later

/-- Every word has one role. -/
theorem Signature.roles_words (signature : Signature) {words : List String}
    {roles : List (String × Role)} (h : signature.roles words = .ok roles) :
    roles.map (·.1) = words := by
  induction words generalizing roles with
  | nil => simp_all [Signature.roles]
  | cons word rest ih =>
    simp only [Signature.roles] at h
    split at h
    · simp only [Except.ok.injEq] at h
      subst h
      simp [Function.comp_def]
    · cases hc : signature.classify word with
      | error message => simp [hc, bind, Except.bind] at h
      | ok role =>
        cases hr : signature.roles rest with
        | error message => simp [hc, hr, bind, Except.bind] at h
        | ok later =>
          simp only [hc, hr, bind, Except.bind, pure, Except.pure, Except.ok.injEq] at h
          subst h
          simp [ih hr]

/-! ## Taking the words -/

/-- What the words of a command line give. -/
structure Given where
  flags : List String := []
  values : List (String × String) := []
  positional : Option (List String) := none
  extras : List String := []

/-- Why the words of a command line are not taken. -/
inductive Stop where
  /-- Help was asked for. -/
  | help
  /-- A word is wrong, with a message. -/
  | wrong (message : String)
deriving DecidableEq, Repr

/-- The message about an argument. -/
def aboutArgument (title message : String) : Stop :=
  .wrong ("argument " ++ title ++ ": " ++ message)

/-- The message about a value where none is taken. -/
def unusedValue (spec : OptionSpec) (value : String) : Stop :=
  aboutArgument spec.title ("ignored explicit argument " ++ Text.quote value)

/-- The options of one word, and the part of the word that is no option. -/
structure Cluster where
  uses : List (OptionSpec × Option String)
  unknown : Option String := none

/-- A cluster that another option precedes. -/
def Cluster.after (cluster : Cluster) (spec : OptionSpec) : Cluster :=
  { cluster with uses := (spec, none) :: cluster.uses }

/-- The options that a word stands for: one, or several one-letter options.  The last one may have
a value attached.  The letters from the first one on that is no option are an unknown option. -/
def Signature.expand (signature : Signature) (spec : OptionSpec) (isLetter byEquals : Bool) :
    Option (List Char) → Except Stop Cluster
  | none => .ok { uses := [(spec, none)] }
  | some value =>
    if spec.takesValue then .ok { uses := [(spec, some (String.ofList value))] }
    else
      match value with
      | [] => .error (unusedValue spec "")
      | letter :: rest =>
        if !isLetter || byEquals || letter == '-' then
          .error (unusedValue spec (String.ofList (letter :: rest)))
        else
          match signature.find? (String.ofList ['-', letter]) with
          | none => .ok ⟨[(spec, none)], some (String.ofList ('-' :: letter :: rest))⟩
          | some next =>
            match rest with
            | [] => .ok { uses := [(spec, none), (next, none)] }
            | '=' :: attached => (·.after spec) <$> signature.expand next true true (some attached)
            | more :: others =>
              (·.after spec) <$> signature.expand next true false (some (more :: others))
termination_by value => (value.elim 0 List.length)

/-- Carries out an option. -/
def Given.take (given : Given) (spec : OptionSpec) (value : String) : Except Stop Given :=
  match spec.action with
  | .help => .error .help
  | .flag => .ok { given with flags := spec.key :: given.flags }
  | .value check =>
    match check value with
    | .error message => .error (aboutArgument spec.title message)
    | .ok () => .ok { given with values := (spec.key, value) :: given.values }

/-- Carries out the options of one word. -/
def Given.takeAll (given : Given) :
    List (OptionSpec × Option String) → Except Stop Given
  | [] => .ok given
  | (spec, value) :: rest => do
    let given ← given.take spec (value.getD "")
    given.takeAll rest

/-- The last of several options wants the next word as its value. -/
def wantsNext (uses : List (OptionSpec × Option String)) : Option OptionSpec :=
  match uses.getLast? with
  | some (spec, none) => if spec.takesValue then some spec else none
  | _ => none

/-- The options of one word, of which the last one gets a value. -/
def withValue (uses : List (OptionSpec × Option String)) (value : String) :
    List (OptionSpec × Option String) :=
  match uses.getLast? with
  | some (spec, none) => uses.dropLast ++ [(spec, some value)]
  | _ => uses

/-- Adds a word that nothing takes. -/
def Given.addExtra (given : Given) (word : String) : Given :=
  { given with extras := given.extras ++ [word] }

/-- Takes the words in order.  A separator right after the word that was taken as the argument
belongs to it. -/
def Signature.takeWords (signature : Signature) (given : Given) (afterArgument : Bool) :
    List (String × Role) → Except Stop Given
  | [] => .ok given
  | (word, .unknown) :: rest => signature.takeWords (given.addExtra word) false rest
  | (_, .option use) :: rest => do
    let isLetter := (use.name.toList.drop 1).head? != some '-'
    let ⟨uses, unknown⟩ ←
      signature.expand use.spec isLetter use.byEquals (use.attached.map String.toList)
    match wantsNext uses with
    | none =>
      let taken ← given.takeAll uses
      signature.takeWords (unknown.elim taken taken.addExtra) false rest
    | some spec =>
      match rest with
      | (value, .plain) :: rest =>
        signature.takeWords (← given.takeAll (withValue uses value)) false rest
      | _ => .error (aboutArgument spec.title "expected one argument")
  | (word, .separator) :: rest =>
    if afterArgument then signature.takeWords given false rest
    else
      match given.positional, signature.positional, rest with
      | none, .command _ _, _ :: _ =>
        .ok { given with positional := some (word :: rest.map (·.1)) }
      | none, .one _, (value, _) :: later =>
        signature.takeWords { given with positional := some [value] } false later
      | _, _, later => .ok { given with extras := given.extras ++ word :: later.map (·.1) }
  | (word, .plain) :: rest =>
    match given.positional, signature.positional with
    | none, .command _ _ => .ok { given with positional := some (word :: rest.map (·.1)) }
    | none, .one _ => signature.takeWords { given with positional := some [word] } true rest
    | some _, _ => signature.takeWords (given.addExtra word) false rest

/-- What the words of a command line give, by a signature. -/
def Signature.read (signature : Signature) (words : List String) : Except Stop Given := do
  let roles ← (signature.roles words).mapError .wrong
  let given ← signature.takeWords {} false roles
  match signature.positional, given.positional with
  | .one name, none => .error (.wrong ("the following arguments are required: " ++ name))
  | _, _ => return given

/-- Whether a flag was given. -/
def Given.has (given : Given) (key : String) : Bool :=
  given.flags.contains key

/-- The value that was given last for an option. -/
def Given.value? (given : Given) (key : String) : Option String :=
  given.values.lookup key

end CommandLine
end TestScaffold
