/-!
# Arguments of the command

The command has three subcommands, each with options of its own. An option takes a value, in the
next argument or after an equals sign, or it is a flag. Every option may be given once. The
verbosity alone may be raised again and again, and also in front of the subcommand.

## Main definitions

* `Arguments.Choice`: the options.
* `Request`: what a subcommand is asked for.
* `Invocation`, `Invocation.ofArguments?`: a whole command line.
-/

namespace LinePatch

/-- Where the patch comes from. -/
structure Input where
  file : Option String
  source : Option String
  deriving DecidableEq, Repr, Inhabited

/-- Where the settings come from: from a file, if one is given, with these added. -/
structure Choices where
  file : Option String
  strict : Bool
  requireEndMark : Bool
  bareAsContext : Bool
  deriving DecidableEq, Repr, Inhabited

/-- What a subcommand is asked for. -/
inductive Request where
  /-- To apply a patch to the files in the directory `root`. -/
  | apply (input : Input) (choices : Choices) (root : String)
      (extract dryRun json eventJson : Bool)
  /-- To read a patch and show its actions. -/
  | check (input : Input) (choices : Choices) (extract json : Bool)
  /-- To tell whether there is a patch, and for what. -/
  | detect (input : Input)
  deriving DecidableEq, Repr, Inhabited

/-- A command line. -/
structure Invocation where
  verbosity : Nat
  request : Request
  deriving DecidableEq, Repr, Inhabited

namespace Arguments

/-- What an option takes. -/
inductive Takes where
  | nothing
  | text
  /-- A text that is not empty. -/
  | path
  deriving DecidableEq, Repr

/-- An option. -/
inductive Choice where
  | patchFile
  | patchSource
  | config
  | strict
  | requireEndMarker
  | unprefixedAsContext
  | root
  | extract
  | dryRun
  | json
  | eventJson
  deriving DecidableEq, Repr

namespace Choice

/-- How an option is written. -/
def name : Choice → String
  | patchFile => "--patch-file"
  | patchSource => "--patch-source"
  | config => "--config"
  | strict => "--strict"
  | requireEndMarker => "--require-end-marker"
  | unprefixedAsContext => "--unprefixed-as-context"
  | root => "--root"
  | extract => "--extract"
  | dryRun => "--dry-run"
  | json => "--json"
  | eventJson => "--event-json"

def takes : Choice → Takes
  | patchFile | config | root => .path
  | patchSource => .text
  | _ => .nothing

/-- The options that say where the patch comes from. -/
def forInput : List Choice := [patchFile, patchSource]

/-- The options that say where the settings come from. -/
def forSettings : List Choice := [config, strict, requireEndMarker, unprefixedAsContext]

end Choice

/-- What arguments give: how often the verbosity is raised, and the options with their values. -/
structure Given where
  verbosity : Nat
  choices : List (Choice × String)
  deriving DecidableEq, Repr

namespace Given

/-- With the verbosity raised so often. -/
def raise (times : Nat) (given : Given) : Given :=
  { given with verbosity := given.verbosity + times }

/-- With one more option. -/
def choose (choice : Choice) (value : String) (given : Given) : Given :=
  { given with choices := (choice, value) :: given.choices }

/-- The value of an option. -/
def value? (given : Given) (choice : Choice) : Option String :=
  given.choices.lookup choice

/-- Whether an option is given. -/
def has (given : Given) (choice : Choice) : Bool :=
  (given.value? choice).isSome

/-- Whether no option is given twice. -/
def isUnambiguous (given : Given) : Bool :=
  decide (given.choices.map Prod.fst).Nodup

def input (given : Given) : Input :=
  ⟨given.value? .patchFile, given.value? .patchSource⟩

def settings (given : Given) : Choices :=
  ⟨given.value? .config, given.has .strict, given.has .requireEndMarker,
    given.has .unprefixedAsContext⟩

end Given

/-- How often an argument raises the verbosity, if that is what it does. -/
def raises? (argument : String) : Option Nat :=
  if argument = "--verbose" then some 1
  else
    match argument.toList with
    | '-' :: 'v' :: more => if more.all (· == 'v') then some (more.length + 1) else none
    | _ => none

/-- Whether an argument cannot be the value of the option in front of it. -/
def isOptionLike (argument : String) : Bool :=
  argument.toList.head? == some '-' && argument != "-"

/-- An argument up to its first equals sign, and what follows that. -/
def atEquals (argument : String) : String × Option String :=
  match argument.toList.span (· != '=') with
  | (name, _ :: value) => (String.ofList name, some (String.ofList value))
  | (_, []) => (argument, none)

/-- Whether an option takes a value. -/
def Takes.accepts : Takes → String → Bool
  | nothing, _ => false
  | text, _ => true
  | path, value => value != ""

/-- Reads the options of a subcommand, which allows these. -/
def read? (allowed : List Choice) : List String → Option Given
  | [] => some ⟨0, []⟩
  | argument :: rest =>
    if argument = "--" then if rest.isEmpty then some ⟨0, []⟩ else none
    else
      match raises? argument with
      | some times => (read? allowed rest).map (·.raise times)
      | none =>
        let (name, value?) := atEquals argument
        match allowed.find? (·.name == name) with
        | none => none
        | some choice =>
          match choice.takes, value?, rest with
          | .nothing, none, rest => (read? allowed rest).map (·.choose choice "")
          | takes, some value, rest =>
            if takes.accepts value then (read? allowed rest).map (·.choose choice value) else none
          | takes, none, value :: rest =>
            if takes.accepts value && !isOptionLike value then
              (read? allowed rest).map (·.choose choice value)
            else none
          | _, none, [] => none

/-- The options of a subcommand, and how to build its request from them. -/
def subcommand? : String → Option (List Choice × (Given → Request))
  | "apply" =>
    some (Choice.forInput ++ Choice.forSettings ++ [.root, .extract, .dryRun, .json, .eventJson],
      fun given => .apply given.input given.settings ((given.value? .root).getD ".")
        (given.has .extract) (given.has .dryRun) (given.has .json) (given.has .eventJson))
  | "check" =>
    some (Choice.forInput ++ Choice.forSettings ++ [.extract, .json],
      fun given => .check given.input given.settings (given.has .extract) (given.has .json))
  | "detect" => some (Choice.forInput, fun given => .detect given.input)
  | _ => none

end Arguments

open Arguments

/-- The command line that arguments amount to, if they amount to one. -/
def Invocation.ofArguments? : List String → Option Invocation
  | [] => none
  | argument :: rest =>
    match raises? argument with
    | some times =>
      (ofArguments? rest).map fun invocation =>
        { invocation with verbosity := invocation.verbosity + times }
    | none => do
      let (allowed, request) ← subcommand? argument
      let given ← read? allowed rest
      if given.isUnambiguous then some ⟨given.verbosity, request given⟩ else none

end LinePatch
