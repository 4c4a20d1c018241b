import UsageRules.Text.Search

/-! The arguments of the program: a command, and options in any order. An option is given at most
once. Its value is the next argument, which must not look like an option, or follows an equals
sign. -/

namespace UsageRules

namespace CommandLine

structure Target where
  rulesDirectory : String := "."
  tag : Option String := none
  config : Option String := none
  deriving DecidableEq, Repr

inductive Invocation where
  | mine (input : String) (declarations : Option String) (autoLabel : Bool)
      (summaryOut : Option String) (target : Target)
  | stats (benchmark : Option String) (json : Bool) (target : Target)
  | label (target : Target)
  | redundancy (strict : Bool) (target : Target)
  deriving DecidableEq, Repr

/-- What an option takes: nothing, any text, or a path, which must not be empty. -/
inductive OptionKind where
  | flag
  | text
  | path
  deriving DecidableEq, Repr

structure OptionSpec where
  name : String
  kind : OptionKind
  short : Option Char := none
  deriving DecidableEq, Repr

def targetOptions : List OptionSpec := [⟨"rules-dir", .path, none⟩, ⟨"tag", .text, none⟩,
  ⟨"config", .path, none⟩]

def optionsOf : String → Option (List OptionSpec)
  | "mine" => some ([⟨"input", .path, some 'i'⟩, ⟨"annotations", .path, none⟩,
      ⟨"auto-label", .flag, none⟩, ⟨"summary-out", .path, none⟩] ++ targetOptions)
  | "stats" => some ([⟨"benchmark", .path, none⟩, ⟨"json", .flag, none⟩] ++ targetOptions)
  | "label" => some targetOptions
  | "redundancy" => some (⟨"strict", .flag, none⟩ :: targetOptions)
  | _ => none

/-- The options given, by name; flags have an empty value. -/
abbrev Given := List (String × String)

/-- Adds an option with its value. -/
def addOption (given : Given) (spec : OptionSpec) (value : String) : Option Given :=
  if given.any (·.1 = spec.name) || (spec.kind = .path && value.isEmpty) then none
  else some ((spec.name, value) :: given)

/-- An option as it is written: what names it, and its value if that follows in the same
argument. -/
inductive Written where
  | long (name : String) (value : Option String)
  | short (c : Char) (value : Option String)

/-- The option that an argument is written as, if it looks like one. -/
def Written.of? (arg : String) : Option Written :=
  match arg.toList with
  | '-' :: '-' :: rest =>
    match Text.splitAtFirst '=' rest with
    | some (name, value) => some (.long (String.ofList name) (some (String.ofList value)))
    | none => some (.long (String.ofList rest) none)
  | ['-'] => none
  | '-' :: c :: [] => some (.short c none)
  | '-' :: c :: '=' :: value => some (.short c (some (String.ofList value)))
  | '-' :: c :: value => some (.short c (some (String.ofList value)))
  | _ => none

def Written.spec? (specs : List OptionSpec) : Written → Option OptionSpec
  | long name _ => specs.find? (·.name = name)
  | short c _ => specs.find? (·.short = some c)

def Written.value? : Written → Option String
  | long _ value => value
  | short _ value => value

/-- The options of a list of arguments; nothing if the arguments are misused. -/
def parseOptions (specs : List OptionSpec) : List String → Given → Option Given
  | [], given => some given
  | ["--"], given => some given
  | [arg], given => do
    let written ← Written.of? arg
    let spec ← written.spec? specs
    match spec.kind, written.value? with
    | .flag, none => addOption given spec ""
    | .flag, some _ => none
    | _, some value => addOption given spec value
    | _, none => none
  | arg :: next :: args, given => do
    let written ← Written.of? arg
    let spec ← written.spec? specs
    match spec.kind, written.value? with
    | .flag, none => do parseOptions specs (next :: args) (← addOption given spec "")
    | .flag, some _ => none
    | _, some value => do parseOptions specs (next :: args) (← addOption given spec value)
    | _, none =>
      if (Written.of? next).isSome then none
      else do parseOptions specs args (← addOption given spec next)

namespace Given

def value? (given : Given) (name : String) : Option String := given.lookup name

def has (given : Given) (name : String) : Bool := given.any (·.1 = name)

def target (given : Given) : Target where
  rulesDirectory := (given.value? "rules-dir").getD "."
  tag := given.value? "tag"
  config := given.value? "config"

end Given

def Invocation.parse? : List String → Option Invocation
  | [] => none
  | command :: args => do
    let given ← parseOptions (← optionsOf command) args []
    match command with
    | "mine" =>
      return mine (← given.value? "input") (given.value? "annotations") (given.has "auto-label")
        (given.value? "summary-out") given.target
    | "stats" => return stats (given.value? "benchmark") (given.has "json") given.target
    | "label" => return label given.target
    | _ => return redundancy (given.has "strict") given.target

end CommandLine

end UsageRules
