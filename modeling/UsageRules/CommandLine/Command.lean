import UsageRules.CommandLine.Arguments
import UsageRules.CommandLine.Report
import UsageRules.Convention.Known
import UsageRules.Pattern.Search
import UsageRules.RuleFile

/-! The commands of the program: what they read and write, in which order, and what they print. -/

namespace UsageRules

namespace CommandLine

/-! ## Errors -/

inductive CommandError where
  | config (e : ConfigError)
  | rule (e : RuleError)
  | rules (e : RulesError)
  /-- A settings or declaration file that cannot be read. -/
  | unreadable (path : String) (cause : FileError)
  /-- A settings or declaration file that does not hold what it should. -/
  | unparsable (path : String)
  | usagesUnreadable (path : String) (cause : FileError)
  | usagesUnparsable (path : String)
  | notCreated (directory : String) (cause : FileError)
  | notWritten (path : String) (cause : FileError)
  | noRuleFile (path : String)

namespace CommandError

def message : CommandError → String
  | config e => e.message
  | rule e => e.message
  | rules e => e.message
  | unreadable path cause => "failed to read " ++ path ++ ": " ++ cause.message
  | unparsable path => "failed to parse " ++ path
  | usagesUnreadable path _ => "failed to read usages from " ++ path
  | usagesUnparsable path => "failed to parse usages in " ++ path
  | notCreated directory _ => "failed to create " ++ directory
  | notWritten path _ => "failed to write " ++ path
  | noRuleFile path => "no rule file at " ++ path ++ "; run `annomine mine` first"

def causes : CommandError → List String
  | rules e => e.causes
  | unreadable _ cause => [cause.message]
  | usagesUnreadable _ cause => [cause.message]
  | notCreated _ cause => [cause.message]
  | notWritten _ cause => [cause.message]
  | _ => []

/-- The lines of a list of causes: indented, and numbered if there are several. -/
def causeLines (causes : List String) : List String :=
  match causes with
  | [] => []
  | [cause] => ["", "Caused by:", "    " ++ cause]
  | causes => ["", "Caused by:"] ++ causes.zipIdx.map fun (cause, i) =>
    "    " ++ number i ++ ": " ++ cause

def lines (e : CommandError) : List String :=
  ("Error: " ++ e.message) :: causeLines e.causes

end CommandError

/-! ## Running -/

/-- The lines printed so far, to the output and to the error output. -/
structure Transcript where
  out : List String := []
  err : List String := []
  deriving DecidableEq, Repr

/-- A command prints, uses the place it runs at, and may fail. -/
abbrev Command (m : Type → Type) := ExceptT CommandError (StateT Transcript m)

def linesText (lines : List String) : String := String.join (lines.map (· ++ "\n"))

variable {m : Type → Type} [Monad m] [FileHost m]

def print (lines : List String) : Command m Unit :=
  modify fun t => { t with out := t.out ++ lines }

def printError (lines : List String) : Command m Unit :=
  modify fun t => { t with err := t.err ++ lines }

/-- An operation of the place, of which a failure is a failure of the command. -/
def attempt {α : Type} (x : m (Except FileError α)) (asError : FileError → CommandError) :
    Command m α := do
  match ← (x : m _) with
  | .ok a => return a
  | .error e => throw (asError e)

/-- An operation on stored rules, of which a failure is a failure of the command. -/
def onRules {α : Type} (x : ExceptT RulesError m α) : Command m α := do
  match ← (x.run : m _) with
  | .ok a => return a
  | .error e => throw (.rules e)

/-- A value, of which the absence is a failure of the command. -/
def expect {α : Type} (x : Option α) (e : CommandError) : Command m α :=
  match x with
  | some a => return a
  | none => throw e

/-- A checked value, of which the refusal is a failure of the command. -/
def check {ε α : Type} (x : Except ε α) (asError : ε → CommandError) : Command m α :=
  match x with
  | .ok a => return a
  | .error e => throw (asError e)

/-! ## Reading -/

def readDocument {α : Type} (read : Json → Option α) (path : String) : Command m α := do
  let text ← attempt (FileHost.readText path) (.unreadable path)
  expect ((Json.parse? text).bind read) (.unparsable path)

def loadConfigFile [PatternLanguage] (path : String) : Command m Config := do
  let config ← readDocument Config.ofJson path
  check config.validate .config
  return config

/-- The configuration of a file, or the default one. -/
def loadConfig [PatternLanguage] (path : Option String) : Command m Config :=
  match path with
  | none => return {}
  | some path => loadConfigFile path

def loadRequired (path : String) : Command m RequiredParams :=
  return .ofDeclarations (← readDocument (Json.asList Declaration.ofJson) path)

def loadUsages (path : String) : Command m Corpus := do
  let text ← attempt (FileHost.readText path) (.usagesUnreadable path)
  expect ((Json.parse? text).bind Corpus.ofJson) (.usagesUnparsable path)

namespace Target

def version (t : Target) (c : Config) : String := t.tag.getD c.version

def ruleFile (t : Target) (version : String) : Command m String :=
  return Path.join t.rulesDirectory (← check (RuleFile.nameOf version) .rules)

end Target

/-! ## Commands -/

/-- The summary that a mining run leaves in a file. -/
def runRecord (time version rulesFile : String) (outcome : MiningOutcome) (autoLabeled : Nat) :
    Json := .ofFields [
  ("generated_at", .ofString time), ("version", .ofString version),
  ("rules_file", .ofString rulesFile), ("preparation", outcome.preparation.toJson),
  ("summary", outcome.summary.toJson), ("auto_labeled", .ofNat autoLabeled)]

/-- The records of mined rules with the labels of earlier versions, and how many the known
conventions labelled besides. -/
def recordsOf (history : History) (rules : List Rule) (version : String) (autoLabel : Bool) :
    List Record × Nat :=
  let records := (history.annotate rules version).map Record.ofRule
  if autoLabel then
    (Record.autoLabel Convention.known records, Record.autoLabelCount Convention.known records)
  else (records, 0)

def mine [PatternLanguage] (colours : Bool) (input : String) (declarations : Option String)
    (autoLabel : Bool) (summaryOut : Option String) (target : Target) : Command m Unit := do
  let config ← loadConfig target.config
  let config := { config with version := target.version config }
  print [paint colours .boldGreen "Mining" ++ " " ++ input]
  let required ← match declarations with
    | none => pure ∅
    | some path => loadRequired path
  let corpus ← loadUsages input
  let miner ← check (Miner.make config required) .config
  let outcome ← check (miner.run corpus) .rule
  attempt (FileHost.makeDirectories target.rulesDirectory) (.notCreated target.rulesDirectory)
  let history ← onRules (History.load target.rulesDirectory)
  let (records, autoLabeled) := recordsOf history outcome.rules config.version autoLabel
  let rulesFile ← onRules (RuleFile.write target.rulesDirectory config.version records)
  print (miningReport colours outcome.summary outcome.preparation records)
  printError [paint colours .boldGreen "wrote" ++ " " ++ paint colours .bold rulesFile]
  match summaryOut with
  | none => return
  | some path =>
    let time ← (FileHost.timeStamp : m String)
    let text := (runRecord time config.version rulesFile outcome autoLabeled).pretty
    attempt (FileHost.writeText path text) (.notWritten path)

def stats [PatternLanguage] (colours : Bool) (benchmark : Option String) (json : Bool)
    (target : Target) : Command m Unit := do
  let config ← loadConfig target.config
  let history ← onRules (History.load target.rulesDirectory)
  let baseline ← check (Baseline.ofHistory history (target.version config)) .rules
  let expected ← match benchmark with
    | none => pure none
    | some path => some <$> onRules (RuleFile.read path)
  let report := StabilityReport.compute baseline expected
  print (if json then [report.toJson.pretty] else stabilityReport colours report)

def label [PatternLanguage] (colours : Bool) (target : Target) : Command m Unit := do
  let config ← loadConfig target.config
  let version := target.version config
  let path ← target.ruleFile version
  if !(← (FileHost.pathExists path : m Bool)) then throw (.noRuleFile path)
  let records ← onRules (RuleFile.read path)
  let labeled := Record.autoLabel Convention.known records
  let _ ← onRules (RuleFile.write target.rulesDirectory version labeled)
  print [
    paint colours .boldGreen "Labeled" ++ " " ++
      number (Record.autoLabelCount Convention.known records) ++ " rule(s) as " ++
      paint colours .cyan "part. correct",
    "  " ++ paint colours .yellow "→" ++ " " ++ number (labeled.countP (·.label.isUnknown)) ++
      " rule(s) still unknown"]

def redundancy [PatternLanguage] (colours strict : Bool) (target : Target) : Command m Unit := do
  let config ← loadConfig target.config
  let path ← target.ruleFile (target.version config)
  let records ← onRules (RuleFile.read path)
  if strict then check (checkComplete records) .rules
  print (redundancyReport colours (RedundancyReport.compute records) records)

def Invocation.command [PatternLanguage] (colours : Bool) : Invocation → Command m Unit
  | .mine input declarations autoLabel summaryOut target =>
    CommandLine.mine colours input declarations autoLabel summaryOut target
  | .stats benchmark json target => CommandLine.stats colours benchmark json target
  | .label target => CommandLine.label colours target
  | .redundancy strict target => CommandLine.redundancy colours strict target

/-- What a run of the program leaves: its exit code and its two outputs. -/
structure Outcome where
  exitCode : UInt8
  out : String
  err : String
  deriving DecidableEq, Repr

/-- Runs the program with its arguments. A failed command exits with 1, misused arguments with
2. -/
def run [PatternLanguage] (colours : Bool) (args : List String) : m Outcome := do
  match Invocation.parse? args with
  | none => return ⟨2, "", "Error: misused arguments\n"⟩
  | some invocation =>
    let (result, transcript) ← ((invocation.command colours).run).run {}
    match result with
    | .ok () => return ⟨0, linesText transcript.out, linesText transcript.err⟩
    | .error e =>
      return ⟨1, linesText transcript.out, linesText (transcript.err ++ e.lines)⟩

end CommandLine

end UsageRules
