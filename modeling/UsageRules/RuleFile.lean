import UsageRules.Files.Host
import UsageRules.History
import UsageRules.Json.Parser
import UsageRules.Json.Printer
import UsageRules.RulesError

/-! Rule files: the records of a version are kept in a file that is named for its tag. -/

namespace UsageRules

namespace RuleFile

/-! ## Names -/

def nameStart : String := "rules_"
def nameEnd : String := ".json"

def nameOf (tag : String) : Except RulesError String :=
  if isVersionTag tag then .ok (nameStart ++ tag ++ nameEnd) else .error (.badVersionTag tag)

/-- The version whose rule file has that name; a tag that is only a small v is none. -/
def versionOf? (name : String) : Option String := do
  let rest ← nameStart.toList.isPrefixOf? name.toList
  let tag := String.ofList (← nameEnd.toList.isSuffixOf? rest)
  if 1 < tag.utf8ByteSize && isVersionTag tag then some tag else none

/-! ## Texts -/

def textOf (records : List Record) : String := (Json.array (records.map Record.toJson)).pretty

/-- The records of a text; a text without anything but white space, and null, have none. -/
def recordsOf? (text : String) : Option (List Record) :=
  if Text.isBlankText text then some []
  else do
    let v ← Json.parse? text
    return (← v.asOptional (Json.asList Record.ofJson)).getD []

/-! ## Files -/

variable {m : Type → Type} [Monad m] [FileHost m]

def read (path : String) : ExceptT RulesError m (List Record) := do
  match ← (FileHost.readText path : m _) with
  | .error e => throw (.io path e)
  | .ok text => match recordsOf? text with
    | some records => return records
    | none => throw (.notRules path)

def write (directory tag : String) (records : List Record) : ExceptT RulesError m String := do
  let name ← nameOf tag
  let path := Path.join directory name
  match ← (FileHost.writeText path (textOf records) : m _) with
  | .error e => throw (.io path e)
  | .ok () => return path

end RuleFile

/-- The history of all rule files of a directory; other files are passed over. -/
def History.load {m : Type → Type} [Monad m] [FileHost m] (directory : String) :
    ExceptT RulesError m History := do
  match ← (FileHost.list directory : m _) with
  | .error e => throw (.io directory e)
  | .ok names =>
    let versions ← names.filterMapM fun name => do
      match RuleFile.versionOf? name with
      | none => return none
      | some tag => return some (tag, ← RuleFile.read (Path.join directory name))
    return ⟨SortedMap.ofList versions⟩

end UsageRules
