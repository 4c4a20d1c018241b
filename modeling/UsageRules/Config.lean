import UsageRules.Decimal.Style
import UsageRules.Json.Reader
import UsageRules.Text.Lowercase
import UsageRules.Text.Search

/-! The settings of a mining run, and what makes them acceptable. One of them is a pattern, of
whatever language of patterns is in use. -/

namespace UsageRules

structure Config where
  /-- How many transactions must contain a set; a count, not a share. -/
  minSupport : Nat := 10
  minConfidence : Float := 0.5
  targetPrefixes : List String := ["javax", "org.eclipse.microprofile"]
  /-- Only items with this text are searched for parts of the library. -/
  libraryText : String := "org.eclipse.microprofile"
  /-- The pattern of the name of a part of the library. -/
  subApiPattern : String := "org\\.eclipse\\.microprofile\\.\\w+"
  /-- The parts of the library that are mined. -/
  subApiPrefixes : List String := [
    "org.eclipse.microprofile.config", "org.eclipse.microprofile.faulttolerance",
    "org.eclipse.microprofile.graphql", "org.eclipse.microprofile.health",
    "org.eclipse.microprofile.jwt", "org.eclipse.microprofile.metrics",
    "org.eclipse.microprofile.openapi", "org.eclipse.microprofile.opentracing",
    "org.eclipse.microprofile.reactive", "org.eclipse.microprofile.rest"]
  minUsagesPerProject : Nat := 1
  minBucketTransactions : Nat := 10
  /-- Projects with one of these in their names are toys. -/
  excludedKeywords : List String := [
    "demo", "workshop", "guide", "guides", "example", "playground", "getting-started", "sample",
    "samples", "starter", "quickstart", "quick-start", "examples", "tutorial"]
  version : String := "v0.0.10"

inductive ConfigError where
  | zeroSupport
  | confidenceOutOfRange (confidence : Float)
  | noTargetPrefixes
  | badSubApiPattern (pattern : String)
  | badVersionTag (tag : String)

def badVersionTagMessage (tag : String) : String :=
  "version tag `" ++ tag ++ "` must start with 'v'"

def ConfigError.message : ConfigError → String
  | zeroSupport => "min_support must be at least 1"
  | confidenceOutOfRange confidence =>
    "min_confidence " ++ NumberStyle.messageText confidence ++ " is outside [0, 1]"
  | noTargetPrefixes => "at least one target prefix is required"
  | badSubApiPattern pattern => "invalid sub-API pattern `" ++ pattern ++ "`"
  | badVersionTag tag => badVersionTagMessage tag

def isVersionTag (tag : String) : Bool := Text.beginsWith tag "v"

namespace Config

def matcher [PatternLanguage] (c : Config) : Except ConfigError Matcher :=
  match PatternLanguage.matcher? c.subApiPattern with
  | some matcher => .ok matcher
  | none => .error (.badSubApiPattern c.subApiPattern)

/-- The first of the faults that make a configuration unacceptable. -/
def validate [PatternLanguage] (c : Config) : Except ConfigError Unit := do
  if c.minSupport = 0 then throw .zeroSupport
  if !(0.0 ≤ c.minConfidence && c.minConfidence ≤ 1.0) then
    throw (.confidenceOutOfRange c.minConfidence)
  if c.targetPrefixes.isEmpty then throw .noTargetPrefixes
  let _ ← c.matcher
  if !isVersionTag c.version then throw (.badVersionTag c.version)

/-- The project's name in lower case has one of the keywords; keywords are taken as they are. -/
def excludes (c : Config) (project : String) : Bool :=
  let lower := (Text.lowercase project).toList
  c.excludedKeywords.any fun keyword => Text.occurs keyword.toList lower

def fieldNames : List String := [
  "min_support", "min_confidence", "target_prefixes", "library_prefix", "sub_api_pattern",
  "sub_api_prefixes", "min_usages_per_project", "min_bucket_transactions",
  "excluded_project_keywords", "version"]

/-- Absent fields have their default values. -/
def ofJson (v : Json) : Option Config := do
  match ← v.asRecord fieldNames with
  | [minSupport, minConfidence, targetPrefixes, libraryText, subApiPattern, subApiPrefixes,
      minUsagesPerProject, minBucketTransactions, excludedKeywords, version] =>
    let d : Config := {}
    some {
      minSupport := ← Json.orDefault Json.asNat d.minSupport minSupport
      minConfidence := ← Json.orDefault Json.asFloat d.minConfidence minConfidence
      targetPrefixes := ← Json.orDefault Json.asStrings d.targetPrefixes targetPrefixes
      libraryText := ← Json.orDefault Json.asString d.libraryText libraryText
      subApiPattern := ← Json.orDefault Json.asString d.subApiPattern subApiPattern
      subApiPrefixes := ← Json.orDefault Json.asStrings d.subApiPrefixes subApiPrefixes
      minUsagesPerProject := ← Json.orDefault Json.asNat d.minUsagesPerProject minUsagesPerProject
      minBucketTransactions :=
        ← Json.orDefault Json.asNat d.minBucketTransactions minBucketTransactions
      excludedKeywords := ← Json.orDefault Json.asStrings d.excludedKeywords excludedKeywords
      version := ← Json.orDefault Json.asString d.version version }
  | _ => none

end Config

end UsageRules
