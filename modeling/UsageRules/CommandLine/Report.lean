import UsageRules.Decimal.Style
import UsageRules.Miner
import UsageRules.Redundancy
import UsageRules.Stability

/-! The reports that the commands print, as lists of lines, with or without colours. -/

namespace UsageRules

namespace CommandLine

/-- Ways to set off a text on a terminal. -/
inductive Ink where
  | bold
  | dimmed
  | red
  | green
  | yellow
  | cyan
  | boldGreen
  | boldYellow
  deriving DecidableEq, Repr

def Ink.codes : Ink → String
  | bold => "1"
  | dimmed => "2"
  | red => "31"
  | green => "32"
  | yellow => "33"
  | cyan => "36"
  | boldGreen => "1;32"
  | boldYellow => "1;33"

def resetCode : List Char := ['\x1b', '[', '0', 'm']

/-- Repeats `start` after every code in the text that ends it. -/
def resume (start : List Char) : List Char → List Char
  | '\x1b' :: '[' :: '0' :: 'm' :: s => resetCode ++ start ++ resume start s
  | c :: s => c :: resume start s
  | [] => []

def paint (colours : Bool) (ink : Ink) (text : String) : String :=
  if colours then
    let start := '\x1b' :: '[' :: ink.codes.toList ++ ['m']
    String.ofList (start ++ resume start text.toList ++ resetCode)
  else text

def number (n : Nat) : String := String.ofList (Numeral.natural n)

def percent (x : Float) : String := fixedPlaces 1 (x * 100.0) ++ "%"

/-! ## Mining -/

def labeledCount (records : List Record) : Nat := records.countP (!·.label.isUnknown)

def miningReport (colours : Bool) (summary : MiningSummary) (preparation : PreparationStats)
    (records : List Record) : List String :=
  let known := labeledCount records
  ["  Projects: " ++ paint colours .cyan (number summary.projectsUsed) ++ " used / " ++
      number summary.projectsGiven ++ " given (" ++ number preparation.projectsExcluded ++
      " excluded, " ++ number preparation.projectsSkipped ++ " skipped)",
    "  Usages: " ++ number summary.uniqueUsages ++ " unique / " ++ number summary.totalUsages ++
      " total"] ++
  preparation.subApiProjects.entries.map (fun e =>
    "    " ++ paint colours .yellow e.1 ++ ": " ++ number e.2 ++ " project(s)") ++
  ["  Buckets: " ++ number summary.bucketsMined ++ " mined, " ++
      number preparation.bucketsDropped ++ " dropped",
    "  Frequent itemsets: " ++ number summary.frequentRaw ++ " raw → " ++ number summary.maximal ++
      " maximal",
    "  Rules: " ++ paint colours .cyan (number summary.finalRules) ++ " (" ++
      number summary.synthesizedRules ++ " synthesized)"] ++
  (if 0 < known then
    ["  " ++ paint colours .yellow "→" ++ " " ++ number known ++
      " rule(s) already labeled in earlier versions"]
  else [])

/-! ## Stability -/

def deltaLines (colours : Bool) (version : String) (d : Delta) : List String :=
  ("  vs " ++ paint colours .yellow version ++ ": " ++
    paint colours .green (number d.hits.size) ++ " hits, " ++
    paint colours .red (number d.misses.size) ++ " misses, " ++ number d.new.size ++ " new") ::
  d.missesByLabel.entries.map fun e => "      missed " ++ e.1.text ++ ": " ++ number e.2

def stabilityReport (colours : Bool) (r : StabilityReport) : List String :=
  [paint colours .boldGreen "Stability of" ++ " " ++ paint colours .cyan r.currentVersion ++ " (" ++
    number r.totalRules ++ " rules)"] ++
  r.perVersion.flatMap (fun e => deltaLines colours e.1 e.2) ++
  ["  Overall: " ++ paint colours .green (number r.overall.hits.size) ++ " hits, " ++
      paint colours .red (number r.overall.misses.size) ++ " misses, " ++
      number r.overall.new.size ++ " new",
    "  Labels:"] ++
  r.labelCounts.entries.map (fun e => "    " ++ e.1.text ++ ": " ++ number e.2) ++
  ["  Precision: " ++ paint colours .bold (percent r.precision),
    match r.benchmarkRecall with
    | some b =>
      "  Recall: " ++ paint colours .bold (percent b.share) ++ " (" ++ number b.exactly ++
        " exact, " ++ number b.partly ++ " partial of " ++ number b.benchmark ++ ")"
    | none => "  Recall: " ++ paint colours .dimmed "no benchmark given"]

/-! ## Redundancy -/

def ruleLines (r : Record) : List String :=
  ["\x7b", "\tIf:"] ++ r.antecedent.toList.map (fun item => "\t" ++ item ++ ",") ++ ["\tThen:"] ++
    r.consequent.toList.map (fun item => "\t" ++ item) ++ ["\x7d"]

def redundancyReport (colours : Bool) (report : RedundancyReport) (records : List Record) :
    List String :=
  [paint colours .boldGreen "Reviewed" ++ " " ++ number report.correctOrPartly ++
      " correct or part. correct rule(s)",
    "  Unique: " ++ paint colours .cyan (number report.unique.size),
    "  Redundant (excluding canonical rules): " ++ number report.redundantTotal] ++
  (if report.unreviewed.isEmpty then []
  else ["  " ++ paint colours .boldYellow "warning:" ++ " " ++ number report.unreviewed.length ++
    " rule(s) without a sameAs decision"]) ++
  (records.filter (·.id ∈ report.unique)).flatMap ruleLines

end CommandLine

end UsageRules
