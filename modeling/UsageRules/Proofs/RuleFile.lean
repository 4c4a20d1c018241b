import UsageRules.Proofs.Files.Tree
import UsageRules.Proofs.Json.Blank
import UsageRules.Proofs.Json.RoundTrip
import UsageRules.Proofs.Record
import UsageRules.RuleFile

/-! Rule files keep the records that are written to them. -/

namespace UsageRules.RuleFile

/-! ## Texts -/

/-- A text that is a document has the records of the document. -/
theorem recordsOf?_of_parse {text : String} {v : Json} (h : Json.parse? text = some v) :
    recordsOf? text =
      (v.asOptional (Json.asList Record.ofJson)).map fun records => records.getD [] := by
  have hblank : ¬Text.isBlankText text = true := by
    intro hblank
    rw [Json.parse?_of_isBlankText hblank] at h
    cases h
  rw [recordsOf?, if_neg hblank, h, Option.bind_eq_bind, Option.bind_some]
  cases v.asOptional (Json.asList Record.ofJson) <;> rfl

/-- The records of a text are those that it was made of. -/
theorem recordsOf?_textOf (records : List Record) : recordsOf? (textOf records) = some records := by
  have hdocument : Json.asOptional (Json.asList Record.ofJson)
      (.array (records.map Record.toJson)) = some (some records) :=
    congrArg (Option.map some) (Json.asList_map Record.ofJson_toJson records)
  have hparse : Json.parse? (textOf records) = some (.array (records.map Record.toJson)) :=
    Json.parse?_pretty _
  rw [recordsOf?_of_parse hparse, hdocument]
  rfl

/-! ## Files -/

/-- An operation on the rule files of a tree. -/
abbrev OnTree (α : Type) : Type := ExceptT RulesError (StateM FileTree) α

section
variable {α β : Type}

theorem run_lift_bind (x : StateM FileTree α) (next : α → OnTree β) (t : FileTree) :
    ((liftM x : OnTree α) >>= next).run.run t = (next (x.run t).1).run.run (x.run t).2 := rfl

theorem run_ok_bind (a : α) (next : α → OnTree β) :
    ((liftM (.ok a : Except RulesError α) : OnTree α) >>= next) = next a := rfl

end

/-- A rule file is written as its text, under the name of its tag. -/
theorem run_write {tag name : String} (h : nameOf tag = .ok name) (directory : String)
    (records : List Record) (t : FileTree) :
    (write directory tag records : OnTree String).run.run t =
      match (FileHost.writeText (Path.join directory name) (textOf records) :
        StateM FileTree _).run t with
      | (.error e, t') => (.error (.io (Path.join directory name) e), t')
      | (.ok (), t') => (.ok (Path.join directory name), t') := by
  rw [write, h, run_ok_bind, run_lift_bind]
  generalize (FileHost.writeText (Path.join directory name) (textOf records) :
    StateM FileTree _).run t = outcome
  rcases outcome with ⟨e | _, t'⟩ <;> rfl

theorem writeText_of_write {directory tag path : String} {records : List Record}
    {t t' : FileTree}
    (h : (write directory tag records : OnTree String).run.run t = (.ok path, t')) :
    (FileHost.writeText path (textOf records) : StateM FileTree _).run t = (.ok (), t') := by
  cases hname : nameOf tag with
  | error e =>
    rw [write, hname] at h
    cases h
  | ok name =>
    rw [run_write hname] at h
    split at h
    · cases h
    · rename_i hwrite
      cases h
      exact hwrite

/-- If a rule file cannot be written nothing is. -/
theorem tree_eq_of_write_eq_error {directory tag : String} {records : List Record}
    {t t' : FileTree} {e : RulesError}
    (h : (write directory tag records : OnTree String).run.run t = (.error e, t')) : t' = t := by
  cases hname : nameOf tag with
  | error e' =>
    rw [write, hname] at h
    cases h
    rfl
  | ok name =>
    rw [run_write hname, FileTree.run_writeText] at h
    split at h
    · rename_i heq
      split at heq
      · cases heq
      · cases heq
        cases h
        rfl
    · cases h

theorem run_read {path : String} {records : List Record} {t : FileTree}
    (h : (FileHost.readText path : StateM FileTree _).run t = (.ok (textOf records), t)) :
    (read path : OnTree (List Record)).run.run t = (.ok records, t) := by
  rw [read, run_lift_bind, h]
  dsimp only
  rw [recordsOf?_textOf]
  rfl

/-- The text of any records is read as these records in their order. So is a rule file that was
written, wherever it came to be. -/
theorem records_kept (records : List Record) :
    recordsOf? (textOf records) = some records ∧
      ∀ (directory tag path : String) (t t' : FileTree),
        (write directory tag records : OnTree String).run.run t = (.ok path, t') →
          (read path : OnTree (List Record)).run.run t' = (.ok records, t') :=
  ⟨recordsOf?_textOf records, fun _ _ _ _ _ h =>
    run_read (FileTree.readText_of_writeText (writeText_of_write h))⟩

/-- A record with no item to conclude and with items that no plain text could hold. -/
def oddRecord : Record where
  id := Int64.minValue
  antecedent := .ofList ["\"quoted\" \\ and /", "\x00\x1f\n\t\x7f", "𝄞 é \u2028", ""]
  consequent := ∅
  label := .partlyCorrect
  sameAs := some (-1)

theorem oddRecord_kept :
    ∃ t', (write "" "v1" [oddRecord, oddRecord] : OnTree String).run.run .empty =
        (.ok "rules_v1.json", t') ∧
      (read "rules_v1.json" : OnTree (List Record)).run.run t' =
        (.ok [oddRecord, oddRecord], t') :=
  ⟨_, by rfl, (records_kept [oddRecord, oddRecord]).2 "" "v1" _ .empty _ (by rfl)⟩

end UsageRules.RuleFile
