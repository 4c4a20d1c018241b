import UsageRules.CommandLine.Command
import UsageRules.Proofs.Files.Change
import UsageRules.Proofs.RuleFile.Loading

/-! Commands that run on a file tree: what each of their steps does to the transcript and the
tree. -/

namespace UsageRules.CommandLine

variable {α β : Type}

/-- The result of a command, with the transcript and the tree that it leaves. -/
def runOn (x : Command (StateM FileTree) α) (transcript : Transcript) (t : FileTree) :
    (Except CommandError α × Transcript) × FileTree := (x.run.run transcript).run t

section
variable (transcript : Transcript) (t : FileTree)

theorem runOn_bind (x : Command (StateM FileTree) α) (next : α → Command (StateM FileTree) β) :
    runOn (x >>= next) transcript t = match runOn x transcript t with
      | ((.ok a, transcript'), t') => runOn (next a) transcript' t'
      | ((.error e, transcript'), t') => ((.error e, transcript'), t') := by
  rw [runOn, ExceptT.run_bind, StateT.run_bind, StateT.run_bind, runOn]
  obtain ⟨⟨result, transcript'⟩, t'⟩ := (x.run.run transcript).run t
  cases result <;> rfl

/-- Two commands in a row succeed if each of them does, the second with what the first leaves. -/
theorem runOn_bind_eq_ok_iff {transcript transcript' : Transcript} {t t' : FileTree}
    {x : Command (StateM FileTree) α} {next : α → Command (StateM FileTree) β} {b : β} :
    runOn (x >>= next) transcript t = ((.ok b, transcript'), t') ↔
      ∃ a between made, runOn x transcript t = ((.ok a, between), made) ∧
        runOn (next a) between made = ((.ok b, transcript'), t') := by
  rw [runOn_bind]
  rcases runOn x transcript t with ⟨⟨e | a, between⟩, made⟩ <;> simp

theorem runOn_liftM (x : StateM FileTree α) :
    runOn (liftM x) transcript t = ((.ok (x.run t).1, transcript), (x.run t).2) := rfl

theorem runOn_print (lines : List String) :
    runOn (print lines) transcript t =
      ((.ok (), { transcript with out := transcript.out ++ lines }), t) := rfl

theorem runOn_printError (lines : List String) :
    runOn (printError lines) transcript t =
      ((.ok (), { transcript with err := transcript.err ++ lines }), t) := rfl

theorem runOn_attempt (x : StateM FileTree (Except FileError α))
    (asError : FileError → CommandError) :
    runOn (attempt x asError) transcript t =
      (((x.run t).1.mapError asError, transcript), (x.run t).2) := by
  rw [attempt, runOn_bind, runOn_liftM]
  cases (x.run t).1 <;> rfl

theorem runOn_onRules (x : RuleFile.OnTree α) :
    runOn (onRules x) transcript t =
      (((x.run.run t).1.mapError .rules, transcript), (x.run.run t).2) := by
  rw [onRules, runOn_bind, runOn_liftM]
  dsimp only
  cases (x.run.run t).1 <;> rfl

theorem mapError_pair_eq_ok_iff {ε δ : Type} {transcript transcript' : Transcript} {t' : FileTree}
    {outcome : Except ε α × FileTree} {asError : ε → δ} {a : α} :
    ((outcome.1.mapError asError, transcript), outcome.2) = ((.ok a, transcript'), t') ↔
      outcome = (.ok a, t') ∧ transcript' = transcript := by
  obtain ⟨result, made⟩ := outcome
  simp only [Prod.mk.injEq, mapError_eq_ok_iff]
  tauto

theorem runOn_attempt_eq_ok_iff {transcript transcript' : Transcript} {t t' : FileTree}
    {x : StateM FileTree (Except FileError α)} {asError : FileError → CommandError} {a : α} :
    runOn (attempt x asError) transcript t = ((.ok a, transcript'), t') ↔
      x.run t = (.ok a, t') ∧ transcript' = transcript := by
  rw [runOn_attempt]
  exact mapError_pair_eq_ok_iff

theorem runOn_onRules_eq_ok_iff {transcript transcript' : Transcript} {t t' : FileTree}
    {x : RuleFile.OnTree α} {a : α} :
    runOn (onRules x) transcript t = ((.ok a, transcript'), t') ↔
      x.run.run t = (.ok a, t') ∧ transcript' = transcript := by
  rw [runOn_onRules]
  exact mapError_pair_eq_ok_iff

theorem runOn_expect (x : Option α) (e : CommandError) :
    runOn (expect x e) transcript t = ((match x with
      | some a => .ok a
      | none => .error e, transcript), t) := by
  cases x <;> rfl

theorem runOn_check {ε : Type} (x : Except ε α) (asError : ε → CommandError) :
    runOn (check x asError) transcript t = ((x.mapError asError, transcript), t) := by
  cases x <;> rfl

/-! ## Reading -/

/-- What a file of the tree holds, read as a document. -/
def documentAt (read : Json → Option α) (t : FileTree) (path : String) : Except CommandError α :=
  match t.textAt path with
  | .error e => .error (.unreadable path e)
  | .ok text => match (Json.parse? text).bind read with
    | some a => .ok a
    | none => .error (.unparsable path)

/-- The configuration that a command runs with. -/
def configAt [PatternLanguage] (t : FileTree) : Option String → Except CommandError Config
  | none => .ok {}
  | some path => do
    let config ← documentAt Config.ofJson t path
    config.validate.mapError .config
    return config

theorem runOn_readDocument (read : Json → Option α) (path : String) :
    runOn (readDocument read path) transcript t = ((documentAt read t path, transcript), t) := by
  rw [readDocument, runOn_bind, runOn_attempt, FileTree.run_readText, documentAt]
  cases t.textAt path with
  | error e => rfl
  | ok text => exact runOn_expect transcript t _ _

theorem runOn_loadConfig [PatternLanguage] (path : Option String) :
    runOn (loadConfig path) transcript t = ((configAt t path, transcript), t) := by
  cases path with
  | none => rfl
  | some path =>
    refine (runOn_bind ..).trans ?_
    rw [runOn_readDocument, configAt]
    cases documentAt Config.ofJson t path with
    | error e => rfl
    | ok config =>
      refine (runOn_bind ..).trans ?_
      rw [runOn_check]
      dsimp only [bind, Except.bind]
      cases config.validate <;> rfl

end

theorem documentAt_eq_ok_iff {read : Json → Option α} {t : FileTree} {path : String} {a : α} :
    documentAt read t path = .ok a ↔
      ∃ text, t.textAt path = .ok text ∧ (Json.parse? text).bind read = some a := by
  rw [documentAt]
  cases t.textAt path with
  | error e => simp
  | ok text =>
    dsimp only
    cases hread : (Json.parse? text).bind read <;> simp [hread]

end UsageRules.CommandLine
