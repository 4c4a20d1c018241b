import UsageRules.Proofs.Convention.Pruning
import UsageRules.Proofs.Graph.Readings
import UsageRules.Proofs.SetSize

/-! Required parameters, from the declarations that ask for them to the item sets that lose them. Of
declarations of one name the last counts, so a declared parameter can be forgotten
(`RequiredParams.isRequired_redeclared`); otherwise a lookup knows what is declared and pruning
takes it out (`RequiredParams.isRequired_iff_last`). Of rendered edges pruning takes those that give
an annotation a required parameter. As no such edge declares an annotation, what is meaningful stays
so (`ItemSet.strip_ofEdges`). -/

namespace UsageRules

/-! ## Declarations -/

namespace Declaration

/-- No declaration of the name comes after this one. -/
def IsLastOf (d : Declaration) (l : List Declaration) : Prop :=
  ∃ before after, l = before ++ d :: after ∧ ∀ other ∈ after, other.name ≠ d.name

/-- The declaration requires a parameter of the name. -/
def Requires (d : Declaration) (param : String) : Prop := ∃ p ∈ d.requiredParams, p.name = param

theorem find?_reverse_name_iff {l : List Declaration} {d : Declaration} {name : String} :
    l.reverse.find? (·.name = name) = some d ↔ d.IsLastOf l ∧ d.name = name := by
  rw [List.find?_eq_some_iff_append, and_comm, decide_eq_true_eq]
  refine and_congr_left ?_
  rintro rfl
  constructor
  · rintro ⟨after, before, hsplit, hother⟩
    refine ⟨before.reverse, after.reverse, ?_, fun other hmem => ?_⟩
    · simpa using congrArg List.reverse hsplit
    · simpa using hother other (List.mem_reverse.mp hmem)
  · rintro ⟨before, after, rfl, hother⟩
    refine ⟨after.reverse, before.reverse, by simp, fun other hmem => ?_⟩
    simpa using hother other (List.mem_reverse.mp hmem)

/-- Each declared name has a last declaration. -/
theorem exists_isLastOf {l : List Declaration} {d : Declaration} (hd : d ∈ l) :
    ∃ last : Declaration, last.IsLastOf l ∧ last.name = d.name := by
  cases hfind : l.reverse.find? (·.name = d.name) with
  | some last => exact ⟨last, find?_reverse_name_iff.mp hfind⟩
  | none =>
    exact absurd (decide_eq_true rfl) (List.find?_eq_none.mp hfind d (List.mem_reverse.mpr hd))

end Declaration

namespace RequiredParams

/-- The text of a fact that gives an annotation a parameter of a type. -/
def paramText (annotated param typeName : String) : String :=
  Fact.text (Fact.annotationStart ++ annotated) Relation.hasParam.name
    (Fact.paramStart ++ (param ++ ":" ++ typeName))

theorem isRequired_ofDeclarations (l : List Declaration) (annotated param : String) :
    (ofDeclarations l).isRequired annotated param = true ↔
      ∃ d : Declaration, d.IsLastOf l ∧ d.name = annotated ∧ d.Requires param := by
  have hget : (ofDeclarations l).get? annotated =
      (l.reverse.find? (·.name = annotated)).map fun d => d.requiredParams.map (·.name) := by
    rw [ofDeclarations, SortedMap.get?_ofList, ← List.map_reverse, List.find?_map, Option.map_map]
    rfl
  rw [isRequired, hget]
  simp only [← and_assoc, ← Declaration.find?_reverse_name_iff]
  cases l.reverse.find? (·.name = annotated) with
  | some d =>
    simp only [Option.map_some, decide_eq_true_eq, List.mem_map, Option.some.injEq, exists_eq_left',
      Declaration.Requires]
  | none =>
    simp only [Option.map_none, Bool.false_eq_true, reduceCtorEq, false_and, exists_false]

theorem requires_paramText {r : RequiredParams} {annotated param : String} (typeName : String)
    (hspace : ' ' ∉ annotated.toList) (hcolon : ':' ∉ param.toList) :
    r.requires (paramText annotated param typeName) = r.isRequired annotated param := by
  rw [requires, paramText, Fact.annotationParam?_text hspace, Fact.paramName_append_type hcolon]

/-- A lookup knows the required parameters of the last declaration of each name, and pruning leaves
just the other ones. So a declared parameter is required unless the last declaration of the name
leaves it out. -/
theorem isRequired_iff_last (l : List Declaration) :
    (∀ annotated param, (ofDeclarations l).isRequired annotated param = true ↔
      ∃ d : Declaration, d.IsLastOf l ∧ d.name = annotated ∧ d.Requires param) ∧
    (∀ d ∈ l, ∀ param, d.Requires param →
      (ofDeclarations l).isRequired d.name param = true ∨
        ∃ last : Declaration, last.IsLastOf l ∧ last.name = d.name ∧ ¬last.Requires param) ∧
    ∀ (items : ItemSet) annotated param typeName, ' ' ∉ annotated.toList → ':' ∉ param.toList →
      (paramText annotated param typeName ∈ items.strip (ofDeclarations l) ↔
        paramText annotated param typeName ∈ items ∧
          ¬∃ d : Declaration, d.IsLastOf l ∧ d.name = annotated ∧ d.Requires param) := by
  refine ⟨isRequired_ofDeclarations l, fun d hd param _ => ?_,
    fun items annotated param typeName hspace hcolon => ?_⟩
  · obtain ⟨last, hlast, hname⟩ := Declaration.exists_isLastOf hd
    by_cases hparam : last.Requires param
    · exact .inl ((isRequired_ofDeclarations l d.name param).mpr ⟨last, hlast, hname, hparam⟩)
    · exact .inr ⟨last, hlast, hname, hparam⟩
  · rw [ItemSet.mem_strip, requires_paramText typeName hspace hcolon,
      ← isRequired_ofDeclarations l annotated param, Bool.not_eq_true]

/-- An annotation that is declared twice, the second time without its required parameter. -/
def redeclared : List Declaration := [
  { name := "a.Retry", requiredParams := [⟨"times", "int"⟩] },
  { name := "a.Retry" }]

/-- The parameter is forgotten, and a fact about it is left in its set. -/
theorem isRequired_redeclared :
    (∃ d ∈ redeclared, d.Requires "times" ∧
      (ofDeclarations redeclared).isRequired d.name "times" = false) ∧
    paramText "a.Retry" "times" "int" ∈
      ItemSet.strip (.singleton (paramText "a.Retry" "times" "int"))
        (ofDeclarations redeclared) := by
  refine ⟨⟨_, List.mem_cons_self, ⟨_, List.mem_cons_self, rfl⟩, ?_⟩, ?_⟩ <;> decide +kernel

/-- With the declarations the other way round it is known. -/
theorem isRequired_redeclared_reverse :
    ' ' ∉ "a.Retry".toList ∧ ':' ∉ "times".toList ∧
      paramText "a.Retry" "times" "int" ∉
        ItemSet.strip (.singleton (paramText "a.Retry" "times" "int"))
          (ofDeclarations redeclared.reverse) := by
  refine ⟨by decide, by decide, fun hmem => ?_⟩
  obtain ⟨-, hnot⟩ := ((isRequired_iff_last redeclared.reverse).2.2 _ "a.Retry" "times" "int"
    (by decide) (by decide)).mp hmem
  exact hnot ⟨{ name := "a.Retry", requiredParams := [⟨"times", "int"⟩] },
    ⟨[{ name := "a.Retry" }], [], rfl, by simp⟩, rfl, _, List.mem_cons_self, rfl⟩

end RequiredParams

/-! ## Edges -/

namespace Edge

variable {e : Edge} {edges : List Edge}

/-- The annotation that the edge gives a parameter, and the name of the parameter. -/
def givenParam? (e : Edge) : Option (String × String) :=
  match e.kind, e.source, e.target with
  | .hasParam, .annotationType annotated, .param name =>
    some (annotated, Fact.paramName (if name.isEmpty then "void" else name))
  | _, _, _ => none

/-- The edge gives an annotation one of its required parameters. -/
def isRequired (required : RequiredParams) (e : Edge) : Bool :=
  match e.givenParam? with
  | some (annotated, param) => required.isRequired annotated param
  | none => false

theorem givenParam?_eq_some_iff {annotated param : String} :
    e.givenParam? = some (annotated, param) ↔
      e.IsParamOf annotated ∧ ∃ name, e.target = .param name ∧
        param = Fact.paramName (if name.isEmpty then "void" else name) := by
  rw [givenParam?, IsParamOf]
  split
  · rename_i annotated' name hkind hsource htarget
    rw [hkind, hsource, htarget]
    simp only [Option.some.injEq, Prod.mk.injEq, Node.annotationType.injEq, Node.param.injEq,
      true_and, exists_eq_left', eq_comm]
  · rename_i hother
    refine iff_of_false nofun ?_
    rintro ⟨⟨hkind, hsource⟩, name, htarget, -⟩
    exact hother annotated name hkind hsource htarget

theorem annotationParam?_render_eq (h : e.HasPlainNames) :
    Fact.annotationParam? e.render = e.givenParam? := by
  ext ⟨annotated, param⟩
  rw [annotationParam?_render h, givenParam?_eq_some_iff]

theorem requires_render (h : e.HasPlainNames) (required : RequiredParams) :
    required.requires e.render = e.isRequired required := by
  rw [RequiredParams.requires, annotationParam?_render_eq h]
  rfl

/-- What says that something is annotated gives no parameter. -/
theorem Annotates.isRequired_eq_false {annotated : String} (h : e.Annotates annotated)
    (required : RequiredParams) : e.isRequired required = false := by
  rw [isRequired, givenParam?, h.1]

end Edge

namespace ItemSet

variable {edges : List Edge}

theorem keepsDeclarations_ofEdges (h : ∀ e ∈ edges, e.HasPlainNames) (required : RequiredParams) :
    (ofEdges edges).KeepsDeclarations required := by
  intro param hparam label hlabel item hitem hdeclares
  obtain ⟨e, he, rfl⟩ := mem_ofEdges.mp hparam
  obtain ⟨f, hf, rfl⟩ := mem_ofEdges.mp hitem
  obtain ⟨annotated, -, rfl⟩ := (Edge.parameterized?_render (h e he) label).mp hlabel
  have hannotates := (Edge.declares_render (h f hf) annotated).mp hdeclares
  rw [Edge.requires_render (h f hf), hannotates.isRequired_eq_false]

/-- A test of texts that tells edges apart takes their texts apart as it does the edges. -/
theorem filter_ofEdges {test : String → Bool} {inClass : Edge → Bool}
    (h : ∀ e ∈ edges, test e.render = inClass e) :
    (ofEdges edges).filter test = ofEdges (edges.filter inClass) := by
  ext item
  simp only [SortedSet.mem_filter, mem_ofEdges, List.mem_filter]
  constructor
  · rintro ⟨⟨e, he, rfl⟩, htest⟩
    exact ⟨e, ⟨he, h e he ▸ htest⟩, rfl⟩
  · rintro ⟨e, ⟨he, hclass⟩, rfl⟩
    exact ⟨⟨e, he, rfl⟩, (h e he).trans hclass⟩

/-- Of the texts of edges with plain names, pruning takes out those of the edges that give an
annotation a required parameter, and counts them. What is left has nothing to prune, and is
meaningful if the whole was. -/
theorem strip_ofEdges (h : ∀ e ∈ edges, e.HasPlainNames) (required : RequiredParams) :
    (∀ e ∈ edges, e.render ∈ (ofEdges edges).strip required ↔ e.isRequired required = false) ∧
    (ofEdges edges).strip required = ofEdges (edges.filter (!·.isRequired required)) ∧
    (ofEdges edges).strippedCount required =
      (ofEdges (edges.filter (·.isRequired required))).size ∧
    ((ofEdges edges).strip required).strip required = (ofEdges edges).strip required ∧
    ((ofEdges edges).isMeaningful = true →
      ((ofEdges edges).strip required).isMeaningful = true) := by
  have hrequires : ∀ e ∈ edges, required.requires e.render = e.isRequired required :=
    fun e he => Edge.requires_render (h e he) required
  refine ⟨fun e he => ?_, ?_, ?_, ?_, isMeaningful_strip (keepsDeclarations_ofEdges h required)⟩
  · rw [mem_strip, hrequires e he]
    exact and_iff_right (mem_ofEdges.mpr ⟨e, he, rfl⟩)
  · exact filter_ofEdges fun e he => congrArg _ (hrequires e he)
  · have hsize := (ofEdges edges).size_filter_add_size_filter_not required.requires
    rw [strippedCount, strip, ← hsize, Nat.add_sub_cancel, filter_ofEdges hrequires]
  · exact strip_strip _ required

/-- A method that is tried again, with a required and with another parameter of the annotation. -/
def retriedMethod : List Edge := [
  ⟨.annotatedWith, .method "load" "void" "", .annotationType "a.Retry", rfl⟩,
  ⟨.hasParam, .annotationType "a.Retry", .param "times:int", rfl⟩,
  ⟨.hasParam, .annotationType "a.Retry", .param "delay:long", rfl⟩,
  ⟨.hasParam, .method "load" "void" "", .param "times:int", rfl⟩]

/-- The parameter of the method is kept, though it is called like the required one. -/
theorem strip_retriedMethod :
    (∀ e ∈ retriedMethod, e.HasPlainNames) ∧
      (ofEdges retriedMethod).strippedCount (.ofList [("a.Retry", ["times"])]) = 1 ∧
      ((ofEdges retriedMethod).strip (.ofList [("a.Retry", ["times"])])).isMeaningful = true := by
  have hplain : ∀ e ∈ retriedMethod, e.HasPlainNames := by decide
  obtain ⟨-, -, hcount, -, hmeaningful⟩ :=
    strip_ofEdges hplain (.ofList [("a.Retry", ["times"])])
  refine ⟨hplain, hcount.trans ?_, hmeaningful ?_⟩ <;> decide +kernel

end ItemSet

end UsageRules
