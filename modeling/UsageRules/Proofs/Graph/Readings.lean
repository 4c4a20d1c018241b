import UsageRules.Graph.Edge
import UsageRules.Proofs.Fact

/-! The readers of texts find in the text of an edge what the edge says. They need only that the
names in the text have no spaces and no opening brackets; a name may look like the beginning of a
label otherwise, since an edge admits few kinds of endpoints and its relation tells which. -/

namespace UsageRules

/-- The texts of edges. -/
def ItemSet.ofEdges (edges : List Edge) : ItemSet := .ofList (edges.map Edge.render)

@[simp] theorem ItemSet.mem_ofEdges {edges : List Edge} {item : String} :
    item ∈ ItemSet.ofEdges edges ↔ ∃ e ∈ edges, e.render = item := by
  rw [ofEdges, SortedSet.mem_ofList, List.mem_map]

/-! ## Plain labels -/

namespace Fact

/-- Without the characters that end a source and that open a relation. -/
def IsPlain (s : String) : Prop := ' ' ∉ s.toList ∧ '(' ∉ s.toList

instance (s : String) : Decidable (IsPlain s) :=
  inferInstanceAs (Decidable (' ' ∉ s.toList ∧ '(' ∉ s.toList))

theorem isPlain_append {s t : String} : IsPlain (s ++ t) ↔ IsPlain s ∧ IsPlain t := by
  simp only [IsPlain, String.toList_append, List.mem_append]
  grind

end Fact

namespace Node

/-- The name in the label of a node, if there is one. -/
def shownName : Node → String
  | classOrInterface _ name => name
  | annotationType name => name
  | param name => name
  | returned typeName => typeName
  | configFile name => name
  | beansFile name => name
  | method .. | constructor .. | field .. | fieldTypeDecl _ | paramTypeDecl _ => ""

theorem isPlain_label {n : Node} (h : Fact.IsPlain n.shownName) : Fact.IsPlain n.label := by
  cases n with
  | classOrInterface kind name =>
    have hkind : Fact.IsPlain (label (.classOrInterface kind "")) := by cases kind <;> decide
    by_cases hname : name.isEmpty = true
    · rwa [String.isEmpty_iff.mp hname]
    · rw [label.eq_def]
      simp only [hname]
      exact Fact.isPlain_append.mpr ⟨by cases kind <;> decide, h⟩
  | method | constructor | field | fieldTypeDecl | paramTypeDecl =>
    rw [label]
    decide
  | annotationType name | configFile name => exact Fact.isPlain_append.mpr ⟨by decide, h⟩
  | param name =>
    refine Fact.isPlain_append.mpr ⟨by decide, ?_⟩
    split
    · decide
    · exact h
  | returned | beansFile => exact h

end Node

/-- The kind of the edges that the relation is said of. -/
def Relation.edgeKind : Relation → EdgeKind
  | hasMethod => .hasMethod
  | hasField => .hasField
  | belongsToClass => .belongsToClass
  | annotatedWith => .annotatedWith
  | hasParam => .hasParam
  | hasReturnType | hasType => .returns
  | extending | implementing => .extending
  | definedIn => .definedInConfig
  | declaredInBeans => .declaredInBeans

namespace Edge

variable {e f : Edge}

/-! ## Endpoints -/

theorem edgeKind_relation (e : Edge) : e.relation.edgeKind = e.kind := by
  cases hkind : e.kind with
  | returns | extending =>
    simp only [relation, hkind]
    split <;> rfl
  | _ => simp only [relation, hkind, Relation.edgeKind]

theorem relation_eq_iff {r : Relation}
    (honly : ∀ r' : Relation, r'.edgeKind = r.edgeKind → r' = r) :
    e.relation = r ↔ e.kind = r.edgeKind := by
  rw [← e.edgeKind_relation]
  exact ⟨congrArg _, honly _⟩

theorem relation_eq_hasParam_iff : e.relation = .hasParam ↔ e.kind = .hasParam :=
  relation_eq_iff (by rintro ⟨⟩ <;> decide)

theorem relation_eq_annotatedWith_iff : e.relation = .annotatedWith ↔ e.kind = .annotatedWith :=
  relation_eq_iff (by rintro ⟨⟩ <;> decide)

theorem exists_target_eq_param (h : e.kind = .hasParam) : ∃ name, e.target = .param name := by
  have hallowed := e.allowed
  cases htarget : e.target <;> simp_all [EdgeKind.allows, Node.kind]

theorem exists_target_eq_annotationType (h : e.kind = .annotatedWith) :
    ∃ name, e.target = .annotationType name := by
  have hallowed := e.allowed
  cases htarget : e.target <;> simp_all [EdgeKind.allows, Node.kind]

/-- Only annotations and members have parameters, and the label of a member is fixed. -/
theorem exists_source_eq_annotationType (h : e.kind = .hasParam)
    (hbegins : Text.beginsWith e.source.label Fact.annotationStart = true) :
    ∃ name, e.source = .annotationType name := by
  have hallowed := e.allowed
  cases hsource : e.source with
  | annotationType name => exact ⟨name, rfl⟩
  | method | constructor =>
    rw [hsource, Node.label] at hbegins
    exact absurd hbegins (by decide)
  | _ => simp_all [EdgeKind.allows, Node.kind]

/-! ## Reading -/

/-- The names in the text of the edge are plain. -/
def HasPlainNames (e : Edge) : Prop :=
  Fact.IsPlain e.source.shownName ∧ Fact.IsPlain e.target.shownName

instance (e : Edge) : Decidable e.HasPlainNames :=
  inferInstanceAs (Decidable (Fact.IsPlain e.source.shownName ∧ Fact.IsPlain e.target.shownName))

/-- The edge gives the annotation a parameter. -/
def IsParamOf (e : Edge) (annotated : String) : Prop :=
  e.kind = .hasParam ∧ e.source = .annotationType annotated

/-- The edge says that something carries the annotation. -/
def Annotates (e : Edge) (name : String) : Prop :=
  e.kind = .annotatedWith ∧ e.target = .annotationType name

theorem hasRelation_render (h : e.HasPlainNames) (r : Relation) :
    Fact.hasRelation e.render r = true ↔ r = e.relation :=
  Fact.hasRelation_text (Node.isPlain_label h.1).2 (Node.isPlain_label h.2).2

/-- A relation that is the only one of its kind of edges tells the kind. -/
theorem hasRelation_render_iff_kind (h : e.HasPlainNames) {r : Relation}
    (honly : ∀ r' : Relation, r'.edgeKind = r.edgeKind → r' = r) :
    Fact.hasRelation e.render r = true ↔ e.kind = r.edgeKind := by
  rw [hasRelation_render h, eq_comm, relation_eq_iff honly]

theorem parameterized?_render (h : e.HasPlainNames) (label : String) :
    Fact.parameterized? e.render = some label ↔
      ∃ a, e.IsParamOf a ∧ label = Fact.annotationStart ++ a := by
  rw [render, Fact.parameterized?_text (Node.isPlain_label h.1).1 (Node.isPlain_label h.1).2
    (Node.isPlain_label h.2).2, relation_eq_hasParam_iff]
  constructor
  · rintro ⟨hkind, rfl, hbegins⟩
    obtain ⟨a, hsource⟩ := exists_source_eq_annotationType hkind hbegins
    exact ⟨a, ⟨hkind, hsource⟩, by rw [hsource, Node.label]⟩
  · rintro ⟨a, ⟨hkind, hsource⟩, rfl⟩
    refine ⟨hkind, by rw [hsource, Node.label], ?_⟩
    rw [hsource, Node.label, Text.beginsWith, List.isPrefixOf_iff_prefix, String.toList_append]
    exact List.prefix_append ..

theorem annotationParam?_render (h : e.HasPlainNames) (a p : String) :
    Fact.annotationParam? e.render = some (a, p) ↔ e.IsParamOf a ∧ ∃ name, e.target = .param name ∧
      p = Fact.paramName (if name.isEmpty then "void" else name) := by
  -- Both readers find the same annotation, and the text then has the form that the reader expects.
  have hread {a name : String} (ha : e.IsParamOf a) (hname : e.target = .param name) :
      Fact.annotationParam? e.render =
        some (a, Fact.paramName (if name.isEmpty then "void" else name)) := by
    have hspace : ' ' ∉ a.toList := by
      have := h.1.1
      rwa [ha.2, Node.shownName] at this
    rw [render, ha.2, hname, relation_eq_hasParam_iff.mpr ha.1, Node.label, Node.label]
    exact Fact.annotationParam?_text hspace
  constructor
  · intro hparam
    obtain ⟨a', ha, hlabel⟩ :=
      (parameterized?_render h _).mp (Fact.parameterized?_of_annotationParam? hparam)
    obtain ⟨name, hname⟩ := exists_target_eq_param ha.1
    rw [hread ha hname] at hparam
    obtain ⟨rfl, rfl⟩ := Prod.mk.inj (Option.some.inj hparam)
    exact ⟨ha, name, hname, rfl⟩
  · rintro ⟨ha, name, hname, rfl⟩
    exact hread ha hname

theorem declares_render (h : e.HasPlainNames) (a : String) :
    Fact.declares e.render (Fact.annotationStart ++ a) = true ↔ e.Annotates a := by
  rw [render, Fact.declares_text (Node.isPlain_label h.1).2 (Node.isPlain_label h.2).2,
    relation_eq_annotatedWith_iff]
  refine and_congr_right fun hkind => ?_
  obtain ⟨name, hname⟩ := exists_target_eq_annotationType hkind
  rw [hname, Node.label, Node.annotationType.injEq]
  exact ⟨fun heq => by simpa [← String.toList_inj] using heq, congrArg _⟩

theorem declaredIn_render {edges : List Edge} (h : ∀ e ∈ edges, e.HasPlainNames) (a : String) :
    Fact.declaredIn (.ofList (edges.map render)) (Fact.annotationStart ++ a) = true ↔
      ∃ e ∈ edges, e.Annotates a := by
  rw [Fact.declaredIn, List.any_eq_true]
  simp only [SortedSet.mem_toList, SortedSet.mem_ofList, List.mem_map]
  constructor
  · rintro ⟨_, ⟨e, he, rfl⟩, hdeclares⟩
    exact ⟨e, he, (declares_render (h e he) a).mp hdeclares⟩
  · rintro ⟨e, he, hannotates⟩
    exact ⟨e.render, ⟨e, he, rfl⟩, (declares_render (h e he) a).mpr hannotates⟩

theorem render_eq_iff (he : e.HasPlainNames) (hf : f.HasPlainNames) :
    e.render = f.render ↔ e.source.label = f.source.label ∧ e.relation = f.relation ∧
      e.target.label = f.target.label :=
  Fact.text_inj (Node.isPlain_label he.1).2 (Node.isPlain_label hf.1).2

/-- From the texts of edges with plain names, the readers get what the edges say: the relation, the
parameter of an annotation, which annotations are declared, and the labels. -/
theorem readings_agree {edges : List Edge} (h : ∀ e ∈ edges, e.HasPlainNames) :
    (∀ e ∈ edges,
      (∀ r, Fact.hasRelation e.render r = true ↔ r = e.relation) ∧
      (∀ label, Fact.parameterized? e.render = some label ↔
        ∃ a, e.IsParamOf a ∧ label = Fact.annotationStart ++ a) ∧
      ∀ a p, Fact.annotationParam? e.render = some (a, p) ↔
        e.IsParamOf a ∧ ∃ name, e.target = .param name ∧
          p = Fact.paramName (if name.isEmpty then "void" else name)) ∧
    (∀ a, Fact.declaredIn (.ofList (edges.map render)) (Fact.annotationStart ++ a) = true ↔
      ∃ e ∈ edges, e.Annotates a) ∧
    ∀ e ∈ edges, ∀ f ∈ edges, (e.render = f.render ↔
      e.source.label = f.source.label ∧ e.relation = f.relation ∧
        e.target.label = f.target.label) :=
  ⟨fun e he => ⟨hasRelation_render (h e he), parameterized?_render (h e he),
      annotationParam?_render (h e he)⟩,
    declaredIn_render h, fun _ he _ hf => render_eq_iff (h _ he) (h _ hf)⟩

/-- A parameter of an annotation, and a class in a beans file that is called like the annotation's
label. -/
def misleadingEdges : List Edge := [
  ⟨.hasParam, .annotationType "a.Timeout", .param "unit:a.Unit", rfl⟩,
  ⟨.declaredInBeans, .classOrInterface .plainClass "", .beansFile "Annotation_a.Timeout", rfl⟩]

/-- The file is not taken for a declaration of the annotation. -/
theorem readings_of_misleadingEdges :
    (∀ e ∈ misleadingEdges, e.HasPlainNames) ∧
      Fact.annotationParam? "Annotation_a.Timeout --(hasParam)--> Param_unit:a.Unit" =
        some ("a.Timeout", "unit") ∧
      Fact.declaredIn (.ofList (misleadingEdges.map render))
        (Fact.annotationStart ++ "a.Timeout") = false := by
  have hplain : ∀ e ∈ misleadingEdges, e.HasPlainNames := by decide
  obtain ⟨hread, hdeclared, -⟩ := readings_agree hplain
  refine ⟨hplain, ?_, ?_⟩
  · exact ((hread _ List.mem_cons_self).2.2 "a.Timeout" "unit").mpr
      ⟨⟨rfl, rfl⟩, _, rfl, by decide⟩
  · rw [← Bool.not_eq_true, hdeclared]
    rintro ⟨e, he, hkind, -⟩
    revert e
    decide

end Edge

end UsageRules
