import UsageRules.Proofs.Convention.RuleChoice
import UsageRules.Proofs.Graph.Readings

/-! Which fact of a set of rendered edges becomes the consequent of a made-up rule. The choice looks
for markers and for beginnings of labels; in edges with plain names these tell classes of edges, and
the choice is the least text of the first class that has an edge
(`ItemSet.chooseConsequent_ofEdges`). The label of a field's declared type begins like that of a
field, so such a type counts as an annotated member
(`ItemSet.chooseConsequent_clientWithFieldType`); the declared type of a parameter does not. -/

namespace UsageRules

theorem SortedSet.find?_eq_some_iff {α : Type} [LT α] [TotalOrder α] {s : SortedSet α}
    {p : α → Bool} {a : α} :
    s.toList.find? p = some a ↔ a ∈ s ∧ p a = true ∧ ∀ b ∈ s, p b = true → ¬b < a :=
  find?_eq_some_iff_of_pairwise
    (fun a _ hlt hgt => TotalOrder.irrefl a (TotalOrder.trans hlt hgt)) s.ascending

/-! ## Annotated nodes -/

/-- What has a place in a class and can be annotated. -/
def NodeKind.members : List NodeKind := [field, method, constructor, param]

/-- What the beginning of its label tells of a node that can be annotated. -/
theorem Node.beginsWith_label_iff {n : Node} {target : NodeKind}
    (h : EdgeKind.annotatedWith.allows n.kind target = true) :
    ([Fact.classStart, Fact.interfaceStart].any (Text.beginsWith n.label) = true ↔
        n.kind ∈ [.classOrInterface]) ∧
      ([Fact.fieldStart, Fact.methodStart, Fact.constructorStart, Fact.paramStart].any
          (Text.beginsWith n.label) = true ↔
        n.kind ∈ .fieldTypeDecl :: NodeKind.members) := by
  revert h
  cases n with
  | classOrInterface kind name =>
    cases kind <;> by_cases hname : name.isEmpty = true <;>
      simp [label, Node.kind, hname, NodeKind.members, Text.beginsWith, Fact.classStart,
        Fact.interfaceStart, Fact.fieldStart, Fact.methodStart, Fact.constructorStart,
        Fact.paramStart]
  | _ =>
    simp [label, Node.kind, EdgeKind.allows, NodeKind.isConstruct, NodeKind.isTypeDecl,
      NodeKind.members, Text.beginsWith, Fact.classStart, Fact.interfaceStart, Fact.fieldStart,
      Fact.methodStart, Fact.constructorStart, Fact.paramStart]

namespace Edge

variable {e : Edge} {edges : List Edge}

/-- The edge says that a node of one of the kinds is annotated. -/
def AnnotatesAny (kinds : List NodeKind) (e : Edge) : Prop :=
  e.kind = .annotatedWith ∧ e.source.kind ∈ kinds

instance (kinds : List NodeKind) : Decidable (e.AnnotatesAny kinds) :=
  inferInstanceAs (Decidable (_ ∧ _))

theorem any_beginsWith_render {starts : List String}
    (hstarts : ∀ start ∈ starts, ' ' ∉ start.toList) :
    starts.any (Text.beginsWith e.render) = starts.any (Text.beginsWith e.source.label) := by
  rw [Bool.eq_iff_iff, List.any_eq_true, List.any_eq_true]
  refine exists_congr fun start => and_congr_right fun hstart => ?_
  rw [render, Fact.beginsWith_text (hstarts start hstart)]

theorem isClassAnnotated_render (h : e.HasPlainNames) :
    ItemSet.isClassAnnotated e.render = true ↔ e.AnnotatesAny [.classOrInterface] := by
  rw [ItemSet.isClassAnnotated, Bool.and_eq_true,
    hasRelation_render_iff_kind h (by rintro ⟨⟩ <;> decide), any_beginsWith_render (by decide)]
  exact and_congr_right fun hkind => (Node.beginsWith_label_iff (hkind ▸ e.allowed)).1

theorem isMemberAnnotated_render (h : e.HasPlainNames) :
    ItemSet.isMemberAnnotated e.render = true ↔
      e.AnnotatesAny (.fieldTypeDecl :: NodeKind.members) := by
  rw [ItemSet.isMemberAnnotated, Bool.and_eq_true,
    hasRelation_render_iff_kind h (by rintro ⟨⟩ <;> decide), any_beginsWith_render (by decide)]
  exact and_congr_right fun hkind => (Node.beginsWith_label_iff (hkind ▸ e.allowed)).2

/-- Types and classes are what two kinds of edges are about. -/
theorem any_typeRelations_render (h : e.HasPlainNames) :
    ItemSet.typeRelations.any (Fact.hasRelation e.render) = true ↔
      e.kind ∈ [.returns, .extending] := by
  have hmem : e.relation ∈ ItemSet.typeRelations ↔
      e.relation.edgeKind ∈ [.returns, .extending] := by
    cases e.relation <;> decide
  rw [← e.edgeKind_relation, ← hmem, List.any_eq_true]
  simp only [hasRelation_render h, exists_eq_right]

/-! ## Classes of edges -/

/-- The classes in which a consequent is looked for, one after the other. Annotated classes and
interfaces are such a class only if a node of one of the given kinds is annotated too. -/
def consequentClasses (members : List NodeKind) (edges : List Edge) : List (Edge → Prop) := [
  (·.kind = .hasParam),
  (·.kind = .definedInConfig),
  (·.kind = .declaredInBeans),
  (·.kind ∈ [.returns, .extending]),
  fun e => (∃ m ∈ edges, m.AnnotatesAny members) ∧ e.AnnotatesAny [.classOrInterface],
  fun _ => True]

/-- The text is the least of those of edges in the first class that has an edge. -/
inductive LeastOfFirst (edges : List Edge) : List (Edge → Prop) → String → Prop where
  | found {inClass : Edge → Prop} {classes : List (Edge → Prop)} {item : String}
    (exists_edge : ∃ e ∈ edges, inClass e ∧ e.render = item)
    (least : ∀ e ∈ edges, inClass e → ¬e.render < item) :
    LeastOfFirst edges (inClass :: classes) item
  | next {inClass : Edge → Prop} {classes : List (Edge → Prop)} {item : String}
    (empty : ∀ e ∈ edges, ¬inClass e) (later : LeastOfFirst edges classes item) :
    LeastOfFirst edges (inClass :: classes) item

section

variable {inClass : Edge → Prop} {classes : List (Edge → Prop)} {item : String}

theorem LeastOfFirst.later_of_empty (h : LeastOfFirst edges (inClass :: classes) item)
    (hempty : ∀ e ∈ edges, ¬inClass e) : LeastOfFirst edges classes item := by
  cases h with
  | found exists_edge _ =>
    obtain ⟨e, he, hclass, -⟩ := exists_edge
    exact absurd hclass (hempty e he)
  | next _ later => exact later

theorem LeastOfFirst.not_lt (h : LeastOfFirst edges (inClass :: classes) item) (he : e ∈ edges)
    (hclass : inClass e) : ¬e.render < item := by
  cases h with
  | found _ least => exact least e he hclass
  | next empty _ => exact absurd hclass (empty e he)

end

end Edge

namespace ItemSet

variable {edges : List Edge}

/-- If tests of texts tell classes of edges, the first item that the tests find is the least text of
the first class that has an edge. -/
theorem leastOfFirst_of_firstOf {classes : List (Edge → Prop)} {tests : List (String → Bool)}
    {item : String}
    (htell : List.Forall₂ (fun inClass test => ∀ e ∈ edges, test e.render = true ↔ inClass e)
      classes tests)
    (h : (ofEdges edges).firstOf tests = some item) : Edge.LeastOfFirst edges classes item := by
  induction htell with
  | nil => cases h
  | @cons inClass test classes tests htest _ ih =>
    rw [firstOf] at h
    split at h
    · rename_i found hfound
      cases h
      obtain ⟨hmem, hfits, hleast⟩ := SortedSet.find?_eq_some_iff.mp hfound
      obtain ⟨e, he, rfl⟩ := mem_ofEdges.mp hmem
      refine .found ⟨e, he, (htest e he).mp hfits, rfl⟩ fun f hf hclass => ?_
      exact hleast f.render (mem_ofEdges.mpr ⟨f, hf, rfl⟩) ((htest f hf).mpr hclass)
    · rename_i hnone
      refine .next (fun e he hclass => ?_) (ih h)
      exact List.find?_eq_none.mp hnone e.render (mem_ofEdges.mpr ⟨e, he, rfl⟩)
        ((htest e he).mpr hclass)

theorem any_isMemberAnnotated_ofEdges (h : ∀ e ∈ edges, e.HasPlainNames) :
    (ofEdges edges).toList.any isMemberAnnotated = true ↔
      ∃ e ∈ edges, e.AnnotatesAny (.fieldTypeDecl :: NodeKind.members) := by
  simp only [List.any_eq_true, SortedSet.mem_toList, mem_ofEdges]
  constructor
  · rintro ⟨_, ⟨e, he, rfl⟩, hmember⟩
    exact ⟨e, he, (Edge.isMemberAnnotated_render (h e he)).mp hmember⟩
  · rintro ⟨e, he, hmember⟩
    exact ⟨e.render, ⟨e, he, rfl⟩, (Edge.isMemberAnnotated_render (h e he)).mpr hmember⟩

/-- Of the texts of edges with plain names, the consequent is the least one of the first class that
has an edge; the declared type of a field counts as a member. -/
theorem chooseConsequent_ofEdges (h : ∀ e ∈ edges, e.HasPlainNames) (hne : edges ≠ []) :
    ∃ item, (ofEdges edges).chooseConsequent = some item ∧
      Edge.LeastOfFirst edges
        (Edge.consequentClasses (.fieldTypeDecl :: NodeKind.members) edges) item := by
  obtain ⟨e, he⟩ := List.exists_mem_of_ne_nil edges hne
  obtain ⟨item, hitem⟩ := exists_chooseConsequent (mem_ofEdges.mpr ⟨e, he, rfl⟩)
  refine ⟨item, hitem, leastOfFirst_of_firstOf ?_ hitem⟩
  refine .cons (fun e he => ?param) <| .cons (fun e he => ?config) <| .cons (fun e he => ?beans) <|
    .cons (fun e he => Edge.any_typeRelations_render (h e he)) <|
    .cons (fun e he => ?annotated) <| .cons (fun e he => iff_of_true rfl trivial) .nil
  case annotated =>
    rw [Bool.and_eq_true, any_isMemberAnnotated_ofEdges h, Edge.isClassAnnotated_render (h e he)]
  all_goals exact Edge.hasRelation_render_iff_kind (h e he) (by rintro ⟨⟩ <;> decide)

/-- A client that is an interface, and a field that a value is injected into. -/
def clientWithField : List Edge := [
  ⟨.annotatedWith, .field "a.Order", .annotationType "a.Inject", rfl⟩,
  ⟨.annotatedWith, .classOrInterface .interface "", .annotationType "a.Client", rfl⟩]

/-- The interface is preferred, though its text comes last. -/
theorem chooseConsequent_clientWithField :
    (∀ e ∈ clientWithField, e.HasPlainNames) ∧ clientWithField ≠ [] ∧
      (ofEdges clientWithField).chooseConsequent =
        some "Interface --(annotatedWith)--> Annotation_a.Client" ∧
      Edge.LeastOfFirst clientWithField
        (Edge.consequentClasses (.fieldTypeDecl :: NodeKind.members) clientWithField)
        "Interface --(annotatedWith)--> Annotation_a.Client" := by
  have hplain : ∀ e ∈ clientWithField, e.HasPlainNames := by decide
  have hne : clientWithField ≠ [] := by decide
  have hchosen : (ofEdges clientWithField).chooseConsequent =
      some "Interface --(annotatedWith)--> Annotation_a.Client" := by decide +kernel
  obtain ⟨item, hitem, hleast⟩ := chooseConsequent_ofEdges hplain hne
  rw [hchosen] at hitem
  cases hitem
  exact ⟨hplain, hne, hchosen, hleast⟩

/-- A client that is an interface, and the declared type of a field. -/
def clientWithFieldType : List Edge := [
  ⟨.annotatedWith, .fieldTypeDecl "a.Order", .annotationType "a.Valid", rfl⟩,
  ⟨.annotatedWith, .classOrInterface .interface "", .annotationType "a.Client", rfl⟩]

/-- No member is annotated, but the interface is preferred to the least text. -/
theorem chooseConsequent_clientWithFieldType :
    (∀ e ∈ clientWithFieldType, e.HasPlainNames) ∧
      (ofEdges clientWithFieldType).chooseConsequent =
        some "Interface --(annotatedWith)--> Annotation_a.Client" ∧
      ¬Edge.LeastOfFirst clientWithFieldType
        (Edge.consequentClasses NodeKind.members clientWithFieldType)
        "Interface --(annotatedWith)--> Annotation_a.Client" := by
  refine ⟨by decide, by decide +kernel, fun hleast => ?_⟩
  have hany := hleast.later_of_empty (by decide) |>.later_of_empty (by decide)
    |>.later_of_empty (by decide) |>.later_of_empty (by decide) |>.later_of_empty (by decide)
  exact hany.not_lt List.mem_cons_self trivial (by decide +kernel)

end ItemSet

end UsageRules
