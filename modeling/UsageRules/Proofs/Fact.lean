import Mathlib.Data.List.Infix
import UsageRules.Fact

/-! The text of a fact and what is read off it. If neither source nor target has an opening
bracket, the relation stands behind the only one, so every reader finds the relation that was
written (`Fact.hasRelation_text`, `Fact.declares_text`), and the parts of a fact can be told from
its text (`Fact.text_inj`). A source without spaces is what stands before the first space of the
text (`Fact.parameterized?_text`, `Fact.annotationParam?_text`). -/

namespace UsageRules

namespace Text

variable {sep : Char} {before before' after after' : List Char}

theorem splitAtFirst_append_cons (h : sep ∉ before) :
    splitAtFirst sep (before ++ sep :: after) = some (before, after) :=
  splitAtFirst_eq_some_iff.mpr ⟨rfl, h⟩

theorem append_cons_inj (h : sep ∉ before) (h' : sep ∉ before') :
    before ++ sep :: after = before' ++ sep :: after' ↔ before = before' ∧ after = after' := by
  constructor
  · intro heq
    have hsplit : splitAtFirst sep (before ++ sep :: after) = some (before', after') := by
      rw [heq, splitAtFirst_append_cons h']
    rw [splitAtFirst_append_cons h] at hsplit
    exact Prod.mk.inj (Option.some.inj hsplit)
  · rintro ⟨rfl, rfl⟩
    rfl

/-- A beginning without the separator ends before the separator. -/
theorem isPrefix_append_cons_iff {start : List Char} (h : sep ∉ start) :
    start <+: before ++ sep :: after ↔ start <+: before := by
  constructor
  · intro hstart
    refine List.prefix_of_prefix_length_le hstart (List.prefix_append ..) ?_
    by_contra hlength
    have hbefore : before ++ [sep] <+: start := by
      refine List.prefix_of_prefix_length_le ⟨after, by simp⟩ hstart ?_
      rw [List.length_append, List.length_singleton]
      omega
    exact h (hbefore.subset (by simp))
  · exact fun hstart => hstart.trans (List.prefix_append ..)

theorem takeWhile_eq_splitAtFirst (s : List Char) :
    s.takeWhile (· ≠ sep) = match splitAtFirst sep s with
      | some (start, _) => start
      | none => s := by
  induction s with
  | nil => rfl
  | cons c s ih =>
    by_cases hc : c = sep
    · simp [splitAtFirst, hc]
    · rw [List.takeWhile_cons_of_pos (by simpa using hc), ih, splitAtFirst, if_neg hc]
      cases splitAtFirst sep s <;> rfl

end Text

namespace Relation

theorem name_injective {r r' : Relation} (h : r.name = r'.name) : r = r' := by
  revert h
  cases r <;> cases r' <;> decide

theorem bracket_notMem_name (r : Relation) : '(' ∉ r.name.toList ∧ ')' ∉ r.name.toList := by
  cases r <;> decide

end Relation

namespace Fact

/-! ## The parts of a text -/

section Parts

variable {source source' target target' label : String} {r r' : Relation}

theorem toList_marker (r : Relation) :
    (marker r.name).toList = ['-', '-'] ++ '(' :: (r.name.toList ++ ')' :: ['-', '-', '>']) := by
  simp [marker]

theorem toList_text (source target : String) (r : Relation) :
    (text source r.name target).toList =
      (source.toList ++ [' ', '-', '-']) ++
        '(' :: (r.name.toList ++ ')' :: (['-', '-', '>', ' '] ++ target.toList)) := by
  simp [text, toList_marker]

theorem toList_text_eq_append (source relation target : String) :
    (text source relation target).toList =
      source.toList ++ ' ' :: ((marker relation).toList ++ ' ' :: target.toList) := by
  simp [text]

/-- What a text begins with is in its source, as far as it goes without a space. -/
theorem beginsWith_text {relation start : String} (hstart : ' ' ∉ start.toList) :
    Text.beginsWith (text source relation target) start = Text.beginsWith source start := by
  rw [Bool.eq_iff_iff, Text.beginsWith, Text.beginsWith, List.isPrefixOf_iff_prefix,
    List.isPrefixOf_iff_prefix, toList_text_eq_append, Text.isPrefix_append_cons_iff hstart]

theorem text_inj (hsource : '(' ∉ source.toList) (hsource' : '(' ∉ source'.toList) :
    text source r.name target = text source' r'.name target' ↔
      source = source' ∧ r = r' ∧ target = target' := by
  rw [← String.toList_inj, toList_text, toList_text,
    Text.append_cons_inj (by simpa using hsource) (by simpa using hsource'),
    Text.append_cons_inj r.bracket_notMem_name.2 r'.bracket_notMem_name.2,
    List.append_left_inj, List.append_right_inj, String.toList_inj, String.toList_inj,
    String.toList_inj]
  exact and_congr_right' (and_congr_left' ⟨Relation.name_injective, congrArg _⟩)

/-- No marker stands in a text but that of its relation, and it stands there once. -/
theorem toList_text_eq_iff (hsource : '(' ∉ source.toList) (htarget : '(' ∉ target.toList)
    {before after : List Char} :
    (text source r.name target).toList = before ++ (marker r'.name).toList ++ after ↔
      before = source.toList ++ [' '] ∧ r' = r ∧ after = ' ' :: target.toList := by
  constructor
  · intro heq
    have hbefore : '(' ∉ source.toList ++ [' ', '-', '-'] := by simpa using hsource
    have hbehind : '(' ∉ r.name.toList ++ ')' :: (['-', '-', '>', ' '] ++ target.toList) := by
      simpa using ⟨r.bracket_notMem_name.1, htarget⟩
    have hmarker : before ++ (marker r'.name).toList ++ after =
        (before ++ ['-', '-']) ++ '(' :: (r'.name.toList ++ ')' :: (['-', '-', '>'] ++ after)) := by
      simp [toList_marker]
    rw [toList_text, hmarker, List.append_cons_inj_of_notMem hbefore hbehind,
      Text.append_cons_inj r.bracket_notMem_name.2 r'.bracket_notMem_name.2] at heq
    obtain ⟨hstart, -, hname, hrest⟩ := heq
    refine ⟨?_, (Relation.name_injective (String.toList_inj.mp hname)).symm, ?_⟩
    · rw [← List.append_left_inj ['-', '-'], ← hstart]
      simp
    · simpa using hrest.symm
  · rintro ⟨rfl, rfl, rfl⟩
    simp [text]

theorem hasRelation_text (hsource : '(' ∉ source.toList) (htarget : '(' ∉ target.toList) :
    hasRelation (text source r.name target) r' = true ↔ r' = r := by
  rw [hasRelation, Text.occursIn, Text.occurs_iff]
  simp only [toList_text_eq_iff hsource htarget]
  exact ⟨fun ⟨_, _, _, h, _⟩ => h, fun h => ⟨_, _, rfl, h, rfl⟩⟩

theorem declares_text (hsource : '(' ∉ source.toList) (htarget : '(' ∉ target.toList) :
    declares (text source r.name target) label = true ↔ r = .annotatedWith ∧ target = label := by
  have hsuffix (before : List Char) :
      before ++ (marker Relation.annotatedWith.name ++ " " ++ label).toList =
        before ++ (marker Relation.annotatedWith.name).toList ++ ' ' :: label.toList := by
    simp
  rw [declares, List.isSuffixOf_iff_suffix]
  constructor
  · rintro ⟨before, heq⟩
    rw [hsuffix] at heq
    obtain ⟨-, hrelation, hlabel⟩ := (toList_text_eq_iff hsource htarget).mp heq.symm
    exact ⟨hrelation.symm, (String.toList_inj.mp (List.cons.inj hlabel).2).symm⟩
  · rintro ⟨rfl, rfl⟩
    refine ⟨source.toList ++ [' '], ?_⟩
    rw [hsuffix]
    exact ((toList_text_eq_iff hsource htarget).mpr ⟨rfl, rfl, rfl⟩).symm

/-- What stands in an annotation's label stands in every item that declares the annotation. -/
theorem occursIn_of_declares {item label text : String} (h : declares item label = true)
    (htext : Text.occursIn text label = true) : Text.occursIn text item = true := by
  obtain ⟨start, hstart⟩ := List.isSuffixOf_iff_suffix.mp h
  obtain ⟨before, after, hlabel⟩ := Text.occurs_iff.mp htext
  rw [Text.occursIn, Text.occurs_iff, ← hstart]
  refine ⟨start ++ (marker Relation.annotatedWith.name ++ " ").toList ++ before, after, ?_⟩
  rw [String.toList_append, hlabel]
  simp

end Parts

/-! ## Parameters of annotations -/

section Parameters

variable {source target label annotated param : String} {r : Relation}

/-- What the label of a parameter says behind its beginning: the name up to the colon. -/
def paramName (param : String) : String := String.ofList (param.toList.takeWhile (· ≠ ':'))

theorem paramName_append_type (hcolon : ':' ∉ param.toList) (typeName : String) :
    paramName (param ++ ":" ++ typeName) = param := by
  have htext : (param ++ ":" ++ typeName).toList = param.toList ++ ':' :: typeName.toList := by simp
  rw [paramName, htext, Text.takeWhile_eq_splitAtFirst, Text.splitAtFirst_append_cons hcolon,
    String.ofList_toList]

theorem parameterized?_text (hspace : ' ' ∉ source.toList) (hsource : '(' ∉ source.toList)
    (htarget : '(' ∉ target.toList) :
    parameterized? (text source r.name target) = some label ↔
      r = .hasParam ∧ source = label ∧ Text.beginsWith source annotationStart = true := by
  rw [parameterized?, beginsWith_text (by decide), toList_text_eq_append,
    Text.splitAtFirst_append_cons hspace]
  simp only [Option.map_some, String.ofList_toList, Option.ite_none_right_eq_some,
    Bool.and_eq_true, hasRelation_text hsource htarget, Option.some.injEq]
  grind

/-- The reader of parameters, on the text of one. -/
theorem annotationParam?_text (hspace : ' ' ∉ annotated.toList) :
    annotationParam? (text (annotationStart ++ annotated) Relation.hasParam.name
      (paramStart ++ param)) = some (annotated, paramName param) := by
  have htext : (text (annotationStart ++ annotated) Relation.hasParam.name
      (paramStart ++ param)).toList = annotationStart.toList ++ (annotated.toList ++ ' ' ::
        ((marker Relation.hasParam.name).toList ++ ' ' :: (paramStart.toList ++ param.toList))) := by
    simp [toList_text_eq_append]
  have htrim : Text.trimStart (' ' :: (paramStart.toList ++ param.toList)) =
      paramStart.toList ++ param.toList := by
    rw [Text.trimStart, List.dropWhile_cons_of_pos (by decide)]
    exact List.dropWhile_cons_of_neg (by decide)
  simp only [annotationParam?, Option.bind_eq_bind, Option.bind_eq_some_iff, Prod.exists,
    List.isPrefixOf?_eq_some_iff_append_eq, Text.splitAtFirst_eq_some_iff]
  refine ⟨_, htext.symm, annotated.toList, _, ⟨rfl, hspace⟩, _, rfl, param.toList, htrim.symm, ?_⟩
  rw [String.ofList_toList]
  exact congrArg (fun name => some (annotated, String.ofList name))
    (Text.takeWhile_eq_splitAtFirst param.toList).symm

theorem exists_eq_of_annotationParam? {item annotated param : String}
    (h : annotationParam? item = some (annotated, param)) :
    ∃ rest, item.toList =
        (annotationStart.toList ++ annotated.toList) ++
          ' ' :: ((marker Relation.hasParam.name).toList ++ rest) ∧
      ' ' ∉ annotated.toList := by
  simp only [annotationParam?, Option.bind_eq_bind, Option.bind_eq_some_iff, Prod.exists,
    List.isPrefixOf?_eq_some_iff_append_eq, Text.splitAtFirst_eq_some_iff] at h
  obtain ⟨rest, hitem, before, relation, ⟨rfl, hspace⟩, target, rfl, param', -, heq⟩ := h
  obtain ⟨rfl, -⟩ := Prod.mk.inj (Option.some.inj heq)
  rw [String.toList_ofList]
  exact ⟨target, by rw [← hitem, List.append_assoc], hspace⟩

/-- The strict reading of a parameter agrees with the lenient one. -/
theorem parameterized?_of_annotationParam? {item annotated param : String}
    (h : annotationParam? item = some (annotated, param)) :
    parameterized? item = some (annotationStart ++ annotated) := by
  obtain ⟨rest, hitem, hspace⟩ := exists_eq_of_annotationParam? h
  have hbegins : Text.beginsWith item annotationStart = true := by
    rw [Text.beginsWith, List.isPrefixOf_iff_prefix, hitem, List.append_assoc]
    exact List.prefix_append ..
  have hrelation : hasRelation item .hasParam = true := by
    rw [hasRelation, Text.occursIn, Text.occurs_iff, hitem]
    exact ⟨annotationStart.toList ++ annotated.toList ++ [' '], rest, by simp⟩
  have hsplit : Text.splitAtFirst ' ' item.toList =
      some (annotationStart.toList ++ annotated.toList,
        (marker Relation.hasParam.name).toList ++ rest) := by
    rw [hitem]
    refine Text.splitAtFirst_append_cons ?_
    rw [List.mem_append, not_or]
    exact ⟨by decide, hspace⟩
  rw [parameterized?, hbegins, hrelation, hsplit]
  simp

end Parameters

end Fact

end UsageRules
