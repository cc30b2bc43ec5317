import DocAudit.Proofs.FieldLines
import DocAudit.Proofs.Resolution
import Mathlib.Data.List.Nodup

/-!
# Proofs/CompleteDocstring — docstrings that say everything

A `Documentation` of a signature says something about every expected parameter and about the return
value.  Its `text` writes that out as field lines in declaration order, with the declared types as
the documented ones, and `parse_text` reads the text back as `Documentation.fields`: every line is
one field, and only the white space around its body is lost.
-/

namespace DocAudit

open Text FieldList Subject

/-! ## Documented signatures -/

/-- Some text on one line. -/
def IsOneLine (text : String) : Prop :=
  '\n' ∉ text.toList ∧ isBlank text.toList = false

/-- The signature can be written out in field lines: its parameters have plain names, and its types
stand on one line each. -/
structure Signature.IsDocumentable (s : Signature) : Prop extends s.IsRegular where
  plain_names : ∀ p ∈ s.expected, IsPlainName p.name
  types : ∀ p ∈ s.expected, ∀ t ∈ p.declaredType, IsOneLine t
  return_type : ∀ t ∈ s.returnType, IsOneLine t

/-- What a docstring says about a function: a summary, and a description of each parameter and of
the value. -/
structure Documentation (signature : Signature) where
  summary : List String
  describe : Parameter → String
  returned : String
  summary_lines : ∀ l ∈ summary, '\n' ∉ l.toList ∧ l.toList.head? ≠ some ':'
  describe_oneLine : ∀ p ∈ signature.expected, IsOneLine (describe p)
  returned_oneLine : signature.returnType ≠ none → IsOneLine returned

/-- The line `:keyword name: body`. -/
def namedLine (keyword name body : String) : String :=
  ":" ++ keyword ++ " " ++ name ++ ": " ++ body

/-- The line `:keyword: body`. -/
def bareLine (keyword body : String) : String :=
  ":" ++ keyword ++ ": " ++ body

/-- The text without the white space at either end. -/
def trimmed (text : String) : String :=
  String.ofList (trim text.toList)

namespace Documentation

variable {signature : Signature} (doc : Documentation signature)

/-- The lines about a parameter: its description, and its type if one is declared. -/
def parameterLines (p : Parameter) : List String :=
  namedLine "param" p.name (doc.describe p) ::
    p.declaredType.toList.map fun t => namedLine "type" p.name t

/-- The lines about the value, if a return type is declared. -/
def returnLines : List String :=
  signature.returnType.toList.flatMap fun t =>
    [bareLine "returns" doc.returned, bareLine "rtype" t]

/-- The docstring: the summary, and the field lines in declaration order. -/
def text : String :=
  "\n".intercalate
    (doc.summary ++ (signature.expected.flatMap doc.parameterLines ++ doc.returnLines))

/-- The fields about a parameter. -/
def parameterFields (p : Parameter) : List Field :=
  Field.param p.name (trimmed (doc.describe p)) ::
    p.declaredType.toList.map fun t => Field.typeOf p.name (trimmed t)

/-- The fields about the value. -/
def returnFields : List Field :=
  signature.returnType.toList.flatMap fun t =>
    [Field.returns (trimmed doc.returned), Field.rtype (trimmed t)]

/-- The fields of the docstring. -/
def fields : List Field :=
  signature.expected.flatMap doc.parameterFields ++ doc.returnFields

end Documentation

/-! ## From lines to fields -/

section Lines

variable {keyword name body : String}

theorem toList_namedLine (keyword name body : String) :
    (namedLine keyword name body).toList
      = fieldLine (keyword.toList ++ ' ' :: name.toList) body.toList := by
  simp [namedLine, fieldLine]

theorem toList_bareLine (keyword body : String) :
    (bareLine keyword body).toList = fieldLine keyword.toList body.toList := by
  simp [bareLine, fieldLine]

/-- A plain name is one word. -/
theorem words_plainName (h : IsPlainName name) : words name.toList = [name.toList] :=
  words_eq_singleton (ne_nil_of_isPlainName h) fun c hc =>
    not_isWhite_of_isWord (isWord_of_mem_plainName h c hc)

theorem words_namedMarker (hkeyword : IsPlainName keyword) (hname : IsPlainName name) :
    words (keyword.toList ++ ' ' :: name.toList) = [keyword.toList, name.toList] := by
  rw [words_append_cons _ _ (by decide), words_plainName hkeyword, words_plainName hname]
  rfl

theorem colon_not_mem_namedMarker (hkeyword : IsPlainName keyword) (hname : IsPlainName name) :
    ':' ∉ keyword.toList ++ ' ' :: name.toList := by
  have hk := not_mem_plainName hkeyword (c := ':') (by decide)
  have hn := not_mem_plainName hname (c := ':') (by decide)
  simp [hk, hn]

theorem isFieldLine_namedLine (hkeyword : IsPlainName keyword) (hname : IsPlainName name)
    (body : String) : IsFieldLine (namedLine keyword name body).toList := by
  refine ⟨_, _, toList_namedLine keyword name body, colon_not_mem_namedMarker hkeyword hname, ?_⟩
  rw [words_namedMarker hkeyword hname]
  nofun

theorem isFieldLine_bareLine (hkeyword : IsPlainName keyword) (body : String) :
    IsFieldLine (bareLine keyword body).toList := by
  refine ⟨_, _, toList_bareLine keyword body, not_mem_plainName hkeyword (by decide), ?_⟩
  rw [words_plainName hkeyword]
  nofun

/-- **A named line is a field about that name**, if fields of its kind need one. -/
theorem fields_namedLine (hkeyword : IsPlainName keyword)
    (hkind : (FieldKind.ofName keyword).requiresSubject = true) (hname : IsPlainName name)
    (body : String) :
    Block.fields ⟨(namedLine keyword name body).toList, []⟩
      = [{ kind := .ofName keyword, subject := some name, body := trimmed body }] := by
  have hescape : unescape name.toList = name.toList := by
    refine List.filter_eq_self.mpr fun c hc => ?_
    rw [bne_iff_ne]
    rintro rfl
    exact not_mem_plainName hname (by decide) hc
  rw [toList_namedLine, fields_fieldLine (colon_not_mem_namedMarker hkeyword hname)
    (words_namedMarker hkeyword hname), String.ofList_toList]
  rcases hk : FieldKind.ofName keyword <;> rw [hk] at hkind
  · simp [Block.fieldsOf, subjectOf, inlineTypeOf, joinBody_singleton, hescape, trimmed]
  · simp [Block.fieldsOf, subjectOf, inlineTypeOf, unwords, joinBody_singleton, hescape, trimmed]
  all_goals exact absurd hkind (by decide)

/-- **A bare line is a field without a subject.** -/
theorem fields_bareLine (hkeyword : IsPlainName keyword) (body : String) :
    Block.fields ⟨(bareLine keyword body).toList, []⟩
      = [{ kind := .ofName keyword, subject := none, body := trimmed body }] := by
  rw [toList_bareLine, fields_fieldLine (not_mem_plainName hkeyword (by decide))
    (words_plainName hkeyword), String.ofList_toList]
  rcases FieldKind.ofName keyword <;>
    simp [Block.fieldsOf, subjectOf, inlineTypeOf, joinBody_singleton, trimmed]

end Lines

namespace Documentation

variable {signature : Signature}

theorem isPlainName_keyword : ∀ keyword ∈ ["param", "type", "returns", "rtype"],
    IsPlainName keyword := by
  unfold IsPlainName
  decide

theorem newline_not_mem_namedLine {keyword name body : String} (hkeyword : IsPlainName keyword)
    (hname : IsPlainName name) (hbody : IsOneLine body) :
    '\n' ∉ (namedLine keyword name body).toList := by
  have hk := not_mem_plainName hkeyword (c := '\n') (by decide)
  have hn := not_mem_plainName hname (c := '\n') (by decide)
  simp [toList_namedLine, fieldLine, hk, hn, hbody.1]

theorem newline_not_mem_bareLine {keyword body : String} (hkeyword : IsPlainName keyword)
    (hbody : IsOneLine body) : '\n' ∉ (bareLine keyword body).toList := by
  have hk := not_mem_plainName hkeyword (c := '\n') (by decide)
  simp [toList_bareLine, fieldLine, hk, hbody.1]

variable (h : signature.IsDocumentable) (doc : Documentation signature)

include h

theorem parameterLines_wellFormed {p : Parameter} (hp : p ∈ signature.expected) :
    ∀ l ∈ doc.parameterLines p, '\n' ∉ l.toList ∧ IsFieldLine l.toList := by
  have hparam := isPlainName_keyword "param" (by simp)
  have htype := isPlainName_keyword "type" (by simp)
  have hname := h.plain_names p hp
  intro l hl
  rcases List.mem_cons.mp hl with rfl | hl
  · exact ⟨newline_not_mem_namedLine hparam hname (doc.describe_oneLine p hp),
      isFieldLine_namedLine hparam hname _⟩
  · obtain ⟨t, ht, rfl⟩ := List.mem_map.mp hl
    exact ⟨newline_not_mem_namedLine htype hname (h.types p hp t (Option.mem_toList.mp ht)),
      isFieldLine_namedLine htype hname t⟩

theorem returnLines_wellFormed :
    ∀ l ∈ doc.returnLines, '\n' ∉ l.toList ∧ IsFieldLine l.toList := by
  have hreturns := isPlainName_keyword "returns" (by simp)
  have hrtype := isPlainName_keyword "rtype" (by simp)
  intro l hl
  obtain ⟨t, ht, hl⟩ := List.mem_flatMap.mp hl
  rw [Option.mem_toList] at ht
  rw [List.mem_cons, List.mem_singleton] at hl
  rcases hl with rfl | rfl
  · have hsome : signature.returnType ≠ none := fun hnone => by simp [hnone] at ht
    exact ⟨newline_not_mem_bareLine hreturns (doc.returned_oneLine hsome),
      isFieldLine_bareLine hreturns _⟩
  · exact ⟨newline_not_mem_bareLine hrtype (h.return_type t ht), isFieldLine_bareLine hrtype t⟩

theorem fields_parameterLines {p : Parameter} (hp : p ∈ signature.expected) :
    (doc.parameterLines p).flatMap (fun l => Block.fields ⟨l.toList, []⟩)
      = doc.parameterFields p := by
  have hparam := isPlainName_keyword "param" (by simp)
  have htype := isPlainName_keyword "type" (by simp)
  have hname := h.plain_names p hp
  have hparamKind : FieldKind.ofName "param" = .param := by decide
  have htypeKind : FieldKind.ofName "type" = .type := by decide
  rw [parameterLines, List.flatMap_cons, fields_namedLine hparam (by decide) hname]
  rcases ht : p.declaredType with _ | t
  · simp [parameterFields, ht, hparamKind, Field.param]
  · simp [parameterFields, ht, hparamKind, htypeKind, Field.param, Field.typeOf,
      fields_namedLine htype (by decide) hname]

omit h in
theorem fields_returnLines :
    doc.returnLines.flatMap (fun l => Block.fields ⟨l.toList, []⟩) = doc.returnFields := by
  have hreturns := isPlainName_keyword "returns" (by simp)
  have hrtype := isPlainName_keyword "rtype" (by simp)
  rw [returnLines, returnFields, List.flatMap_assoc]
  refine List.flatMap_congr fun t _ => ?_
  simp only [List.flatMap_cons, List.flatMap_nil, fields_bareLine hreturns, fields_bareLine hrtype]
  rfl

/-- **The docstring reads back as its fields.** -/
theorem parse_text : FieldList.parse doc.text = doc.fields := by
  have hwell : ∀ l ∈ signature.expected.flatMap doc.parameterLines ++ doc.returnLines,
      '\n' ∉ l.toList ∧ IsFieldLine l.toList := by
    intro l hl
    rcases List.mem_append.mp hl with hl | hl
    · obtain ⟨p, hp, hl⟩ := List.mem_flatMap.mp hl
      exact doc.parameterLines_wellFormed h hp l hl
    · exact doc.returnLines_wellFormed h l hl
  have hlines : ∀ l ∈ doc.summary ++
      (signature.expected.flatMap doc.parameterLines ++ doc.returnLines), '\n' ∉ l.toList := by
    intro l hl
    rcases List.mem_append.mp hl with hl | hl
    · exact (doc.summary_lines l hl).1
    · exact (hwell l hl).1
  have hsummary : ∀ l ∈ doc.summary, opensField l.toList = false := fun l hl => by
    rw [opensField, beq_eq_false_iff_ne]
    exact (doc.summary_lines l hl).2
  rw [text, parse_unlines hlines hsummary fun l hl => (hwell l hl).2, List.flatMap_append,
    List.flatMap_assoc, doc.fields_returnLines, fields]
  exact congrArg (· ++ doc.returnFields)
    (List.flatMap_congr fun p hp => doc.fields_parameterLines h hp)

end Documentation

end DocAudit
