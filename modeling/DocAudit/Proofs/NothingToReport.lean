import DocAudit.Proofs.CompleteDocstring
import DocAudit.Proofs.TypeNormalForm
import DocAudit.Proofs.WithinFunction
import Mathlib

/-!
# Proofs/NothingToReport — a completely documented function is never flagged

On the fields of a complete documentation every section of the analysis comes out empty: each name
resolves to its own parameter (`resolve?_name`), so the documented parameters are the expected ones
in their order (`documented_fields`), each with its own declared type (`documentedType_fields`), and
a type differs from its trimmed text in nothing (`parse_trim`).  With `parse_text` this reaches from
the text of the docstring to the check: `check_documentation`.
-/

namespace DocAudit

open Text FieldList Subject Analysis

theorem isBlank_trimmed (text : String) : isBlank (trimmed text).toList = isBlank text.toList := by
  rw [trimmed, String.toList_ofList, isBlank_trim]

theorem parse_trimmed (text : String) : TypeExpr.parse (trimmed text) = TypeExpr.parse text :=
  TypeExpr.parse_trim text

namespace Documentation

variable {signature : Signature} (h : signature.IsDocumentable) (doc : Documentation signature)

/-! ## The fields one by one -/

/-- A field of the documentation describes a parameter, gives a declared type, describes the value
or gives the return type. -/
theorem mem_fields {f : Field} (hf : f ∈ doc.fields) :
    (∃ p ∈ signature.expected, f = Field.param p.name (trimmed (doc.describe p))) ∨
    (∃ p ∈ signature.expected, ∃ t ∈ p.declaredType, f = Field.typeOf p.name (trimmed t)) ∨
    ∃ t ∈ signature.returnType,
      f = Field.returns (trimmed doc.returned) ∨ f = Field.rtype (trimmed t) := by
  rcases List.mem_append.mp hf with hf | hf
  · obtain ⟨p, hp, hf⟩ := List.mem_flatMap.mp hf
    rcases List.mem_cons.mp hf with rfl | hf
    · exact Or.inl ⟨p, hp, rfl⟩
    · obtain ⟨t, ht, rfl⟩ := List.mem_map.mp hf
      exact Or.inr (Or.inl ⟨p, hp, t, Option.mem_toList.mp ht, rfl⟩)
  · obtain ⟨t, ht, hf⟩ := List.mem_flatMap.mp hf
    rw [List.mem_cons, List.mem_singleton] at hf
    exact Or.inr (Or.inr ⟨t, Option.mem_toList.mp ht, hf⟩)

include h

/-- Every field is well formed: of a known kind, about a name where one is needed, not blank, and on
a line of its own. -/
theorem wellFormed_of_mem_fields {f : Field} (hf : f ∈ doc.fields) :
    isUsable f = true ∧ hasBlankBody f = false ∧ f.isInline = false ∧ f.kind ≠ .parseError := by
  rcases doc.mem_fields hf with ⟨p, hp, rfl⟩ | ⟨p, hp, t, ht, rfl⟩ | ⟨t, ht, rfl | rfl⟩
  · refine ⟨?_, (isBlank_trimmed _).trans (doc.describe_oneLine p hp).2, rfl, by rintro ⟨⟩⟩
    simpa [isUsable, isKnown, hasSubject, Field.param] using Or.inr (h.plain_names p hp).1
  · refine ⟨?_, (isBlank_trimmed _).trans (h.types p hp t ht).2, rfl, by rintro ⟨⟩⟩
    simpa [isUsable, isKnown, hasSubject, Field.typeOf] using Or.inr (h.plain_names p hp).1
  · have hsome : signature.returnType ≠ none := fun hnone => by simp [hnone] at ht
    exact ⟨rfl, (isBlank_trimmed _).trans (doc.returned_oneLine hsome).2, rfl, by rintro ⟨⟩⟩
  · exact ⟨rfl, (isBlank_trimmed _).trans (h.return_type t ht).2, rfl, by rintro ⟨⟩⟩

theorem filter_isUsable_fields : doc.fields.filter isUsable = doc.fields :=
  List.filter_eq_self.mpr fun _ hf => (doc.wellFormed_of_mem_fields h hf).1

theorem shapes_fields : shapes doc.fields = [] := by
  refine List.flatMap_eq_nil_iff.mpr fun f hf => ?_
  obtain ⟨husable, hblank, -, -⟩ := doc.wellFormed_of_mem_fields h hf
  rw [isUsable, Bool.and_eq_true] at husable
  simp [shapeOf, husable.1, husable.2, hblank]

/-! ## Repeated fields -/

theorem resolve?_expected {p : Parameter} (hp : p ∈ signature.expected) :
    resolve? signature.expected p.name = some p :=
  resolve?_name h.nodup_expected_names hp (h.plain_names p hp)

/-- The fields about a parameter are a `:param:` field and perhaps a `:type:` field of its name. -/
theorem fieldKeys_parameterFields {p : Parameter} (hp : p ∈ signature.expected) :
    (∀ k ∈ (doc.parameterFields p).map (fieldKey signature.expected), k.2 = some p.name) ∧
      ((doc.parameterFields p).map (fieldKey signature.expected)).Nodup := by
  have hresolve := resolve?_expected h hp
  rcases ht : p.declaredType with _ | t <;>
    simp [parameterFields, ht, fieldKey, canonicalSubject, Field.param, Field.typeOf, hresolve,
      FieldKind.requiresSubject]

/-- No two fields share their kind and their subject. -/
theorem nodup_fieldKeys : (doc.fields.map (fieldKey signature.expected)).Nodup := by
  rw [fields, List.map_append, List.map_flatMap, List.nodup_append]
  refine ⟨?_, ?_, ?_⟩
  · refine List.pairwise_flatMap.mpr
      ⟨fun p hp => (doc.fieldKeys_parameterFields h hp).2, ?_⟩
    refine (List.pairwise_map.mp h.nodup_expected_names).imp_of_mem ?_
    intro p q hp hq hne k hk k' hk' heq
    have hkp := (doc.fieldKeys_parameterFields h hp).1 k hk
    have hkq := (doc.fieldKeys_parameterFields h hq).1 k' hk'
    rw [heq, hkq] at hkp
    exact hne (Option.some.inj hkp).symm
  · rcases ht : signature.returnType with _ | t <;>
      simp [returnFields, ht, fieldKey, canonicalSubject, Field.returns, Field.rtype]
  · intro k hk k' hk' heq
    obtain ⟨p, hp, hk⟩ := List.mem_flatMap.mp hk
    have hkp := (doc.fieldKeys_parameterFields h hp).1 k hk
    have hnone : k'.2 = none := by
      rcases ht : signature.returnType with _ | t <;>
        simp [returnFields, ht, fieldKey, canonicalSubject, Field.returns, Field.rtype] at hk'
      rcases hk' with rfl | rfl <;> rfl
    rw [heq, hnone] at hkp
    exact Option.some_ne_none _ hkp.symm

theorem duplicates_fields : duplicates signature.expected doc.fields = [] := by
  have hinline : (doc.fields.filter fun f => !f.isInline) = doc.fields :=
    List.filter_eq_self.mpr fun f hf => by simp [(doc.wellFormed_of_mem_fields h hf).2.2.1]
  simp only [duplicates, hinline, List.map_eq_nil_iff, List.filter_eq_nil_iff]
  intro k _
  have hcount := List.nodup_iff_count_le_one.mp (doc.nodup_fieldKeys h) k
  simpa using hcount

/-! ## Documented parameters and types -/

/-- Every subject is the name of an expected parameter. -/
theorem unknowns_fields (kind : FieldKind) : unknowns kind signature.expected doc.fields = [] := by
  simp only [unknowns, List.map_eq_nil_iff, List.filter_eq_nil_iff]
  intro s hs
  obtain ⟨f, hf, hsubject⟩ := List.mem_filterMap.mp hs
  rcases doc.mem_fields (List.mem_filter.mp hf).1 with
    ⟨p, hp, rfl⟩ | ⟨p, hp, t, -, rfl⟩ | ⟨t, -, rfl | rfl⟩
  · obtain rfl : p.name = s := Option.some.inj hsubject
    simp [resolve?_expected h hp]
  · obtain rfl : p.name = s := Option.some.inj hsubject
    simp [resolve?_expected h hp]
  · exact absurd hsubject (Option.some_ne_none s).symm
  · exact absurd hsubject (Option.some_ne_none s).symm

omit h in
theorem subjects_param_fields :
    subjects .param doc.fields = signature.expected.map Parameter.name := by
  have hparameter : ∀ p, ((doc.parameterFields p).filter fun f => f.kind = .param)
      = [Field.param p.name (trimmed (doc.describe p))] := fun p => by
    rcases ht : p.declaredType with _ | t <;> simp [parameterFields, ht, Field.param, Field.typeOf]
  have hreturn : (doc.returnFields.filter fun f => f.kind = .param) = [] := by
    rcases ht : signature.returnType with _ | t <;>
      simp [returnFields, ht, Field.returns, Field.rtype]
  rw [subjects, fieldsOf, fields, List.filter_append, List.filter_flatMap, hreturn, List.append_nil]
  simp only [hparameter]
  rw [← List.map_eq_flatMap, List.filterMap_map]
  exact congrFun (List.filterMap_eq_map (f := Parameter.name)) signature.expected

/-- **The documented parameters are the expected ones, in their order.** -/
theorem documented_fields : documented signature.expected doc.fields = signature.expected := by
  have hresolve : (signature.expected.map Parameter.name).filterMap (resolve? signature.expected)
      = signature.expected := by
    rw [List.filterMap_map]
    exact (List.filterMap_congr fun p hp => resolve?_expected h hp).trans List.filterMap_some
  rw [documented, doc.subjects_param_fields, hresolve]
  exact firstsBy_eq_self Parameter.position (h.pairwise_position_lt.imp Nat.ne_of_lt)

/-- **The documented type of a parameter is its declared one**, trimmed. -/
theorem documentedType_fields {p : Parameter} (hp : p ∈ signature.expected) :
    documentedType signature.expected doc.fields p.name = p.declaredType.map trimmed := by
  -- The only field that can be found is the one that the parameter's own type was written into.
  have hown : ∀ f ∈ fieldsOf .type doc.fields,
      (f.subject.bind (resolve? signature.expected)).map Parameter.name = some p.name →
        ∃ t ∈ p.declaredType, f = Field.typeOf p.name (trimmed t) := by
    intro f hf hname
    obtain ⟨hmem, hkind⟩ := List.mem_filter.mp hf
    rcases doc.mem_fields hmem with ⟨q, -, rfl⟩ | ⟨q, hq, t, ht, rfl⟩ | ⟨t, -, rfl | rfl⟩
    · exact absurd hkind (by simp [Field.param])
    · have hqp : q.name = p.name := by
        simpa [Field.typeOf, resolve?_expected h hq] using hname
      obtain rfl := List.inj_on_of_nodup_map h.nodup_expected_names hq hp hqp
      exact ⟨t, ht, rfl⟩
    · exact absurd hkind (by simp [Field.returns])
    · exact absurd hkind (by simp [Field.rtype])
  unfold documentedType
  rcases hfind : (fieldsOf .type doc.fields).find? _ with _ | f
  · rcases ht : p.declaredType with _ | t
    · rfl
    have hmem : Field.typeOf p.name (trimmed t) ∈ fieldsOf .type doc.fields := by
      refine List.mem_filter.mpr ⟨List.mem_append_left _ (List.mem_flatMap.mpr ⟨p, hp, ?_⟩), rfl⟩
      simp [parameterFields, ht]
    have hfails := List.find?_eq_none.mp hfind _ hmem
    have hblank : hasBlankBody (Field.typeOf p.name (trimmed t)) = false :=
      (isBlank_trimmed t).trans (h.types p hp t ht).2
    have hsubject : (Field.typeOf p.name (trimmed t)).subject = some p.name := rfl
    exact absurd hfails (by simp [hblank, hsubject, resolve?_expected h hp])
  · have hfound := List.find?_some hfind
    rw [Bool.and_eq_true, beq_iff_eq] at hfound
    obtain ⟨t, ht, rfl⟩ := hown f (List.mem_of_find?_eq_some hfind) hfound.2
    rw [Option.mem_def.mp ht]
    rfl

/-! ## The sections of the analysis -/

omit h in
/-- A declared type and the same text trimmed do not disagree. -/
theorem typeFinding_trimmed (name : String) (declared : Option String) :
    typeFinding name declared (declared.map trimmed) = none := by
  rcases declared with _ | t
  · rfl
  · exact if_pos (parse_trimmed t).symm

theorem parameters_fields : parameters signature.expected doc.fields = [] := by
  refine List.filterMap_eq_nil_iff.mpr fun p hp => ?_
  have hdocumented : (signature.expected.any fun q => q.position == p.position) = true :=
    List.any_eq_true.mpr ⟨p, hp, beq_self_eq_true _⟩
  rw [parameterFinding, doc.documented_fields h, if_pos hdocumented, doc.documentedType_fields h hp,
    typeFinding_trimmed]
  rfl

theorem order_fields : order signature.expected doc.fields = [] := by
  have hsorted : ((signature.expected.map Parameter.position).mergeSort
      fun a b => decide (a ≤ b)) = signature.expected.map Parameter.position :=
    List.mergeSort_of_pairwise
      (h.pairwise_position_lt.imp fun hlt => decide_eq_true (Nat.le_of_lt hlt))
  simp only [order, doc.documented_fields h, hsorted, if_true]

theorem documentedRtype_fields :
    documentedRtype doc.fields = signature.returnType.map fun t => trimmed (trimmed t) := by
  have hparameter : ∀ p, ((doc.parameterFields p).filter fun f => f.kind = .rtype) = [] :=
    fun p => by
      rcases ht : p.declaredType with _ | t <;>
        simp [parameterFields, ht, Field.param, Field.typeOf]
  have hnone : (signature.expected.flatMap doc.parameterFields).filter
      (fun f => f.kind = .rtype) = [] := by
    rw [List.filter_flatMap]
    exact List.flatMap_eq_nil_iff.mpr fun p _ => hparameter p
  rw [documentedRtype, fieldsOf, fields, List.filter_append, hnone, List.nil_append]
  rcases ht : signature.returnType with _ | t
  · simp [returnFields, ht]
  · have hblank : hasBlankBody (Field.rtype (trimmed t)) = false :=
      (isBlank_trimmed t).trans (h.return_type t ht).2
    have hkinds : (doc.returnFields.filter fun f => f.kind = .rtype)
        = [Field.rtype (trimmed t)] := by
      simp [returnFields, ht, Field.returns, Field.rtype]
    rw [hkinds, List.find?_cons_of_pos (by simp [hblank])]
    rfl

omit h in
/-- A declared return type has both its fields. -/
theorem hasKind_fields {t : String} (ht : signature.returnType = some t) :
    hasKind .returns doc.fields = true ∧ hasKind .rtype doc.fields = true := by
  have hmem : ∀ f ∈ [Field.returns (trimmed doc.returned), Field.rtype (trimmed t)],
      f ∈ doc.fields := fun f hf => by
    refine List.mem_append_right _ (List.mem_flatMap.mpr ⟨t, ?_, hf⟩)
    rw [ht]
    exact List.mem_singleton_self t
  exact ⟨List.any_eq_true.mpr ⟨_, hmem _ List.mem_cons_self, rfl⟩,
    List.any_eq_true.mpr ⟨_, hmem _ (List.mem_cons_of_mem _ List.mem_cons_self), rfl⟩⟩

theorem returns_fields (settings : Settings) :
    returns signature.returnType doc.fields settings = [] := by
  have hrtype : rtypeFinding signature.returnType (documentedRtype doc.fields) = none := by
    rw [doc.documentedRtype_fields h]
    rcases signature.returnType with _ | t
    · rfl
    · exact if_pos ((parse_trimmed _).trans (parse_trimmed t)).symm
  have hlacks : lacksReturns signature.returnType doc.fields = false ∧
      lacksRtype signature.returnType doc.fields settings = false := by
    rcases ht : signature.returnType with _ | t
    · simp [lacksReturns, lacksRtype, returnsNothing]
    · obtain ⟨hreturns, hrtypes⟩ := doc.hasKind_fields ht
      simp [lacksReturns, lacksRtype, hreturns, hrtypes]
  rw [returns, hrtype, hlacks.1, hlacks.2]
  rfl

theorem remarks_fields (settings : Settings) : remarks signature doc.fields settings = [] := by
  simp only [remarks, doc.filter_isUsable_fields h, doc.shapes_fields h, doc.duplicates_fields h,
    doc.unknowns_fields h, doc.parameters_fields h, doc.order_fields h, doc.returns_fields h,
    List.append_nil]

end Documentation

/-! ## The check -/

/-- **A completely documented function is never flagged** — whatever its signature, the words of its
docstring and the settings. -/
theorem check_documentation (settings : Settings) {signature : Signature}
    (h : signature.IsDocumentable) (doc : Documentation signature) :
    Definition.check settings ⟨signature, some doc.text, false⟩ = [] := by
  have hfields : (Definition.mk signature (some doc.text) false).fields = some doc.fields :=
    congrArg some (doc.parse_text h)
  have hbroken : doc.fields.find? (fun f => f.kind == .parseError) = none :=
    List.find?_eq_none.mpr fun f hf => by
      simpa using (doc.wellFormed_of_mem_fields h hf).2.2.2
  have hremarks : analyze signature (some doc.fields) settings = [] := by
    rw [analyze_eq_finish, remarksOn, doc.remarks_fields h]
    simp [finish, Diagnostic.sortBy, firstsBy]
  rw [Definition.check_eq_sortBy, Definition.brokenLineDiagnostics, Definition.brokenLine?, hfields,
    Option.bind_some, hbroken, hremarks]
  simp [Diagnostic.sortBy]

/-- A method with a receiver, a parameter without a type, and types with colons and quotes. -/
def sampleSignature : Signature :=
  { qualifiedName := "Store.load"
    parameters :=
      [⟨"self", 0, .positional, none, false⟩, ⟨"key", 1, .positional, some "\"Key\" ", false⟩,
        ⟨"args", 2, .variadicPositional, none, false⟩,
        ⟨"options", 3, .variadicKeyword, some "dict[str, ':py:class:`~a.B`']", false⟩]
    returnType := some "Optional[ bytes ]"
    isMethod := true
    location := ⟨⟨"store.py"⟩, 7⟩ }

/-- Some words about it. -/
def sampleDocumentation : Documentation sampleSignature where
  summary := ["Load a value.", "", "  :not: a field"]
  describe p := "what " ++ p.name ++ " is: text"
  returned := "the value"
  summary_lines := by decide
  describe_oneLine := by
    unfold IsOneLine
    decide
  returned_oneLine := by
    unfold IsOneLine
    decide

theorem check_sampleDocumentation :
    sampleSignature.IsDocumentable ∧ sampleDocumentation.text ≠ "" ∧
      Definition.check {} ⟨sampleSignature, some sampleDocumentation.text, false⟩ = [] := by
  have h : sampleSignature.IsDocumentable := by
    refine ⟨⟨fun i p hp => ?_, by decide⟩, ?_, ?_, ?_⟩
    · obtain ⟨hi, rfl⟩ := List.getElem?_eq_some_iff.mp hp
      have hpositions : ∀ j : Fin 4, (sampleSignature.parameters.get j).position = j := by decide
      exact hpositions ⟨i, hi⟩
    · unfold IsPlainName
      decide
    · unfold IsOneLine
      decide
    · unfold IsOneLine
      decide
  exact ⟨h, by decide, check_documentation {} h sampleDocumentation⟩

end DocAudit
