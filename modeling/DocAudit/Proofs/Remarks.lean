import DocAudit.Definition
import DocAudit.Proofs.FirstMentions

/-!
# Proofs/Remarks — what an analysis can report

Each section of the analysis lists remarks of its own categories, and none of them is about broken
lines.  From there:

* `mem_analyze` — every diagnostic of an analysis is a remark placed in its function, of a category
  that is switched on.
* `category_ne_invalidRest_of_mem_analyze` — broken lines are none of the analysis' business, so the
  diagnostic that a check adds for them repeats nothing.
-/

namespace DocAudit

namespace Analysis

/-! ## The categories of each section -/

theorem category_of_mem_shapes {fields : List Field} {r : Remark} (h : r ∈ shapes fields) :
    r.finding.category = .malformedFieldDoc := by
  obtain ⟨f, -, hf⟩ := List.mem_flatMap.mp h
  unfold shapeOf at hf
  split at hf
  · exact absurd hf List.not_mem_nil
  split at hf
  · obtain rfl := List.mem_singleton.mp hf
    rfl
  split at hf
  · obtain rfl := List.mem_singleton.mp hf
    rfl
  · exact absurd hf List.not_mem_nil

theorem category_of_mem_duplicates {expected : List Parameter} {usable : List Field} {r : Remark}
    (h : r ∈ duplicates expected usable) : r.finding.category = .duplicateFieldDoc := by
  obtain ⟨k, -, rfl⟩ := List.mem_map.mp h
  rfl

theorem category_of_mem_unknowns {kind : FieldKind} {expected : List Parameter}
    {usable : List Field} {r : Remark} (h : r ∈ unknowns kind expected usable) :
    r.finding.category = .unknownParamDoc := by
  obtain ⟨s, -, rfl⟩ := List.mem_map.mp h
  rfl

theorem category_of_typeFinding {name : String} {declared documented : Option String}
    {f : Finding} (h : typeFinding name declared documented = some f) :
    f.category = .typeMismatch ∨ f.category = .typeDocMissing := by
  rcases declared with _ | d <;> rcases documented with _ | t
  · exact absurd h.symm (Option.some_ne_none f)
  · obtain rfl := Option.some.inj h
    exact Or.inr rfl
  · obtain rfl := Option.some.inj h
    exact Or.inr rfl
  · simp only [typeFinding] at h
    split at h
    · exact absurd h.symm (Option.some_ne_none f)
    · obtain rfl := Option.some.inj h
      exact Or.inl rfl

theorem category_of_mem_parameters {expected : List Parameter} {usable : List Field} {r : Remark}
    (h : r ∈ parameters expected usable) :
    r.finding.category = .missingParamDoc ∨ r.finding.category = .typeMismatch ∨
      r.finding.category = .typeDocMissing := by
  obtain ⟨p, -, hp⟩ := List.mem_filterMap.mp h
  obtain ⟨f, hf, rfl⟩ := Option.map_eq_some_iff.mp hp
  unfold parameterFinding at hf
  split at hf
  · exact Or.inr (category_of_typeFinding hf)
  · obtain rfl := Option.some.inj hf
    exact Or.inl rfl

theorem category_of_mem_order {expected : List Parameter} {usable : List Field} {r : Remark}
    (h : r ∈ order expected usable) : r.finding.category = .paramOrderMismatch := by
  simp only [order] at h
  split at h
  · exact absurd h List.not_mem_nil
  · obtain rfl := List.mem_singleton.mp h
    rfl

theorem category_of_rtypeFinding {declared documented : Option String} {f : Finding}
    (h : rtypeFinding declared documented = some f) : f.category = .rtypeMismatch := by
  rcases declared with _ | d <;> rcases documented with _ | t
  · exact absurd h.symm (Option.some_ne_none f)
  · exact absurd h.symm (Option.some_ne_none f)
  · exact absurd h.symm (Option.some_ne_none f)
  · simp only [rtypeFinding] at h
    split at h
    · exact absurd h.symm (Option.some_ne_none f)
    · obtain rfl := Option.some.inj h
      rfl

/-- What the section on the return value lists. -/
theorem mem_returns_iff {returnType : Option String} {fields : List Field} {settings : Settings}
    {r : Remark} : r ∈ returns returnType fields settings ↔
      lacksReturns returnType fields = true ∧ r = ⟨.missingReturn, none⟩ ∨
      lacksRtype returnType fields settings = true ∧ r = ⟨.missingRtype, none⟩ ∨
      ∃ f, rtypeFinding returnType (documentedRtype fields) = some f ∧ r = ⟨f, none⟩ := by
  simp only [returns, List.mem_append, List.mem_ite_nil_right, List.mem_singleton, List.mem_map,
    Option.mem_toList, or_assoc]
  exact or_congr_right (or_congr_right (exists_congr fun f => and_congr_right fun _ => eq_comm))

theorem category_of_mem_returns {returnType : Option String} {fields : List Field}
    {settings : Settings} {r : Remark} (h : r ∈ returns returnType fields settings) :
    r.finding.category = .missingReturnDoc ∨ r.finding.category = .missingRtypeDoc ∨
      r.finding.category = .rtypeMismatch := by
  obtain ⟨-, rfl⟩ | ⟨-, rfl⟩ | ⟨f, hf, rfl⟩ := mem_returns_iff.mp h
  · exact Or.inl rfl
  · exact Or.inr (Or.inl rfl)
  · exact Or.inr (Or.inr (category_of_rtypeFinding hf))

/-- No section reports broken lines. -/
theorem category_ne_invalidRest_of_mem_remarks {signature : Signature} {fields : List Field}
    {settings : Settings} {r : Remark} (h : r ∈ remarks signature fields settings) :
    r.finding.category ≠ .invalidRest := by
  simp only [remarks, List.mem_append] at h
  rcases h with (((((h | h) | h) | h) | h) | h) | h
  · rw [category_of_mem_shapes h]; decide
  · rw [category_of_mem_duplicates h]; decide
  · rw [category_of_mem_unknowns h]; decide
  · rw [category_of_mem_unknowns h]; decide
  · rcases category_of_mem_parameters h with hc | hc | hc <;> rw [hc] <;> decide
  · rw [category_of_mem_order h]; decide
  · rcases category_of_mem_returns h with hc | hc | hc <;> rw [hc] <;> decide

/-! ## What the return value is judged by -/

/-- What is said about the return value depends on three answers of the fields only. -/
theorem returns_congr {fields fields' : List Field}
    (hreturns : hasKind .returns fields = hasKind .returns fields')
    (hrtype : hasKind .rtype fields = hasKind .rtype fields')
    (hdocumented : documentedRtype fields = documentedRtype fields') (returnType : Option String)
    (settings : Settings) :
    returns returnType fields settings = returns returnType fields' settings := by
  have hlacks : lacksReturns returnType fields = lacksReturns returnType fields' := by
    rw [lacksReturns, lacksReturns, hreturns]
  have hlacks' :
      lacksRtype returnType fields settings = lacksRtype returnType fields' settings := by
    rw [lacksRtype, lacksRtype, hrtype]
  rw [returns, returns, hlacks, hlacks', hdocumented]

/-! ## Remarks as diagnostics -/

/-- Only the severity of a diagnostic may differ from what its finding says. -/
theorem Remark.diagnostic_eq (signature : Signature) (settings : Settings) (r : Remark) :
    ∃ severity, r.diagnostic signature settings
      = { Diagnostic.ofFinding r.finding signature.qualifiedName signature.location r.position with
            severity } := by
  by_cases h : r.finding.category = .missingRtypeDoc
  · exact ⟨settings.missingRtypeSeverity, if_pos h⟩
  · exact ⟨r.finding.category.defaultSeverity, if_neg h⟩

@[simp] theorem Remark.diagnostic_category (signature : Signature) (settings : Settings)
    (r : Remark) : (r.diagnostic signature settings).category = r.finding.category := by
  obtain ⟨severity, h⟩ := r.diagnostic_eq signature settings
  rw [h]
  rfl

theorem mem_finish {settings : Settings} {ds : List Diagnostic} {d : Diagnostic}
    (h : d ∈ finish settings ds) : d ∈ ds ∧ settings.reports d.category := by
  have hd := (firstsBy_sublist Diagnostic.key _).subset h
  rw [Diagnostic.sortBy, List.mem_mergeSort] at hd
  exact List.mem_filter.mp hd

/-- All remarks on a function, with or without a docstring. -/
def remarksOn (signature : Signature) (settings : Settings) : Option (List Field) → List Remark
  | none => [⟨.missingDocstring, none⟩]
  | some fields => remarks signature fields settings

theorem category_ne_invalidRest_of_mem_remarksOn {signature : Signature} {settings : Settings}
    {docstring : Option (List Field)} {r : Remark}
    (h : r ∈ remarksOn signature settings docstring) : r.finding.category ≠ .invalidRest := by
  rcases docstring with _ | fields
  · obtain rfl := List.mem_singleton.mp h
    rintro ⟨⟩
  · exact category_ne_invalidRest_of_mem_remarks h

end Analysis

open Analysis

theorem analyze_eq_finish (signature : Signature) (docstring : Option (List Field))
    (settings : Settings) : analyze signature docstring settings
      = finish settings ((remarksOn signature settings docstring).map
          fun r => r.diagnostic signature settings) := by
  rcases docstring with _ | fields <;> rfl

/-- **A diagnostic of an analysis is a remark placed in its function.** -/
theorem mem_analyze {signature : Signature} {docstring : Option (List Field)} {settings : Settings}
    {d : Diagnostic} (h : d ∈ analyze signature docstring settings) :
    ∃ r ∈ remarksOn signature settings docstring, d = r.diagnostic signature settings := by
  rw [analyze_eq_finish] at h
  obtain ⟨r, hr, rfl⟩ := List.mem_map.mp (mem_finish h).1
  exact ⟨r, hr, rfl⟩

/-- **An analysis reports no broken lines.** -/
theorem category_ne_invalidRest_of_mem_analyze {signature : Signature}
    {docstring : Option (List Field)} {settings : Settings} {d : Diagnostic}
    (h : d ∈ analyze signature docstring settings) : d.category ≠ .invalidRest := by
  obtain ⟨r, hr, rfl⟩ := mem_analyze h
  rw [Remark.diagnostic_category]
  exact category_ne_invalidRest_of_mem_remarksOn hr

end DocAudit
