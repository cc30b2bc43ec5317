import DocAudit.Proofs.ExactReports
import DocAudit.Proofs.Resolution

/-!
# Proofs/ParameterReports — which parameters are missing, and which names are unknown

In a regular signature a field is about a parameter if its subject looks like an identifier and
resolves to that parameter (`Field.isAbout`).  Two questions about the fields then decide everything
that is reported about an expected parameter: whether some `:param:` field is about it
(`isDocumented`), and which text the first `:type:` field about it gives that is not blank
(`firstType`).  The analysis tells parameters apart by position in one place and by name in another,
and `parameterFinding_eq` says that this makes no difference.

`missing_and_unknown_exact` — the undocumented parameters are reported missing, each once and in
order, and every subject that resolves to nothing is reported unknown, once.
-/

namespace DocAudit

open Text Subject Analysis Diagnostic

/-! ## Fields about a parameter -/

/-- The field has the kind, and its identifier-like subject resolves to the parameter. -/
def Field.isAbout (expected : List Parameter) (kind : FieldKind) (p : Parameter) (f : Field) :
    Bool :=
  f.kind == kind && f.subject.any fun s => isIdentifierLike s && resolve? expected s == some p

/-- Some `:param:` field is about the parameter. -/
def isDocumented (expected : List Parameter) (fields : List Field) (p : Parameter) : Bool :=
  fields.any (Field.isAbout expected .param p)

/-- What the first `:type:` field about the parameter says that is not blank. -/
def firstType (expected : List Parameter) (fields : List Field) (p : Parameter) : Option String :=
  (fields.find? fun f => f.isAbout expected .type p && !isBlank f.body.toList).map Field.body

theorem Field.isAbout_iff {expected : List Parameter} {kind : FieldKind} {p : Parameter}
    {f : Field} : f.isAbout expected kind p = true ↔
      f.kind = kind ∧ ∃ s, f.subject = some s ∧ isIdentifierLike s = true ∧
        resolve? expected s = some p := by
  simp [isAbout, Option.any_eq_true]

namespace Analysis

variable {expected : List Parameter} {fields : List Field}

/-- A field that needs a subject is usable iff it has an identifier-like one. -/
theorem isUsable_iff {f : Field} (hkind : f.kind.requiresSubject = true) :
    isUsable f = true ↔ ∃ s, f.subject = some s ∧ isIdentifierLike s = true := by
  have hknown : isKnown f = true := by
    rcases hk : f.kind <;> simp_all [FieldKind.requiresSubject, isKnown]
  have hempty : isIdentifierLike "" = false := rfl
  rcases hs : f.subject with _ | s <;> simp [isUsable, hknown, hasSubject, hkind, hs, hempty]

theorem mem_subjects_iff (kind : FieldKind) (hkind : kind.requiresSubject = true) {s : String} :
    s ∈ subjects kind (fields.filter isUsable) ↔
      isIdentifierLike s = true ∧ ∃ f ∈ fields, f.kind = kind ∧ f.subject = some s := by
  simp only [subjects, fieldsOf, List.mem_filterMap, List.mem_filter, decide_eq_true_eq]
  constructor
  · rintro ⟨f, ⟨⟨hf, husable⟩, rfl⟩, hs⟩
    obtain ⟨t, ht, hlike⟩ := (isUsable_iff hkind).mp husable
    obtain rfl : t = s := Option.some.inj (ht.symm.trans hs)
    exact ⟨hlike, f, hf, rfl, hs⟩
  · rintro ⟨hlike, f, hf, rfl, hs⟩
    exact ⟨f, ⟨⟨hf, (isUsable_iff hkind).mpr ⟨s, hs, hlike⟩⟩, rfl⟩, hs⟩

theorem mem_of_resolve? {s : String} {p : Parameter} (h : resolve? expected s = some p) :
    p ∈ expected :=
  List.mem_of_find?_eq_some h

/-- Some subject resolves to the parameter iff some `:param:` field is about it. -/
theorem isDocumented_iff {p : Parameter} : isDocumented expected fields p = true ↔
    p ∈ (subjects .param (fields.filter isUsable)).filterMap (resolve? expected) := by
  simp only [isDocumented, List.any_eq_true, Field.isAbout_iff, List.mem_filterMap,
    mem_subjects_iff .param rfl]
  constructor
  · rintro ⟨f, hf, hkind, s, hs, hlike, hp⟩
    exact ⟨s, ⟨hlike, f, hf, hkind, hs⟩, hp⟩
  · rintro ⟨s, ⟨hlike, f, hf, hkind, hs⟩, hp⟩
    exact ⟨f, hf, hkind, s, hs, hlike, hp⟩

/-- The documented parameters are told apart by position, and positions are as good as
parameters. -/
theorem any_position_documented (hpositions : (expected.map Parameter.position).Nodup)
    {p : Parameter} (hp : p ∈ expected) :
    ((documented expected (fields.filter isUsable)).any fun q => q.position == p.position)
      = isDocumented expected fields p := by
  rw [Bool.eq_iff_iff, isDocumented_iff]
  have hposition : ((documented expected (fields.filter isUsable)).any
      fun q => q.position == p.position) = true ↔
      p.position ∈ (documented expected (fields.filter isUsable)).map Parameter.position := by
    simp [List.mem_map]
  rw [hposition, documented, mem_map_firstsBy]
  constructor
  · intro h
    obtain ⟨q, hq, heq⟩ := List.mem_map.mp h
    obtain ⟨s, -, hs⟩ := List.mem_filterMap.mp hq
    rwa [List.inj_on_of_nodup_map hpositions (mem_of_resolve? hs) hp heq] at hq
  · intro h
    exact List.mem_map_of_mem h

/-- The types are collected by name, and names are as good as parameters. -/
theorem documentedType_eq_firstType (hnames : (expected.map Parameter.name).Nodup)
    {p : Parameter} (hp : p ∈ expected) :
    documentedType expected (fields.filter isUsable) p.name = firstType expected fields p := by
  have htest : ∀ f : Field,
      (isUsable f && (decide (f.kind = .type) && (!hasBlankBody f &&
        (((f.subject.bind (resolve? expected)).map Parameter.name) == some p.name))))
      = (f.isAbout expected .type p && !isBlank f.body.toList) := by
    intro f
    by_cases hkind : f.kind = .type
    · have hsubject : f.kind.requiresSubject = true := by rw [hkind]; rfl
      rw [Bool.eq_iff_iff]
      simp only [Bool.and_eq_true, isUsable_iff hsubject, Field.isAbout_iff, hasBlankBody,
        beq_iff_eq, decide_eq_true_eq, Option.map_eq_some_iff, Option.bind_eq_some_iff]
      constructor
      · rintro ⟨⟨s, hs, hlike⟩, -, hblank, q, ⟨t, ht, hq⟩, hname⟩
        obtain rfl : t = s := Option.some.inj (ht.symm.trans hs)
        obtain rfl := List.inj_on_of_nodup_map hnames (mem_of_resolve? hq) hp hname
        exact ⟨⟨hkind, t, hs, hlike, hq⟩, hblank⟩
      · rintro ⟨⟨-, s, hs, hlike, hq⟩, hblank⟩
        exact ⟨⟨s, hs, hlike⟩, hkind, hblank, p, ⟨s, hs, hq⟩, rfl⟩
    · simp [Field.isAbout, hkind]
  rw [documentedType, fieldsOf, firstType, List.find?_filter, List.find?_filter]
  simp only [Bool.decide_and, Bool.decide_eq_true, ← htest]

variable {signature : Signature} {settings : Settings}

/-- **What is reported about an expected parameter**, from the two answers. -/
theorem parameterFinding_eq (h : signature.IsRegular) {p : Parameter}
    (hp : p ∈ signature.expected) :
    parameterFinding signature.expected (fields.filter isUsable) p
      = if isDocumented signature.expected fields p then
          typeFinding p.name p.declaredType (firstType signature.expected fields p)
        else some (.missingParam p.name) := by
  rw [parameterFinding, any_position_documented h.nodup_expected_positions hp,
    documentedType_eq_firstType h.nodup_expected_names hp]

/-! ## Missing parameters -/

/-- Within a category positions decide. -/
theorem compareWithin_eq_lt {a b : Diagnostic} {i j : Nat} (hcategory : a.category = b.category)
    (ha : a.position = some i) (hb : b.position = some j) (hij : i < j) :
    compareWithin a b = .lt := by
  simp only [compareWithin, compareLex, compareOn, Ordering.then_eq_lt, hcategory, ha, hb,
    comparePosition]
  exact .inr ⟨Std.ReflCmp.compare_self, .inl (Nat.compare_eq_lt.mpr hij)⟩

/-- The report that a parameter is not documented. -/
def missingDiagnostic (signature : Signature) (p : Parameter) : Diagnostic :=
  .ofFinding (.missingParam p.name) signature.qualifiedName signature.location (some p.position)

/-- Reports on different parameters in the order of positions stay as they are. -/
theorem finish_missingDiagnostics {ps : List Parameter} (hnames : (ps.map Parameter.name).Nodup)
    (hpositions : (ps.map Parameter.position).Pairwise (· < ·))
    (hreports : settings.reports .missingParamDoc = true) :
    finish settings (ps.map (missingDiagnostic signature))
      = ps.map (missingDiagnostic signature) := by
  refine finish_eq_self ?_ ?_ ?_
  · intro d hd
    obtain ⟨p, -, rfl⟩ := List.mem_map.mp hd
    exact hreports
  · have hkey : ∀ p, (missingDiagnostic signature p).key = (.missingParamDoc, none, some p.name) :=
      fun _ => rfl
    rw [List.map_map]
    refine (List.pairwise_map.mp hnames).map _ fun a b hne heq => hne ?_
    simpa [hkey] using heq
  · refine (List.pairwise_map.mp hpositions).map _ fun a b hlt => ?_
    have hbefore : compareWithin (missingDiagnostic signature a) (missingDiagnostic signature b)
        = .lt := compareWithin_eq_lt rfl rfl rfl hlt
    rw [hbefore]
    rfl

theorem filter_missing_parameters (h : signature.IsRegular) :
    (Analysis.parameters signature.expected (fields.filter isUsable)).filter
        (fun r => decide (r.finding.category = .missingParamDoc))
      = (signature.expected.filter fun p => !isDocumented signature.expected fields p).map
          fun p => ⟨.missingParam p.name, some p.position⟩ := by
  have hright : (signature.expected.filter fun p => !isDocumented signature.expected fields p).map
        (fun p => (⟨.missingParam p.name, some p.position⟩ : Remark))
      = signature.expected.filterMap fun p =>
          (Option.guard (fun q => !isDocumented signature.expected fields q) p).map
            fun p => ⟨.missingParam p.name, some p.position⟩ := by
    rw [← List.filterMap_eq_filter, List.map_filterMap]
  rw [hright, Analysis.parameters, List.filter_filterMap]
  refine List.filterMap_congr fun p hp => ?_
  rw [parameterFinding_eq h hp]
  by_cases hdocumented : isDocumented signature.expected fields p = true
  · -- What is said about the type of a documented parameter has another category.
    rw [if_pos hdocumented]
    rcases hf : typeFinding p.name p.declaredType (firstType signature.expected fields p) with _ | f
    · simp [Option.guard, hdocumented]
    · have hc : f.category ≠ .missingParamDoc := by
        rcases category_of_typeFinding hf with hc | hc <;> rw [hc] <;> decide
      simp [Option.guard, hdocumented, Option.filter, hc]
  · simp [Option.guard, hdocumented, Option.filter, Finding.category]

/-- **The missing parameters are the undocumented ones, in order.** -/
theorem filter_missing_analyze (h : signature.IsRegular)
    (hreports : settings.reports .missingParamDoc = true) :
    (analyze signature (some fields) settings).filter
        (fun d => decide (d.category = .missingParamDoc))
      = (signature.expected.filter fun p => !isDocumented signature.expected fields p).map
          (missingDiagnostic signature) := by
  have hsection := @filter_analyze signature fields settings .parameters
    (fun k => decide (k.1 = .missingParamDoc)) (by simp +contextual [sectionOf])
  have hdiagnostics : (((remarksOf signature fields settings .parameters).filter
        fun r => decide (r.finding.category = .missingParamDoc)).map
          fun r => r.diagnostic signature settings)
      = (signature.expected.filter fun p => !isDocumented signature.expected fields p).map
          (missingDiagnostic signature) := by
    rw [remarksOf, filter_missing_parameters h, List.map_map]
    refine List.map_congr_left fun p _ => ?_
    exact Remark.diagnostic_eq_ofFinding (r := ⟨.missingParam p.name, some p.position⟩) signature
      settings (fun h => by cases h)
  refine hsection.trans ?_
  rw [hdiagnostics]
  exact finish_missingDiagnostics
    (h.nodup_expected_names.sublist (List.filter_sublist.map Parameter.name))
    (h.pairwise_position_lt.sublist (List.filter_sublist.map Parameter.position)) hreports

/-! ## Unknown subjects -/

/-- The report that a documented name belongs to no parameter. -/
def unknownDiagnostic (signature : Signature) (s : String) : Diagnostic :=
  .ofFinding (.unknownParam s) signature.qualifiedName signature.location none

/-- Some `:param:` or `:type:` field has the subject, which looks like an identifier and resolves to
no expected parameter. -/
def IsStray (expected : List Parameter) (fields : List Field) (s : String) : Prop :=
  (∃ f ∈ fields, (f.kind = .param ∨ f.kind = .type) ∧ f.subject = some s) ∧
    isIdentifierLike s = true ∧ resolve? expected s = none

instance (expected : List Parameter) (fields : List Field) (s : String) :
    Decidable (IsStray expected fields s) :=
  inferInstanceAs (Decidable (_ ∧ _))

theorem mem_unknowns_iff (kind : FieldKind) (hkind : kind.requiresSubject = true) {r : Remark} :
    r ∈ unknowns kind expected (fields.filter isUsable) ↔
      ∃ s, (∃ f ∈ fields, f.kind = kind ∧ f.subject = some s) ∧ isIdentifierLike s = true ∧
        resolve? expected s = none ∧ r = ⟨.unknownParam s, none⟩ := by
  simp only [unknowns, List.mem_map, List.mem_filter, mem_subjects_iff kind hkind,
    Option.isNone_iff_eq_none]
  constructor
  · rintro ⟨s, ⟨⟨hlike, hfield⟩, hnone⟩, rfl⟩
    exact ⟨s, hfield, hlike, hnone, rfl⟩
  · rintro ⟨s, hfield, hlike, hnone, rfl⟩
    exact ⟨s, ⟨⟨hlike, hfield⟩, hnone⟩, rfl⟩

/-- Both passes over the subjects together report the stray ones. -/
theorem mem_remarksOf_unknowns_iff {r : Remark} :
    r ∈ remarksOf signature fields settings .unknowns ↔
      ∃ s, IsStray signature.expected fields s ∧ r = ⟨.unknownParam s, none⟩ := by
  simp only [remarksOf, List.mem_append, mem_unknowns_iff .param rfl,
    mem_unknowns_iff .type rfl]
  constructor
  · rintro (⟨s, ⟨f, hf, hkind, hs⟩, hlike, hnone, rfl⟩ | ⟨s, ⟨f, hf, hkind, hs⟩, hlike, hnone, rfl⟩)
    · exact ⟨s, ⟨⟨f, hf, .inl hkind, hs⟩, hlike, hnone⟩, rfl⟩
    · exact ⟨s, ⟨⟨f, hf, .inr hkind, hs⟩, hlike, hnone⟩, rfl⟩
  · rintro ⟨s, ⟨⟨f, hf, hkind | hkind, hs⟩, hlike, hnone⟩, rfl⟩
    · exact .inl ⟨s, ⟨f, hf, hkind, hs⟩, hlike, hnone, rfl⟩
    · exact .inr ⟨s, ⟨f, hf, hkind, hs⟩, hlike, hnone, rfl⟩

/-- An unknown subject is known by its key. -/
theorem eq_unknownParam_iff {f : Finding} {s : String} :
    f = .unknownParam s ↔ (f.category, f.field, f.subject) = (.unknownParamDoc, none, some s) := by
  cases f <;> simp [Finding.category, Finding.field, Finding.subject]

/-- **A stray subject is reported once, and no other subject is.** -/
theorem filter_unknown_analyze (hreports : settings.reports .unknownParamDoc = true) (s : String) :
    (analyze signature (some fields) settings).filter
        (fun d => decide (d.finding = .unknownParam s))
      = if IsStray signature.expected fields s then [unknownDiagnostic signature s] else [] := by
  rw [filter_finding_analyze fun f => eq_unknownParam_iff]
  refine filter_analyze_eq_ite (r := ⟨.unknownParam s, none⟩) (sectionOf_of_eq rfl) hreports nofun
    fun r => ?_
  rw [mem_remarksOf_unknowns_iff, decide_eq_true_iff, ← eq_unknownParam_iff]
  constructor
  · rintro ⟨⟨t, hstray, rfl⟩, ht⟩
    obtain rfl := Finding.unknownParam.inj ht
    exact ⟨hstray, rfl⟩
  · rintro ⟨hstray, rfl⟩
    exact ⟨⟨s, hstray, rfl⟩, rfl⟩

/-! ## Receivers -/

/-- No expected parameter has the name of the receiver, since names do not repeat. -/
theorem name_ne_receiver (h : signature.IsRegular) {p q : Parameter} (hp : p ∈ signature.parameters)
    (hreceiver : signature.isReceiver p = true) (hq : q ∈ signature.expected) :
    q.name ≠ p.name := by
  intro hsame
  obtain ⟨hq, hexpected⟩ := List.mem_filter.mp hq
  rw [List.inj_on_of_nodup_map h.names_nodup hq hp hsame, hreceiver] at hexpected
  exact absurd hexpected (by decide)

/-- The name of the receiver resolves to no expected parameter. -/
theorem resolve?_receiver (h : signature.IsRegular) {p : Parameter} (hp : p ∈ signature.parameters)
    (hreceiver : signature.isReceiver p = true) :
    isIdentifierLike p.name = true ∧ resolve? signature.expected p.name = none := by
  have hname : p.name = "self" ∨ p.name = "cls" := by
    simp only [Signature.isReceiver, Bool.and_eq_true, Bool.or_eq_true, beq_iff_eq] at hreceiver
    exact hreceiver.2
  have hplain : IsPlainName p.name := by
    rcases hname with hname | hname <;> rw [hname] <;> exact ⟨by decide, by decide⟩
  refine ⟨hplain.1, ?_⟩
  simp only [resolve?, starsOf_eq_nil hplain.2]
  refine List.find?_eq_none.mpr fun q hq hanswers => name_ne_receiver h hp hreceiver hq ?_
  simpa [answersTo, String.toList_inj] using hanswers

/-- The receiver is never missing. -/
theorem finding_ne_missing_receiver (h : signature.IsRegular)
    (hreports : settings.reports .missingParamDoc = true) {p : Parameter}
    (hp : p ∈ signature.parameters) (hreceiver : signature.isReceiver p = true) {d : Diagnostic}
    (hd : d ∈ analyze signature (some fields) settings) : d.finding ≠ .missingParam p.name := by
  intro hfinding
  have hcategory : d.category = .missingParamDoc := by
    obtain ⟨r, -, rfl⟩ := mem_analyze hd
    rw [Remark.diagnostic_finding] at hfinding
    rw [Remark.diagnostic_category, hfinding]
    rfl
  have hlisted : d ∈ (signature.expected.filter
      fun p => !isDocumented signature.expected fields p).map (missingDiagnostic signature) := by
    rw [← filter_missing_analyze h hreports]
    exact List.mem_filter.mpr ⟨hd, decide_eq_true hcategory⟩
  obtain ⟨q, hq, rfl⟩ := List.mem_map.mp hlisted
  have hsame : q.name = p.name := Finding.missingParam.inj hfinding
  exact name_ne_receiver h hp hreceiver (List.mem_filter.mp hq).1 hsame

end Analysis

open Analysis

/-- **Missing and unknown parameters are reported exactly** — the expected parameters that no
`:param:` field is about, each once and in order; and every stray subject once, no other at all.
The receiver of a method is never missing, and a field about it is stray. -/
theorem missing_and_unknown_exact {signature : Signature} (h : signature.IsRegular)
    (fields : List Field) (settings : Settings)
    (hmissing : settings.ignores .missingParamDoc = false)
    (hunknown : settings.ignores .unknownParamDoc = false) :
    (analyze signature (some fields) settings).filter
        (fun d => decide (d.category = .missingParamDoc))
      = (signature.expected.filter fun p => !isDocumented signature.expected fields p).map
          (missingDiagnostic signature) ∧
    (∀ s, (analyze signature (some fields) settings).filter
        (fun d => decide (d.finding = .unknownParam s))
      = if IsStray signature.expected fields s then [unknownDiagnostic signature s] else []) ∧
    ∀ p ∈ signature.parameters, signature.isReceiver p = true →
      (∀ d ∈ analyze signature (some fields) settings, d.finding ≠ .missingParam p.name) ∧
      ∀ f ∈ fields, (f.kind = .param ∨ f.kind = .type) → f.subject = some p.name →
        (analyze signature (some fields) settings).filter
            (fun d => decide (d.finding = .unknownParam p.name))
          = [unknownDiagnostic signature p.name] := by
  have hmissing' := reports_of_not_ignores hmissing
  have hunknown' := reports_of_not_ignores hunknown
  refine ⟨filter_missing_analyze h hmissing', filter_unknown_analyze hunknown', ?_⟩
  intro p hp hreceiver
  refine ⟨fun d hd => finding_ne_missing_receiver h hmissing' hp hreceiver hd, ?_⟩
  intro f hf hkind hsubject
  rw [filter_unknown_analyze hunknown', if_pos]
  exact ⟨⟨f, hf, hkind, hsubject⟩, resolve?_receiver h hp hreceiver⟩

/-- A method with a plain parameter and both variadic ones. -/
def sampleMethod : Signature :=
  (((({ Signature.bare "A.f" ⟨⟨"a.py"⟩, 1⟩ with isMethod := true }).withParameter
    (.plain "self" 0)).withParameter (.plain "x" 0)).withParameter
    { Parameter.plain "args" 0 with kind := .variadicPositional }).withParameter
    { Parameter.plain "kw" 0 with kind := .variadicKeyword }

/-- Fields about the receiver, a variadic parameter with its stars, a plain one with a star, and a
name that is gone. -/
def sampleFields : List Field :=
  [.param "self" "S.", .param "*args" "A.", .typeOf "*x" "int", .param "old" "O.",
    .typeOf "old" "int", .param "not a name" "N."]

theorem missing_and_unknown_sample :
    sampleMethod.IsRegular ∧
    (analyze sampleMethod (some sampleFields) {}).filter
        (fun d => decide (d.category = .missingParamDoc))
      = [missingDiagnostic sampleMethod (.plain "x" 1),
         missingDiagnostic sampleMethod
           { Parameter.plain "kw" 3 with kind := .variadicKeyword }] ∧
    (analyze sampleMethod (some sampleFields) {}).filter
        (fun d => decide (d.finding = .unknownParam "old"))
      = [unknownDiagnostic sampleMethod "old"] ∧
    (analyze sampleMethod (some sampleFields) {}).filter
        (fun d => decide (d.finding = .unknownParam "args")) = [] ∧
    (analyze sampleMethod (some sampleFields) {}).filter
        (fun d => decide (d.finding = .unknownParam "self"))
      = [unknownDiagnostic sampleMethod "self"] := by
  have hregular : sampleMethod.IsRegular := by
    refine ⟨fun i p hp => ?_, by decide⟩
    match i, hp with
    | 0, hp | 1, hp | 2, hp | 3, hp => cases hp; rfl
  obtain ⟨hmissing, hunknown, hreceiver⟩ :=
    missing_and_unknown_exact hregular sampleFields {} rfl rfl
  refine ⟨hregular, hmissing.trans (by decide), (hunknown "old").trans (by decide),
    (hunknown "args").trans (by decide), ?_⟩
  exact (hreceiver (.plain "self" 0) (by decide) (by decide)).2 (.param "self" "S.") (by decide)
    (.inl rfl) rfl

end DocAudit
