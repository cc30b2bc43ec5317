import DocAudit.Proofs.ParameterReports
import DocAudit.Proofs.TypeForms

/-!
# Proofs/TypeReports — what is reported about the type of a parameter

Every expected parameter has at most one remark, and its name tells the remark apart from those on
all others (`filter_types_parameters`).  So the reports about the type of a parameter are the one
comparison of its declared type with the first type that its fields give (`typeReports_eq`), and
`type_reports_exact` reads the rules off it: a mismatch where both types are there and denote
different types, a missing side where one of them is there, nothing where the parameter itself is
not documented.
-/

namespace DocAudit

open Analysis Diagnostic

namespace Analysis

/-- A list that a function reads one element of: the others give nothing. -/
theorem filterMap_eq_toList {α β : Type} {l : List α} {a : α} {f : α → Option β} (hl : l.Nodup)
    (ha : a ∈ l) (hf : ∀ b ∈ l, b ≠ a → f b = none) : l.filterMap f = (f a).toList := by
  obtain ⟨l₁, l₂, rfl⟩ := List.append_of_mem ha
  have hnot := List.nodup_middle.mp hl
  have hnone : ∀ b ∈ l₁ ++ l₂, f b = none := by
    intro b hb
    refine hf b (List.perm_middle.mem_iff.mpr (List.mem_cons_of_mem a hb)) ?_
    rintro rfl
    exact (List.nodup_cons.mp hnot).1 hb
  rw [List.filterMap_append, List.filterMap_cons,
    List.filterMap_eq_nil_iff.mpr fun b hb => hnone b (List.mem_append_left _ hb),
    List.filterMap_eq_nil_iff.mpr fun b hb => hnone b (List.mem_append_right _ hb)]
  rcases f a with _ | b <;> rfl

theorem subject_of_typeFinding {name : String} {declared documented : Option String} {f : Finding}
    (h : typeFinding name declared documented = some f) : f.subject = some name := by
  rcases declared with _ | d <;> rcases documented with _ | t
  · exact absurd h.symm (Option.some_ne_none f)
  · obtain rfl := Option.some.inj h
    rfl
  · obtain rfl := Option.some.inj h
    rfl
  · simp only [typeFinding] at h
    split at h
    · exact absurd h.symm (Option.some_ne_none f)
    · obtain rfl := Option.some.inj h
      rfl

/-- A remark on a parameter is about its name. -/
theorem subject_of_parameterFinding {expected : List Parameter} {usable : List Field}
    {p : Parameter} {f : Finding} (h : parameterFinding expected usable p = some f) :
    f.subject = some p.name := by
  rw [parameterFinding] at h
  split at h
  · exact subject_of_typeFinding h
  · obtain rfl := Option.some.inj h
    rfl

/-- The diagnostics about the type of the parameter. -/
def typeReports (p : Parameter) (ds : List Diagnostic) : List Diagnostic :=
  ds.filter fun d =>
    (d.category == .typeMismatch || d.category == .typeDocMissing) &&
      d.finding.subject == some p.name

/-- The same test on the key of a diagnostic. -/
def isTypeKey (p : Parameter) (k : Key) : Bool :=
  (k.1 == .typeMismatch || k.1 == .typeDocMissing) && k.2.2 == some p.name

variable {signature : Signature} {fields : List Field} {settings : Settings} {p : Parameter}

/-- The remarks about the type of a parameter are the one comparison of its types. -/
theorem filter_types_parameters (h : signature.IsRegular) (hp : p ∈ signature.expected) :
    (Analysis.parameters signature.expected (fields.filter isUsable)).filter
        (fun r => isTypeKey p (r.finding.category, r.finding.field, r.finding.subject))
      = (if isDocumented signature.expected fields p then
          typeFinding p.name p.declaredType (firstType signature.expected fields p)
        else none).toList.map fun f => ⟨f, some p.position⟩ := by
  rw [Analysis.parameters, List.filter_filterMap, filterMap_eq_toList h.nodup_expected hp]
  · rw [parameterFinding_eq h hp]
    by_cases hdocumented : isDocumented signature.expected fields p = true
    · rw [if_pos hdocumented, if_pos hdocumented]
      rcases hf : typeFinding p.name p.declaredType (firstType signature.expected fields p)
        with _ | f
      · rfl
      · have hsubject := subject_of_typeFinding hf
        rcases category_of_typeFinding hf with hc | hc <;>
          simp [Option.filter, isTypeKey, hc, hsubject]
    · simp [hdocumented, Option.filter, isTypeKey, Finding.category]
  · intro q hq hne
    rw [Option.filter_eq_none_iff]
    intro r hr
    obtain ⟨f, hf, rfl⟩ := Option.map_eq_some_iff.mp hr
    have hname : q.name ≠ p.name := fun hsame =>
      hne (List.inj_on_of_nodup_map h.nodup_expected_names hq hp hsame)
    simp [isTypeKey, subject_of_parameterFinding hf, hname]

/-- **The reports about the type of a parameter**: the comparison of its types, if the parameter is
documented. -/
theorem typeReports_eq (h : signature.IsRegular) (hp : p ∈ signature.expected)
    (hmismatch : settings.reports .typeMismatch = true)
    (hmissing : settings.reports .typeDocMissing = true) :
    typeReports p (analyze signature (some fields) settings)
      = (if isDocumented signature.expected fields p then
          typeFinding p.name p.declaredType (firstType signature.expected fields p)
        else none).toList.map fun f =>
          .ofFinding f signature.qualifiedName signature.location (some p.position) := by
  have hsection : ∀ k : Key, isTypeKey p k = true → sectionOf k.1 = some .parameters := by
    intro k hk
    simp only [isTypeKey, Bool.and_eq_true, Bool.or_eq_true, beq_iff_eq] at hk
    rcases hk.1 with hc | hc <;> rw [hc] <;> rfl
  have hfilter : typeReports p (analyze signature (some fields) settings)
      = (analyze signature (some fields) settings).filter fun d => isTypeKey p d.key := rfl
  rw [hfilter, filter_analyze _ hsection, remarksOf, filter_types_parameters h hp, List.map_map]
  split
  · rcases hf : typeFinding p.name p.declaredType (firstType signature.expected fields p) with _ | f
    · exact finish_nil settings
    · have hc := category_of_typeFinding hf
      have hdiagnostic : Remark.diagnostic signature settings ⟨f, some p.position⟩
          = .ofFinding f signature.qualifiedName signature.location (some p.position) :=
        Remark.diagnostic_eq_ofFinding signature settings (by
          rcases hc with hc | hc <;> rw [hc] <;> decide)
      have hreports : settings.reports f.category = true := by
        rcases hc with hc | hc <;> rw [hc] <;> assumption
      refine finish_eq_singleton hreports (List.cons_ne_nil _ _) fun d hd => ?_
      exact (List.mem_singleton.mp hd).trans hdiagnostic
  · exact finish_nil settings

/-! ## The rules -/

/-- **The rules for the type of a documented parameter**: which of its declared and documented type
are there decides what is reported, at most once and at the position of the parameter. -/
structure TypesCompared (p : Parameter) (documented : Option String) (reports : List Diagnostic) :
    Prop where
  at_most_one : reports.length ≤ 1
  position_eq : ∀ d ∈ reports, d.position = some p.position
  mismatch_iff : (∃ d ∈ reports, d.category = .typeMismatch) ↔
    ∃ D T, p.declaredType = some D ∧ documented = some T ∧ TypeExpr.parse D ≠ TypeExpr.parse T
  /-- A mismatch never shows the same text twice. -/
  mismatch_texts : ∀ d ∈ reports, d.category = .typeMismatch →
    ∃ D T, p.declaredType = some D ∧ documented = some T ∧
      d.finding = .typeMismatch p.name (normalType D) (normalType T) ∧ normalType D ≠ normalType T
  missing_iff : (∃ d ∈ reports, d.category = .typeDocMissing) ↔
    p.declaredType.isSome ≠ documented.isSome
  missing_texts : ∀ d ∈ reports, d.category = .typeDocMissing →
    d.finding = .typeOnOneSide p.name (p.declaredType.map normalType) (documented.map normalType)

theorem parse_eq_of_normalType_eq {d t : String} (h : normalType d = normalType t) :
    TypeExpr.parse d = TypeExpr.parse t := by
  rw [TypeExpr.parse, TypeExpr.parse, String.ofList_injective h]

namespace TypesCompared

variable {documented : Option String} {function : String} {location : Location}

theorem nothing (hsides : p.declaredType.isSome = documented.isSome)
    (hsame : ∀ D T, p.declaredType = some D → documented = some T →
      TypeExpr.parse D = TypeExpr.parse T) : TypesCompared p documented [] where
  at_most_one := Nat.zero_le 1
  position_eq _ hd := absurd hd List.not_mem_nil
  mismatch_iff := by
    refine ⟨fun ⟨d, hd, _⟩ => absurd hd List.not_mem_nil, ?_⟩
    rintro ⟨D, T, hD, hT, hne⟩
    exact absurd (hsame D T hD hT) hne
  mismatch_texts _ hd := absurd hd List.not_mem_nil
  missing_iff := ⟨fun ⟨d, hd, _⟩ => absurd hd List.not_mem_nil, fun hne => absurd hsides hne⟩
  missing_texts _ hd := absurd hd List.not_mem_nil

theorem oneSide (hsides : p.declaredType.isSome ≠ documented.isSome) :
    TypesCompared p documented
      [.ofFinding (.typeOnOneSide p.name (p.declaredType.map normalType)
        (documented.map normalType)) function location (some p.position)] where
  at_most_one := Nat.le_refl 1
  position_eq d hd := by rw [List.mem_singleton.mp hd]; rfl
  mismatch_iff := by
    constructor
    · rintro ⟨d, hd, hc⟩
      rw [List.mem_singleton.mp hd] at hc
      cases hc
    · rintro ⟨D, T, hD, hT, -⟩
      rw [hD, hT] at hsides
      exact absurd rfl hsides
  mismatch_texts d hd hc := by
    rw [List.mem_singleton.mp hd] at hc
    cases hc
  missing_iff := ⟨fun _ => hsides, fun _ => ⟨_, List.mem_singleton_self _, rfl⟩⟩
  missing_texts d hd _ := by rw [List.mem_singleton.mp hd]; rfl

theorem mismatch {D T : String} (hD : p.declaredType = some D) (hT : documented = some T)
    (hne : TypeExpr.parse D ≠ TypeExpr.parse T) :
    TypesCompared p documented
      [.ofFinding (.typeMismatch p.name (normalType D) (normalType T)) function location
        (some p.position)] where
  at_most_one := Nat.le_refl 1
  position_eq d hd := by rw [List.mem_singleton.mp hd]; rfl
  mismatch_iff := ⟨fun _ => ⟨D, T, hD, hT, hne⟩, fun _ => ⟨_, List.mem_singleton_self _, rfl⟩⟩
  mismatch_texts d hd _ := by
    rw [List.mem_singleton.mp hd]
    exact ⟨D, T, hD, hT, rfl, fun hsame => hne (parse_eq_of_normalType_eq hsame)⟩
  missing_iff := by
    constructor
    · rintro ⟨d, hd, hc⟩
      rw [List.mem_singleton.mp hd] at hc
      cases hc
    · intro hsides
      rw [hD, hT] at hsides
      exact absurd rfl hsides
  missing_texts d hd hc := by
    rw [List.mem_singleton.mp hd] at hc
    cases hc

end TypesCompared

/-- The comparison of the two types follows the rules. -/
theorem typesCompared_typeFinding (p : Parameter) (documented : Option String) (function : String)
    (location : Location) :
    TypesCompared p documented ((typeFinding p.name p.declaredType documented).toList.map fun f =>
      .ofFinding f function location (some p.position)) := by
  rcases hD : p.declaredType with _ | D <;> rcases documented with _ | T
  · exact .nothing (by rw [hD]) fun D T hD' => absurd (hD'.symm.trans hD) (Option.some_ne_none D)
  · have hside := @TypesCompared.oneSide p (some T) function location (by simp [hD])
    rwa [hD] at hside
  · have hside := @TypesCompared.oneSide p none function location (by simp [hD])
    rwa [hD] at hside
  · rw [typeFinding]
    split
    · rename_i hsame
      refine .nothing (by simp [hD]) fun D' T' hD' hT' => ?_
      obtain rfl := Option.some.inj (hD.symm.trans hD')
      obtain rfl := Option.some.inj hT'
      exact hsame
    · rename_i hne
      exact .mismatch hD rfl hne

end Analysis

open Analysis

/-- **Types are reported exactly** — for every expected parameter that is documented, its declared
type against the first type that its fields give; and nothing for the others. -/
theorem type_reports_exact {signature : Signature} (h : signature.IsRegular) (fields : List Field)
    (settings : Settings) (hmismatch : settings.ignores .typeMismatch = false)
    (hmissing : settings.ignores .typeDocMissing = false) {p : Parameter}
    (hp : p ∈ signature.expected) :
    (isDocumented signature.expected fields p = true →
      TypesCompared p (firstType signature.expected fields p)
        (typeReports p (analyze signature (some fields) settings))) ∧
    (isDocumented signature.expected fields p = false →
      typeReports p (analyze signature (some fields) settings) = []) := by
  have hreports := @typeReports_eq signature fields settings p h hp
    (reports_of_not_ignores hmismatch) (reports_of_not_ignores hmissing)
  refine ⟨fun hdocumented => ?_, fun hdocumented => ?_⟩
  · rw [hreports, if_pos hdocumented]
    exact typesCompared_typeFinding p _ _ _
  · rw [hreports, hdocumented]
    rfl

/-- A function with an annotated parameter and a variadic one. -/
def sampleTyped : Signature :=
  ((Signature.bare "f" ⟨⟨"a.py"⟩, 1⟩).withParameter
    { Parameter.plain "x" 0 with declaredType := some "List[ int ]" }).withParameter
    { Parameter.plain "args" 0 with kind := .variadicPositional }

/-- The first type of `x` that is not blank stands in the marker of a `:param:` field. -/
def sampleTypedFields : List Field :=
  [.typeOf "x" " ", .param "x" "X.", .inlineTypeOf "x" "str", .typeOf "x" "List[int]",
    .typeOf "*args" "int"]

theorem type_reports_sample :
    sampleTyped.IsRegular ∧
    (∃ d ∈ typeReports { Parameter.plain "x" 0 with declaredType := some "List[ int ]" }
        (analyze sampleTyped (some sampleTypedFields) {}), d.category = .typeMismatch) ∧
    typeReports { Parameter.plain "args" 1 with kind := .variadicPositional }
      (analyze sampleTyped (some sampleTypedFields) {}) = [] := by
  have hregular : sampleTyped.IsRegular := by
    refine ⟨fun i p hp => ?_, by decide⟩
    match i, hp with
    | 0, hp | 1, hp => cases hp; rfl
  have hexact := fun p hp => type_reports_exact hregular sampleTypedFields {} rfl rfl
    (p := p) hp
  refine ⟨hregular, ?_, (hexact _ (by decide)).2 (by decide)⟩
  refine ((hexact _ (by decide)).1 (by decide)).mismatch_iff.mpr
    ⟨"List[ int ]", "str", rfl, by decide, ?_⟩
  have hdeclared : TypeExpr.parse "List[ int ]" = ⟨"List[int]", false⟩ :=
    TypeExpr.ofNormal_of_not_optional (by decide) (by decide)
  have hdocumented : TypeExpr.parse "str" = ⟨"str", false⟩ :=
    TypeExpr.ofNormal_of_not_optional (by decide) (by decide)
  rw [hdeclared, hdocumented]
  decide

end DocAudit
