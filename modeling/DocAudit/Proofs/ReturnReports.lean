import DocAudit.Proofs.TypeReports

/-!
# Proofs/ReturnReports — what is reported about the return value

Three reports speak about the return value: its documentation is missing, its type is missing, or
its type is another one than declared.  Three facts decide them, and no parameter has a part in it:
whether the declared type promises a value (`PromisesValue`), which kinds of fields there are, and
what the first `:rtype:` field says that is not blank (`IsFirstRtype`).  A type that is there but
blank is neither missing nor compared.

Unlike the other sections this one reads every field, usable or not.  `return_reports_exact` states
the rules.
-/

namespace DocAudit

open Text Analysis Diagnostic

/-! ## What decides the reports -/

/-- The declared type is there, and it is not the type of `None`. -/
def PromisesValue (returnType : Option String) : Prop :=
  ∃ R, returnType = some R ∧ TypeExpr.parse R ≠ ⟨"None", false⟩

/-- The text is the body of the first `:rtype:` field with a body that is not blank, trimmed. -/
def IsFirstRtype (fields : List Field) (B : String) : Prop :=
  ∃ before f after, fields = before ++ f :: after ∧
    (f.kind = .rtype ∧ isBlank f.body.toList = false) ∧
    (∀ g ∈ before, g.kind = .rtype → isBlank g.body.toList = true) ∧
    B = String.ofList (trim f.body.toList)

namespace Analysis

variable {returnType : Option String} {fields : List Field} {settings : Settings}

theorem promisesValue_iff : PromisesValue returnType ↔ returnsNothing returnType = false := by
  rcases returnType with _ | R
  · simp [PromisesValue, returnsNothing]
  · rcases hparse : TypeExpr.parse R with ⟨base, nullable⟩
    simp [PromisesValue, returnsNothing, hparse, TypeExpr.isNone]

end Analysis

instance (returnType : Option String) : Decidable (PromisesValue returnType) :=
  decidable_of_iff _ promisesValue_iff.symm

namespace Analysis

variable {returnType : Option String} {fields : List Field} {settings : Settings}

/-- The analysis compares with the first type that is not blank. -/
theorem documentedRtype_eq_some_iff {B : String} :
    documentedRtype fields = some B ↔ IsFirstRtype fields B := by
  rw [documentedRtype, fieldsOf, List.find?_filter, Option.map_eq_some_iff]
  simp only [List.find?_eq_some_iff_append, IsFirstRtype, hasBlankBody]
  constructor
  · rintro ⟨f, ⟨hf, before, after, hfields, hbefore⟩, rfl⟩
    refine ⟨before, f, after, hfields, by simpa using hf, fun g hg hkind => ?_, rfl⟩
    simpa [hkind] using hbefore g hg
  · rintro ⟨before, f, after, hfields, hf, hbefore, rfl⟩
    refine ⟨f, ⟨by simpa using hf, before, after, hfields, fun g hg => ?_⟩, rfl⟩
    simpa [imp_iff_not_or] using hbefore g hg

theorem hasKind_eq_false_iff {kind : FieldKind} :
    hasKind kind fields = false ↔ ∀ f ∈ fields, f.kind ≠ kind := by
  simp [hasKind]

theorem lacksReturns_iff : lacksReturns returnType fields = true ↔
    PromisesValue returnType ∧ ∀ f ∈ fields, f.kind ≠ .returns := by
  rw [lacksReturns, Bool.and_eq_true, Bool.not_eq_true', Bool.not_eq_true', promisesValue_iff,
    hasKind_eq_false_iff]

theorem lacksRtype_iff : lacksRtype returnType fields settings = true ↔
    (∀ f ∈ fields, f.kind ≠ .rtype) ∧ returnType.isSome = true ∧
      (PromisesValue returnType ∨ settings.requireRtypeForNone = true) := by
  have hdeclared : PromisesValue returnType → returnType.isSome = true := by
    rintro ⟨R, rfl, -⟩
    rfl
  rw [lacksRtype, Bool.and_eq_true, Bool.or_eq_true, Bool.and_eq_true, Bool.not_eq_true',
    Bool.not_eq_true', ← promisesValue_iff, hasKind_eq_false_iff]
  grind

theorem rtypeFinding_eq_some_iff {declared documented : Option String} {f : Finding} :
    rtypeFinding declared documented = some f ↔
      ∃ R B, declared = some R ∧ documented = some B ∧ TypeExpr.parse R ≠ TypeExpr.parse B ∧
        f = .rtypeMismatch (normalType R) (normalType B) := by
  rcases declared with _ | R <;> rcases documented with _ | B
  · simp [rtypeFinding]
  · simp [rtypeFinding]
  · simp [rtypeFinding]
  · simp [rtypeFinding, eq_comm]

/-! ## The reports -/

/-- The diagnostics of the category. -/
def reportsOf (c : Category) (ds : List Diagnostic) : List Diagnostic :=
  ds.filter fun d => decide (d.category = c)

variable {signature : Signature}

/-- Where the section lists at most one remark of a category, there is at most one report. -/
theorem reportsOf_eq_ite {c : Category} (hc : sectionOf c = some .returns)
    (hreports : settings.ignores c = false) {r : Remark} (hr : r.finding.category = c) {P : Prop}
    [Decidable P]
    (hcopies : ∀ x, (x ∈ returns signature.returnType fields settings ∧ x.finding.category = c) ↔
      P ∧ x = r) :
    reportsOf c (analyze signature (some fields) settings)
      = if P then [r.diagnostic signature settings] else [] := by
  have hsection : ∀ k : Key, decide (k.1 = c) = true → sectionOf k.1 = some .returns :=
    fun k hk => by rw [of_decide_eq_true hk, hc]
  refine filter_analyze_eq_ite_diagnostic hsection ?_ fun x => ?_
  · rw [hr]
    exact reports_of_not_ignores hreports
  · rw [decide_eq_true_eq]
    exact hcopies x

theorem reportsOf_missingReturn (hreports : settings.ignores .missingReturnDoc = false) :
    reportsOf .missingReturnDoc (analyze signature (some fields) settings)
      = if PromisesValue signature.returnType ∧ ∀ f ∈ fields, f.kind ≠ .returns then
          [.ofFinding .missingReturn signature.qualifiedName signature.location none]
        else [] := by
  refine reportsOf_eq_ite (r := ⟨.missingReturn, none⟩) rfl hreports rfl fun x => ?_
  rw [mem_returns_iff, ← lacksReturns_iff]
  constructor
  · rintro ⟨⟨hlacks, rfl⟩ | ⟨-, rfl⟩ | ⟨f, hf, rfl⟩, hcategory⟩
    · exact ⟨hlacks, rfl⟩
    · cases hcategory
    · rw [category_of_rtypeFinding hf] at hcategory
      cases hcategory
  · rintro ⟨hlacks, rfl⟩
    exact ⟨.inl ⟨hlacks, rfl⟩, rfl⟩

theorem reportsOf_missingRtype (hreports : settings.ignores .missingRtypeDoc = false) :
    reportsOf .missingRtypeDoc (analyze signature (some fields) settings)
      = if (∀ f ∈ fields, f.kind ≠ .rtype) ∧ signature.returnType.isSome = true ∧
            (PromisesValue signature.returnType ∨ settings.requireRtypeForNone = true) then
          [{ Diagnostic.ofFinding .missingRtype signature.qualifiedName signature.location none with
              severity := settings.missingRtypeSeverity }]
        else [] := by
  refine reportsOf_eq_ite (r := ⟨.missingRtype, none⟩) rfl hreports rfl fun x => ?_
  rw [mem_returns_iff, ← lacksRtype_iff]
  constructor
  · rintro ⟨⟨-, rfl⟩ | ⟨hlacks, rfl⟩ | ⟨f, hf, rfl⟩, hcategory⟩
    · cases hcategory
    · exact ⟨hlacks, rfl⟩
    · rw [category_of_rtypeFinding hf] at hcategory
      cases hcategory
  · rintro ⟨hlacks, rfl⟩
    exact ⟨.inr (.inl ⟨hlacks, rfl⟩), rfl⟩

/-- The remarks about a mismatch are what the comparison of the two types finds. -/
theorem mem_mismatch_iff {x : Remark} :
    (x ∈ returns signature.returnType fields settings ∧ x.finding.category = .rtypeMismatch) ↔
      ∃ R B, signature.returnType = some R ∧ IsFirstRtype fields B ∧
        TypeExpr.parse R ≠ TypeExpr.parse B ∧
        x = ⟨.rtypeMismatch (normalType R) (normalType B), none⟩ := by
  rw [mem_returns_iff]
  constructor
  · rintro ⟨⟨-, rfl⟩ | ⟨-, rfl⟩ | ⟨f, hf, rfl⟩, hcategory⟩
    · cases hcategory
    · cases hcategory
    · obtain ⟨R, B, hR, hB, hne, rfl⟩ := rtypeFinding_eq_some_iff.mp hf
      exact ⟨R, B, hR, documentedRtype_eq_some_iff.mp hB, hne, rfl⟩
  · rintro ⟨R, B, hR, hB, hne, rfl⟩
    refine ⟨.inr (.inr ⟨_, rtypeFinding_eq_some_iff.mpr ?_, rfl⟩), rfl⟩
    exact ⟨R, B, hR, documentedRtype_eq_some_iff.mpr hB, hne, rfl⟩

theorem isFirstRtype_unique {B B' : String} (h : IsFirstRtype fields B)
    (h' : IsFirstRtype fields B') : B = B' := by
  rw [← documentedRtype_eq_some_iff] at h h'
  exact Option.some.inj (h.symm.trans h')

theorem reportsOf_rtypeMismatch (hreports : settings.ignores .rtypeMismatch = false) {R B : String}
    (hR : signature.returnType = some R) (hB : IsFirstRtype fields B) :
    reportsOf .rtypeMismatch (analyze signature (some fields) settings)
      = if TypeExpr.parse R ≠ TypeExpr.parse B then
          [.ofFinding (.rtypeMismatch (normalType R) (normalType B)) signature.qualifiedName
            signature.location none]
        else [] := by
  refine reportsOf_eq_ite (r := ⟨.rtypeMismatch (normalType R) (normalType B), none⟩) rfl hreports
    rfl fun x => ?_
  rw [mem_mismatch_iff]
  constructor
  · rintro ⟨R', B', hR', hB', hne, rfl⟩
    obtain rfl := Option.some.inj (hR.symm.trans hR')
    obtain rfl := isFirstRtype_unique hB hB'
    exact ⟨hne, rfl⟩
  · rintro ⟨hne, rfl⟩
    exact ⟨R, B, hR, hB, hne, rfl⟩

theorem reportsOf_rtypeMismatch_eq_nil (hreports : settings.ignores .rtypeMismatch = false)
    (h : ∀ R B, signature.returnType = some R → ¬IsFirstRtype fields B) :
    reportsOf .rtypeMismatch (analyze signature (some fields) settings) = [] := by
  refine (reportsOf_eq_ite (r := ⟨.rtypeMismatch "" "", none⟩) (P := False) rfl hreports rfl
    fun x => ?_).trans (if_neg id)
  rw [mem_mismatch_iff, false_and, iff_false]
  rintro ⟨R, B, hR, hB, -⟩
  exact h R B hR hB

end Analysis

/-- **The rules for the return value** of a function with the given fields. -/
structure ReturnsJudged (signature : Signature) (fields : List Field) (settings : Settings)
    (ds : List Diagnostic) : Prop where
  missing_return : reportsOf .missingReturnDoc ds
    = if PromisesValue signature.returnType ∧ ∀ f ∈ fields, f.kind ≠ .returns then
        [.ofFinding .missingReturn signature.qualifiedName signature.location none]
      else []
  /-- The settings decide how much a missing type weighs, and whether `None` is one. -/
  missing_rtype : reportsOf .missingRtypeDoc ds
    = if (∀ f ∈ fields, f.kind ≠ .rtype) ∧ signature.returnType.isSome = true ∧
          (PromisesValue signature.returnType ∨ settings.requireRtypeForNone = true) then
        [{ Diagnostic.ofFinding .missingRtype signature.qualifiedName signature.location none with
            severity := settings.missingRtypeSeverity }]
      else []
  mismatch : ∀ R B, signature.returnType = some R → IsFirstRtype fields B →
    reportsOf .rtypeMismatch ds
      = if TypeExpr.parse R ≠ TypeExpr.parse B then
          [.ofFinding (.rtypeMismatch (normalType R) (normalType B)) signature.qualifiedName
            signature.location none]
        else []
  /-- A mismatch never shows the same text twice. -/
  mismatch_texts : ∀ R B, TypeExpr.parse R ≠ TypeExpr.parse B → normalType R ≠ normalType B
  no_comparison : (∀ R B, signature.returnType = some R → ¬IsFirstRtype fields B) →
    reportsOf .rtypeMismatch ds = []
  /-- A type is not missing and wrong at the same time. -/
  not_both : reportsOf .missingRtypeDoc ds = [] ∨ reportsOf .rtypeMismatch ds = []
  undeclared : signature.returnType = none →
    reportsOf .missingReturnDoc ds = [] ∧ reportsOf .missingRtypeDoc ds = [] ∧
      reportsOf .rtypeMismatch ds = []

/-- **The return value is reported exactly** — each of the three reports once or not at all, as the
rules say, whatever else the fields hold. -/
theorem return_reports_exact (signature : Signature) (fields : List Field) (settings : Settings)
    (hreturn : settings.ignores .missingReturnDoc = false)
    (hrtype : settings.ignores .missingRtypeDoc = false)
    (hmismatch : settings.ignores .rtypeMismatch = false) :
    ReturnsJudged signature fields settings (analyze signature (some fields) settings) where
  missing_return := reportsOf_missingReturn hreturn
  missing_rtype := reportsOf_missingRtype hrtype
  mismatch _ _ := reportsOf_rtypeMismatch hmismatch
  mismatch_texts _ _ hne hsame := hne (parse_eq_of_normalType_eq hsame)
  no_comparison := reportsOf_rtypeMismatch_eq_nil hmismatch
  not_both := by
    rw [reportsOf_missingRtype hrtype]
    split
    · rename_i hmissing
      -- Without an `:rtype:` field there is nothing to compare with.
      refine .inr (reportsOf_rtypeMismatch_eq_nil hmismatch fun R B _ hB => ?_)
      obtain ⟨before, f, after, rfl, ⟨hkind, -⟩, -⟩ := hB
      exact hmissing.1 f (by simp) hkind
    · exact .inl rfl
  undeclared hnone := by
    have hnothing : ¬PromisesValue signature.returnType := by
      rintro ⟨R, hR, -⟩
      rw [hnone] at hR
      cases hR
    refine ⟨?_, ?_, reportsOf_rtypeMismatch_eq_nil hmismatch fun R B hR => ?_⟩
    · rw [reportsOf_missingReturn hreturn, if_neg fun h => hnothing h.1]
    · rw [reportsOf_missingRtype hrtype, if_neg]
      rintro ⟨-, hsome, -⟩
      rw [hnone] at hsome
      cases hsome
    · rw [hnone] at hR
      cases hR

/-- A function that is declared to return a number. -/
def sampleReturning : Signature :=
  { Signature.bare "f" ⟨⟨"a.py"⟩, 1⟩ with returnType := some "int" }

/-- A function that is declared to return nothing. -/
def sampleReturningNone : Signature :=
  { Signature.bare "g" ⟨⟨"a.py"⟩, 5⟩ with returnType := some " None " }

/-- The first type that is not blank is the second one. -/
def sampleReturnTypes : List Field :=
  [.rtype " ", .rtype " str ", .rtype "int"]

/-- Settings that ask for the type of a function that returns nothing, and care little about it. -/
def sampleDemanding : Settings :=
  { requireRtypeForNone := true, missingRtypeSeverity := .info }

theorem return_reports_sample :
    reportsOf .missingReturnDoc (analyze sampleReturning (some sampleReturnTypes) {})
      = [.ofFinding .missingReturn "f" ⟨⟨"a.py"⟩, 1⟩ none] ∧
    reportsOf .missingRtypeDoc (analyze sampleReturning (some sampleReturnTypes) {}) = [] ∧
    reportsOf .rtypeMismatch (analyze sampleReturning (some sampleReturnTypes) {})
      = [.ofFinding (.rtypeMismatch "int" "str") "f" ⟨⟨"a.py"⟩, 1⟩ none] ∧
    reportsOf .missingReturnDoc (analyze sampleReturningNone (some []) sampleDemanding) = [] ∧
    reportsOf .missingRtypeDoc (analyze sampleReturningNone (some []) sampleDemanding)
      = [{ Diagnostic.ofFinding .missingRtype "g" ⟨⟨"a.py"⟩, 5⟩ none with severity := .info }] := by
  have hint : TypeExpr.parse "int" = ⟨"int", false⟩ :=
    TypeExpr.ofNormal_of_not_optional (by decide) (by decide)
  have hstr : TypeExpr.parse "str" = ⟨"str", false⟩ :=
    TypeExpr.ofNormal_of_not_optional (by decide) (by decide)
  have hnone : TypeExpr.parse " None " = ⟨"None", false⟩ :=
    TypeExpr.ofNormal_of_not_optional (by decide) (by decide)
  have hvalue : PromisesValue (some "int") := ⟨"int", rfl, by rw [hint]; decide⟩
  have hnothing : ¬PromisesValue (some " None ") := by
    rintro ⟨R, ⟨⟩, hR⟩
    exact hR hnone
  have hfirst : IsFirstRtype sampleReturnTypes "str" :=
    ⟨[.rtype " "], .rtype " str ", [.rtype "int"], rfl, by decide, by decide, by decide⟩
  have hjudged := return_reports_exact sampleReturning sampleReturnTypes {} rfl rfl rfl
  have hjudged' := return_reports_exact sampleReturningNone [] sampleDemanding rfl rfl rfl
  refine ⟨?_, ?_, ?_, ?_, ?_⟩
  · exact hjudged.missing_return.trans (if_pos ⟨hvalue, by decide⟩)
  · exact hjudged.missing_rtype.trans (if_neg fun h => h.1 (.rtype "int") (by decide) rfl)
  · refine (hjudged.mismatch "int" "str" rfl hfirst).trans (if_pos ?_)
    rw [hint, hstr]
    decide
  · exact hjudged'.missing_return.trans (if_neg fun h => hnothing h.1)
  · exact hjudged'.missing_rtype.trans (if_pos ⟨by decide, rfl, .inr rfl⟩)

end DocAudit
