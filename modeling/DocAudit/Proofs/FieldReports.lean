import DocAudit.Proofs.ParameterReports

/-!
# Proofs/FieldReports — which fields are reported as repeated or malformed

A field repeats another if both have the same kind and speak about the same thing: its canonical
subject (`HasCanonicalSubject`) is the name of the parameter that its subject resolves to, and the
subject as it is written where there is none.  Counting these fields (`occurrences`) decides the
reports about repetitions.

Malformed fields are reported by the subject as it is written.  Either the subject is no name
(`LacksName`) or it is one and the body is blank (`LacksBody`).  These exclude each other, so the
key of such a report gives its reason away (`IsMalformed.reason_unique`), and no report is dropped
as a repetition of one with another reason.
-/

namespace DocAudit

open Text Subject Analysis Diagnostic

/-! ## What a field speaks about -/

/-- The field speaks about nothing, about the parameter that its subject resolves to, or about what
its subject says.  Only `:param:` and `:type:` fields speak about parameters. -/
inductive HasCanonicalSubject (expected : List Parameter) (f : Field) : Option String → Prop
  | absent (hsubject : f.subject = none) : HasCanonicalSubject expected f none
  | resolved {t : String} {p : Parameter} (hsubject : f.subject = some t)
      (hkind : f.kind = .param ∨ f.kind = .type) (hp : resolve? expected t = some p) :
      HasCanonicalSubject expected f (some p.name)
  | written {t : String} (hsubject : f.subject = some t)
      (hnone : f.kind = .param ∨ f.kind = .type → resolve? expected t = none) :
      HasCanonicalSubject expected f (some t)

/-- The field counts as one of the kind about the canonical subject.  Inline types never count, nor
do `:param:` and `:type:` fields whose subject is no name. -/
structure CountsAs (expected : List Parameter) (k : FieldKind) (s : Option String) (f : Field) :
    Prop where
  known : k ≠ .other ∧ k ≠ .parseError
  kind_eq : f.kind = k
  not_inline : f.isInline = false
  named : k = .param ∨ k = .type → f.subject.any isIdentifierLike = true
  subject : HasCanonicalSubject expected f s

/-- A `:param:` or `:type:` field about a parameter speaks about its name. -/
theorem HasCanonicalSubject.eq_name {expected : List Parameter} {f : Field} {s : Option String}
    (h : HasCanonicalSubject expected f s) {k : FieldKind} (hkind : k = .param ∨ k = .type)
    {p : Parameter} (hp : f.isAbout expected k p = true) : s = some p.name := by
  obtain ⟨rfl, t, ht, -, hresolve⟩ := Field.isAbout_iff.mp hp
  match h with
  | .absent hsubject => exact absurd (ht.symm.trans hsubject) nofun
  | .resolved hsubject _ hq =>
    obtain rfl := Option.some.inj (ht.symm.trans hsubject)
    rw [Option.some.inj (hresolve.symm.trans hq)]
  | .written hsubject hnone =>
    obtain rfl := Option.some.inj (ht.symm.trans hsubject)
    exact absurd (hresolve.symm.trans (hnone hkind)) nofun

namespace Analysis

variable {expected : List Parameter} {fields : List Field} {k : FieldKind} {s : Option String}
  {f : Field}

theorem requiresSubject_iff : k.requiresSubject = true ↔ k = .param ∨ k = .type := by
  cases k <;> simp [FieldKind.requiresSubject]

theorem isKnown_iff : isKnown f = true ↔ f.kind ≠ .other ∧ f.kind ≠ .parseError := by
  simp [isKnown]

theorem hasSubject_iff : hasSubject f = true ↔
    (f.kind = .param ∨ f.kind = .type → f.subject.any isIdentifierLike = true) := by
  have hlike : isIdentifierLike (f.subject.getD "") = f.subject.any isIdentifierLike := by
    match f.subject with
    | none => rfl
    | some t => rfl
  rw [hasSubject, hlike, ← requiresSubject_iff, Bool.or_eq_true, Bool.not_eq_true',
    ← Bool.not_eq_true, imp_iff_not_or]

theorem canonicalSubject_eq_iff :
    canonicalSubject expected f = s ↔ HasCanonicalSubject expected f s := by
  constructor
  · rintro rfl
    match hsubject : f.subject with
    | none =>
      rw [canonicalSubject, hsubject]
      exact .absent hsubject
    | some t =>
      rw [canonicalSubject, hsubject, Option.map_some]
      split
      · rename_i hkind
        match hp : resolve? expected t with
        | some p => exact .resolved hsubject (requiresSubject_iff.mp hkind) hp
        | none => exact .written hsubject fun _ => hp
      · rename_i hkind
        exact .written hsubject fun h => absurd (requiresSubject_iff.mpr h) hkind
  · intro h
    match h with
    | .absent hsubject => rw [canonicalSubject, hsubject]; rfl
    | .resolved hsubject hkind hp =>
      simp [canonicalSubject, hsubject, requiresSubject_iff.mpr hkind, hp]
    | .written hsubject hnone =>
      by_cases hkind : f.kind.requiresSubject = true
      · simp [canonicalSubject, hsubject, hkind, hnone (requiresSubject_iff.mp hkind)]
      · simp [canonicalSubject, hsubject, hkind]

/-- A field counts iff it is usable, not inline and has the key. -/
theorem countsAs_iff : CountsAs expected k s f ↔
    fieldKey expected f = (k, s) ∧ f.isInline = false ∧ isUsable f = true := by
  rw [isUsable, Bool.and_eq_true, isKnown_iff, hasSubject_iff, fieldKey, Prod.mk.injEq,
    canonicalSubject_eq_iff]
  constructor
  · rintro ⟨hknown, rfl, hinline, hnamed, hsubject⟩
    exact ⟨⟨rfl, hsubject⟩, hinline, hknown, hnamed⟩
  · rintro ⟨⟨rfl, hsubject⟩, hinline, hknown, hnamed⟩
    exact ⟨hknown, rfl, hinline, hnamed, hsubject⟩

end Analysis

instance (expected : List Parameter) (k : FieldKind) (s : Option String) (f : Field) :
    Decidable (CountsAs expected k s f) :=
  decidable_of_iff _ countsAs_iff.symm

/-- How many fields count as fields of the kind about the canonical subject. -/
def occurrences (expected : List Parameter) (fields : List Field) (k : FieldKind)
    (s : Option String) : Nat :=
  fields.countP fun f => decide (CountsAs expected k s f)

namespace Analysis

variable {expected : List Parameter} {fields : List Field} {k : FieldKind} {s : Option String}
  {signature : Signature} {settings : Settings}

/-! ## Repeated fields -/

theorem count_fieldKey (key : FieldKind × Option String) :
    (((fields.filter isUsable).filter fun f => !f.isInline).map (fieldKey expected)).count key
      = occurrences expected fields key.1 key.2 := by
  rw [List.count, List.countP_map, List.countP_filter, List.countP_filter]
  refine List.countP_congr fun f _ => ?_
  simp [countsAs_iff, and_assoc]

/-- The keys that at least two fields have are listed. -/
theorem mem_duplicates_iff {r : Remark} : r ∈ duplicates expected (fields.filter isUsable) ↔
    ∃ k s, 2 ≤ occurrences expected fields k s ∧
      r = ⟨.duplicateField k s, keyPosition expected (k, s)⟩ := by
  simp only [duplicates, List.mem_map, List.mem_filter, decide_eq_true_eq, count_fieldKey]
  constructor
  · rintro ⟨key, ⟨-, hcount⟩, rfl⟩
    exact ⟨key.1, key.2, hcount, rfl⟩
  · rintro ⟨k, s, hcount, rfl⟩
    refine ⟨(k, s), ⟨?_, hcount⟩, rfl⟩
    have hmem : (k, s) ∈
        ((fields.filter isUsable).filter fun f => !f.isInline).map (fieldKey expected) := by
      rw [← List.count_pos_iff, count_fieldKey]
      exact Nat.lt_of_lt_of_le Nat.zero_lt_two hcount
    simpa using (mem_map_firstsBy id).mpr (List.mem_map_of_mem (f := id) hmem)

/-- The report that a kind of field about a subject is repeated, at the position of the parameter
that the subject of a `:param:` or `:type:` field resolves to. -/
def duplicateDiagnostic (signature : Signature) (k : FieldKind) (s : Option String) : Diagnostic :=
  .ofFinding (.duplicateField k s) signature.qualifiedName signature.location
    (if k = .param ∨ k = .type then (s.bind (resolve? signature.expected)).map Parameter.position
      else none)

/-- A repetition is known by its key. -/
theorem eq_duplicateField_iff {f : Finding} :
    f = .duplicateField k s ↔
      (f.category, f.field, f.subject) = (.duplicateFieldDoc, some k, s) := by
  cases f <;> simp [Finding.category, Finding.field, Finding.subject]

/-- **A repetition is reported once, and nothing else as one.** -/
theorem filter_duplicate_analyze (hreports : settings.reports .duplicateFieldDoc = true)
    (k : FieldKind) (s : Option String) :
    (analyze signature (some fields) settings).filter
        (fun d => decide (d.finding = .duplicateField k s))
      = if 2 ≤ occurrences signature.expected fields k s then [duplicateDiagnostic signature k s]
        else [] := by
  have hposition : keyPosition signature.expected (k, s)
      = (duplicateDiagnostic signature k s).position :=
    if_congr requiresSubject_iff rfl rfl
  rw [filter_finding_analyze fun f => eq_duplicateField_iff]
  refine filter_analyze_eq_ite
    (r := ⟨.duplicateField k s, (duplicateDiagnostic signature k s).position⟩)
    (sectionOf_of_eq rfl) hreports nofun fun r => ?_
  rw [remarksOf, mem_duplicates_iff, decide_eq_true_iff, ← eq_duplicateField_iff, ← hposition]
  constructor
  · rintro ⟨⟨k', s', hcount, rfl⟩, hsame⟩
    obtain ⟨rfl, rfl⟩ := Finding.duplicateField.inj hsame
    exact ⟨hcount, rfl⟩
  · rintro ⟨hcount, rfl⟩
    exact ⟨⟨k, s, hcount, rfl⟩, rfl⟩

/-! ## Malformed fields -/

/-- The field is a `:param:` or `:type:` field whose subject is no name; `s` is what it has for a
subject. -/
def LacksName (k : FieldKind) (s : Option String) (f : Field) : Prop :=
  f.kind = k ∧ (k = .param ∨ k = .type) ∧ f.subject.any isIdentifierLike = false ∧
    s = f.subject.filter (· ≠ "")

/-- The field of the kind and subject has a blank body and needs one. -/
def LacksBody (k : FieldKind) (s : Option String) (f : Field) : Prop :=
  f.kind = k ∧ (k = .param ∨ k = .type ∨ k = .returns ∨ k = .rtype) ∧ f.subject = s ∧
    (k = .param ∨ k = .type → s.any isIdentifierLike = true) ∧ isBlank f.body.toList = true

instance (k : FieldKind) (s : Option String) (f : Field) : Decidable (LacksName k s f) :=
  inferInstanceAs (Decidable (_ ∧ _))

instance (k : FieldKind) (s : Option String) (f : Field) : Decidable (LacksBody k s f) :=
  inferInstanceAs (Decidable (_ ∧ _))

/-- Why the field is malformed. -/
inductive IsMalformed (k : FieldKind) (s : Option String) (f : Field) : String → Prop
  | noName (h : LacksName k s f) : IsMalformed k s f "expected a parameter name"
  | noBody (h : LacksBody k s f) : IsMalformed k s f "field body is empty"

variable {f : Field}

/-- The two reasons exclude each other, even in different fields. -/
theorem not_lacksBody_of_lacksName {g : Field} (hf : LacksName k s f) : ¬LacksBody k s g := by
  rintro ⟨-, -, -, hnamed, -⟩
  obtain ⟨-, hkind, hunnamed, rfl⟩ := hf
  obtain ⟨t, ht, hlike⟩ := (Option.any_eq_true _ _).mp (hnamed hkind)
  rw [(Option.filter_eq_some_iff.mp ht).1, Option.any_some, hlike] at hunnamed
  exact absurd hunnamed nofun

/-- **Kind and subject give the reason away.** -/
theorem IsMalformed.reason_unique {g : Field} {reason reason' : String}
    (hf : IsMalformed k s f reason) (hg : IsMalformed k s g reason') : reason = reason' := by
  match hf, hg with
  | .noName _, .noName _ => rfl
  | .noName hname, .noBody hbody => exact absurd hbody (not_lacksBody_of_lacksName hname)
  | .noBody hbody, .noName hname => exact absurd hbody (not_lacksBody_of_lacksName hname)
  | .noBody _, .noBody _ => rfl

theorem lacksName_iff : LacksName k s f ↔
    (k = f.kind ∧ s = f.subject.filter (· ≠ "")) ∧ isKnown f = true ∧ hasSubject f = false := by
  rw [← Bool.not_eq_true (hasSubject f), hasSubject_iff, isKnown_iff, LacksName]
  grind

theorem lacksBody_iff : LacksBody k s f ↔
    (k = f.kind ∧ s = f.subject) ∧ isKnown f = true ∧ hasSubject f = true ∧
      hasBlankBody f = true ∧ f.kind ≠ .raises := by
  rw [hasSubject_iff, isKnown_iff, LacksBody, hasBlankBody]
  cases hk : f.kind <;> grind

theorem mem_shapeOf_iff {r : Remark} : r ∈ shapeOf f ↔
    ∃ k s reason, IsMalformed k s f reason ∧ r = ⟨.malformedField k s reason, none⟩ := by
  constructor
  · intro hr
    unfold shapeOf at hr
    split at hr
    · exact absurd hr List.not_mem_nil
    rename_i hknown
    split at hr
    · rename_i hsubject
      refine ⟨_, _, _, .noName (lacksName_iff.mpr ⟨⟨rfl, rfl⟩, ?_⟩), List.mem_singleton.mp hr⟩
      exact ⟨by simpa using hknown, by simpa using hsubject⟩
    rename_i hsubject
    split at hr
    · rename_i hbody
      rw [Bool.and_eq_true, bne_iff_ne] at hbody
      refine ⟨_, _, _, .noBody (lacksBody_iff.mpr ⟨⟨rfl, rfl⟩, ?_⟩), List.mem_singleton.mp hr⟩
      exact ⟨by simpa using hknown, by simpa using hsubject, hbody⟩
    · exact absurd hr List.not_mem_nil
  · rintro ⟨k, s, reason, hmalformed, rfl⟩
    match hmalformed with
    | .noName hname =>
      obtain ⟨⟨rfl, rfl⟩, hknown, hsubject⟩ := lacksName_iff.mp hname
      simp [shapeOf, hknown, hsubject]
    | .noBody hbody =>
      obtain ⟨⟨rfl, rfl⟩, hknown, hsubject, hblank, hraises⟩ := lacksBody_iff.mp hbody
      simp [shapeOf, hknown, hsubject, hblank, hraises]

/-- The malformed fields are listed. -/
theorem mem_shapes_iff {r : Remark} : r ∈ shapes fields ↔
    ∃ k s reason, (∃ f ∈ fields, IsMalformed k s f reason) ∧
      r = ⟨.malformedField k s reason, none⟩ := by
  simp only [shapes, List.mem_flatMap, mem_shapeOf_iff]
  constructor
  · rintro ⟨f, hf, k, s, reason, hmalformed, rfl⟩
    exact ⟨k, s, reason, ⟨f, hf, hmalformed⟩, rfl⟩
  · rintro ⟨k, s, reason, ⟨f, hf, hmalformed⟩, rfl⟩
    exact ⟨f, hf, k, s, reason, hmalformed, rfl⟩

/-- The report that a field is malformed. -/
def malformedDiagnostic (signature : Signature) (k : FieldKind) (s : Option String)
    (reason : String) : Diagnostic :=
  .ofFinding (.malformedField k s reason) signature.qualifiedName signature.location none

/-- The reports about malformed fields of the kind and subject, whatever their reason. -/
def malformedReports (k : FieldKind) (s : Option String) (ds : List Diagnostic) :
    List Diagnostic :=
  ds.filter fun d => decide (d.key = (.malformedFieldDoc, some k, s))

/-- Where there is one reason at most, there is one report at most. -/
theorem malformedReports_eq_ite (hreports : settings.reports .malformedFieldDoc = true)
    {reason : String} {P : Prop} [Decidable P]
    (hreason : ∀ reason', (∃ f ∈ fields, IsMalformed k s f reason') ↔ P ∧ reason' = reason) :
    malformedReports k s (analyze signature (some fields) settings)
      = if P then [malformedDiagnostic signature k s reason] else [] := by
  refine filter_analyze_eq_ite (r := ⟨.malformedField k s reason, none⟩) (sectionOf_of_eq rfl)
    hreports nofun fun r => ?_
  rw [remarksOf, mem_shapes_iff, decide_eq_true_iff]
  constructor
  · rintro ⟨⟨k', s', reason', hmalformed, rfl⟩, hkey⟩
    obtain ⟨rfl, rfl⟩ : k' = k ∧ s' = s := by
      simpa [Finding.field, Finding.subject] using congrArg Prod.snd hkey
    obtain ⟨hP, rfl⟩ := (hreason reason').mp hmalformed
    exact ⟨hP, rfl⟩
  · rintro ⟨hP, rfl⟩
    exact ⟨⟨k, s, reason, (hreason reason).mpr ⟨hP, rfl⟩, rfl⟩, rfl⟩

/-- **Malformed fields are reported once for each kind and subject**, with their one reason. -/
theorem malformedReports_eq (hreports : settings.reports .malformedFieldDoc = true)
    (k : FieldKind) (s : Option String) :
    malformedReports k s (analyze signature (some fields) settings)
      = if ∃ f ∈ fields, LacksName k s f then
          [malformedDiagnostic signature k s "expected a parameter name"]
        else if ∃ f ∈ fields, LacksBody k s f then
          [malformedDiagnostic signature k s "field body is empty"]
        else [] := by
  split
  · rename_i hname
    obtain ⟨f, hf, hname⟩ := hname
    refine (malformedReports_eq_ite (P := True) hreports fun reason => ?_).trans (if_pos trivial)
    rw [true_and]
    refine ⟨fun ⟨g, _, hg⟩ => hg.reason_unique (.noName hname), ?_⟩
    rintro rfl
    exact ⟨f, hf, .noName hname⟩
  · rename_i hname
    refine malformedReports_eq_ite hreports fun reason => ?_
    constructor
    · rintro ⟨f, hf, hlacks | hlacks⟩
      · exact absurd ⟨f, hf, hlacks⟩ hname
      · exact ⟨⟨f, hf, hlacks⟩, rfl⟩
    · rintro ⟨⟨f, hf, hlacks⟩, rfl⟩
      exact ⟨f, hf, .noBody hlacks⟩

/-- The repetition of a field about a parameter has the position of that parameter. -/
theorem position_duplicateDiagnostic (h : signature.IsRegular)
    (hstars : ∀ p ∈ signature.parameters, p.name.toList.head? ≠ some '*')
    (hkind : k = .param ∨ k = .type) {p : Parameter} (hp : p ∈ signature.expected) :
    (duplicateDiagnostic signature k (some p.name)).position = some p.position := by
  have hresolve := resolve?_of_head? h.nodup_expected_names hp
    (hstars p (List.mem_filter.mp hp).1)
  rw [duplicateDiagnostic, Diagnostic.ofFinding, if_pos hkind, Option.bind_some, hresolve]
  rfl

end Analysis

open Analysis

/-- **Repeated and malformed fields are reported exactly.**  A kind and a canonical subject are
reported as repeated, once, if at least two fields count for them, and at the position of the
parameter where the fields are about one.  A kind and a subject are reported as malformed, once, if
some field has no name for a subject or if some field has a blank body; both at a time cannot be. -/
theorem repeated_and_malformed_exact {signature : Signature} (h : signature.IsRegular)
    (hstars : ∀ p ∈ signature.parameters, p.name.toList.head? ≠ some '*') (fields : List Field)
    (settings : Settings) (hduplicate : settings.ignores .duplicateFieldDoc = false)
    (hmalformed : settings.ignores .malformedFieldDoc = false) :
    (∀ k s, (analyze signature (some fields) settings).filter
        (fun d => decide (d.finding = .duplicateField k s))
      = if 2 ≤ occurrences signature.expected fields k s then [duplicateDiagnostic signature k s]
        else []) ∧
    (∀ k s f p, (k = .param ∨ k = .type) → CountsAs signature.expected k s f →
      f.isAbout signature.expected k p = true →
        s = some p.name ∧ (duplicateDiagnostic signature k s).position = some p.position) ∧
    (∀ k s, malformedReports k s (analyze signature (some fields) settings)
      = if ∃ f ∈ fields, LacksName k s f then
          [malformedDiagnostic signature k s "expected a parameter name"]
        else if ∃ f ∈ fields, LacksBody k s f then
          [malformedDiagnostic signature k s "field body is empty"]
        else []) ∧
    ∀ k s, ¬((∃ f ∈ fields, LacksName k s f) ∧ ∃ f ∈ fields, LacksBody k s f) := by
  refine ⟨filter_duplicate_analyze (reports_of_not_ignores hduplicate), ?_,
    malformedReports_eq (reports_of_not_ignores hmalformed), ?_⟩
  · intro k s f p hkind hcounts habout
    obtain rfl := hcounts.subject.eq_name hkind habout
    obtain ⟨-, t, -, -, hresolve⟩ := Field.isAbout_iff.mp habout
    exact ⟨rfl, position_duplicateDiagnostic h hstars hkind (mem_of_resolve? hresolve)⟩
  · rintro k s ⟨⟨f, -, hname⟩, g, -, hbody⟩
    exact not_lacksBody_of_lacksName hname hbody

/-- A variadic parameter under both its spellings, a type in a marker and one of its own, a repeated
exception, and subjects that are no names. -/
def sampleRepeated : List Field :=
  [.param "args" "A.", .param "*args" "B.", .inlineTypeOf "x" "int", .typeOf "x" " ",
    .raises "ValueError" "", .raises "ValueError" "", .param "not a name" "", .param "" "E."]

theorem repeated_and_malformed_sample :
    (sampleMethod.IsRegular ∧ ∀ p ∈ sampleMethod.parameters, p.name.toList.head? ≠ some '*') ∧
    (analyze sampleMethod (some sampleRepeated) {}).filter
        (fun d => decide (d.finding = .duplicateField .param (some "args")))
      = [.ofFinding (.duplicateField .param (some "args")) "A.f" ⟨⟨"a.py"⟩, 1⟩ (some 2)] ∧
    (analyze sampleMethod (some sampleRepeated) {}).filter
        (fun d => decide (d.finding = .duplicateField .raises (some "ValueError")))
      = [.ofFinding (.duplicateField .raises (some "ValueError")) "A.f" ⟨⟨"a.py"⟩, 1⟩ none] ∧
    (analyze sampleMethod (some sampleRepeated) {}).filter
        (fun d => decide (d.finding = .duplicateField .type (some "x"))) = [] ∧
    malformedReports .param (some "not a name") (analyze sampleMethod (some sampleRepeated) {})
      = [malformedDiagnostic sampleMethod .param (some "not a name")
          "expected a parameter name"] ∧
    malformedReports .param none (analyze sampleMethod (some sampleRepeated) {})
      = [malformedDiagnostic sampleMethod .param none "expected a parameter name"] ∧
    malformedReports .type (some "x") (analyze sampleMethod (some sampleRepeated) {})
      = [malformedDiagnostic sampleMethod .type (some "x") "field body is empty"] := by
  have hregular : sampleMethod.IsRegular := by decide
  have hstars : ∀ p ∈ sampleMethod.parameters, p.name.toList.head? ≠ some '*' := by decide
  obtain ⟨hrepeated, -, hmalformed, -⟩ :=
    repeated_and_malformed_exact hregular hstars sampleRepeated {} rfl rfl
  exact ⟨⟨hregular, hstars⟩, (hrepeated _ _).trans (by decide), (hrepeated _ _).trans (by decide),
    (hrepeated _ _).trans (by decide), (hmalformed _ _).trans (by decide),
    (hmalformed _ _).trans (by decide), (hmalformed _ _).trans (by decide)⟩

end DocAudit
