import DocAudit.Proofs.FieldGrammar
import DocAudit.Proofs.FieldReports

/-!
# Proofs/BrokenLines — lines that are no fields are invisible, and reported once

A line may start like a field and be none, or be a field of a kind that means nothing here.  Both
become fields of their own, and the analysis sees neither: it reads the same remarks off the fields
that it knows (`remarks_filter_isKnown`).

The first broken field of a text is the first of its lines that is broken (`find?_parse`), since
every block has a broken field exactly if its opening line is broken.  A check adds that line to
what the analysis reports, which has no diagnostics of this category, so `check_broken_lines` takes
the two parts of its report apart again.
-/

namespace DocAudit

open Text Analysis Diagnostic

/-! ## The first broken line -/

namespace FieldList

/-- White space and then a colon follow the first colon: what it takes to see a blank marker. -/
theorem exists_blank_marker_iff {line : List Char} :
    (∃ marker text, line = ':' :: marker ++ ':' :: text ∧ isBlank marker = true) ↔
      line.head? = some ':' ∧ (trimStart line.tail).head? = some ':' := by
  constructor
  · rintro ⟨marker, text, rfl, hblank⟩
    refine ⟨rfl, ?_⟩
    rw [List.cons_append, List.tail_cons, trimStart_append_left hblank]
    rfl
  · rintro ⟨hfirst, hsecond⟩
    obtain ⟨inner, rfl⟩ := List.head?_eq_some_iff.mp hfirst
    obtain ⟨text, htext⟩ := List.head?_eq_some_iff.mp hsecond
    refine ⟨inner.takeWhile isWhite, text, ?_, isBlank_takeWhile inner⟩
    rw [List.tail_cons] at htext
    rw [List.cons_append, ← htext, trimStart, List.takeWhile_append_dropWhile]

instance (line : List Char) : Decidable (IsBroken line) :=
  decidable_of_iff _ (or_congr_right exists_blank_marker_iff.symm)

/-- A colon opens the line in the first column, and the line is broken. -/
def opensBroken (line : List Char) : Bool :=
  opensField line && decide (IsBroken line)

theorem ofName_ne_parseError (name : String) : FieldKind.ofName name ≠ .parseError := by
  unfold FieldKind.ofName
  split_ifs <;> decide

/-- **A line that is not broken gives no broken field.** -/
theorem Block.kind_ne_parseError {b : Block} (hopen : opensField b.head = true)
    (hb : ¬IsBroken b.head) : ∀ f ∈ b.fields, f.kind ≠ .parseError := by
  obtain ⟨fs, hfs⟩ : ∃ fs, fs = b.fields := ⟨_, rfl⟩
  rw [← hfs]
  cases (Block.holds_iff hopen).mpr hfs with
  | broken hbroken => exact absurd hbroken hb
  | plain _ _ hkind =>
    intro f hf
    rw [List.mem_singleton.mp hf, hkind]
    exact ofName_ne_parseError _
  | typed => simp

theorem find?_flatMap_fields (ls : List (List Char)) :
    (((blocks ls).flatMap Block.fields).find? fun f => f.kind == .parseError)
      = (ls.find? opensBroken).map fun line => Field.broken (String.ofList (trimEnd line)) := by
  induction ls with
  | nil => rfl
  | cons line ls ih =>
    rw [blocks]
    split
    · rename_i hopen
      rw [List.flatMap_cons, List.find?_append, ih]
      by_cases hbroken : IsBroken line
      · rw [List.find?_cons_of_pos (by simp [opensBroken, hopen, hbroken]),
          Block.fields_of_isBroken hopen hbroken]
        rfl
      · rw [List.find?_cons_of_neg (by simp [opensBroken, hbroken]), List.find?_eq_none.mpr]
        · rfl
        · intro f hf
          simpa using Block.kind_ne_parseError hopen hbroken f hf
    · rename_i hopen
      rw [List.find?_cons_of_neg (by simp [opensBroken, hopen]), ih]

/-- **The first broken field of a text is its first broken line.** -/
theorem find?_parse (text : String) :
    ((parse text).find? fun f => f.kind == .parseError)
      = ((lines text.toList).find? opensBroken).map fun line =>
          Field.broken (String.ofList (trimEnd line)) :=
  find?_flatMap_fields (lines text.toList)

example : (lines "Text:\n  :deeper\n:x: ok\n: :none \n:oops".toList).find? opensBroken
    = some ": :none ".toList := by
  decide

end FieldList

/-! ## Fields that the analysis does not know -/

namespace Analysis

variable (fields : List Field)

theorem shapes_filter_isKnown : shapes (fields.filter isKnown) = shapes fields := by
  induction fields with
  | nil => rfl
  | cons f fields ih =>
    unfold shapes at ih ⊢
    by_cases hknown : isKnown f = true
    · rw [List.filter_cons_of_pos hknown, List.flatMap_cons, List.flatMap_cons, ih]
    · have hnone : shapeOf f = [] := by simp [shapeOf, hknown]
      rw [List.filter_cons_of_neg hknown, List.flatMap_cons, ih, hnone, List.nil_append]

theorem filter_isUsable_filter_isKnown :
    (fields.filter isKnown).filter isUsable = fields.filter isUsable := by
  rw [List.filter_filter]
  refine List.filter_congr fun f _ => ?_
  rw [isUsable, Bool.and_comm, ← Bool.and_assoc, Bool.and_self]

theorem fieldsOf_filter_isKnown {kind : FieldKind} (hother : kind ≠ .other)
    (hbroken : kind ≠ .parseError) :
    fieldsOf kind (fields.filter isKnown) = fieldsOf kind fields := by
  rw [fieldsOf, fieldsOf, List.filter_filter]
  refine List.filter_congr fun f _ => ?_
  by_cases hkind : f.kind = kind
  · have hknown : isKnown f = true := isKnown_iff.mpr (hkind ▸ ⟨hother, hbroken⟩)
    rw [hknown, Bool.and_true]
  · rw [decide_eq_false hkind, Bool.false_and]

theorem hasKind_eq_not_isEmpty (kind : FieldKind) :
    hasKind kind fields = !(fieldsOf kind fields).isEmpty := by
  rw [Bool.eq_iff_iff]
  simp [hasKind, fieldsOf]

/-- **The analysis reads the fields that it knows**: without the others the remarks are the same. -/
theorem remarks_filter_isKnown (signature : Signature) (settings : Settings) :
    remarks signature (fields.filter isKnown) settings = remarks signature fields settings := by
  have hreturns : fieldsOf .returns (fields.filter isKnown) = fieldsOf .returns fields :=
    fieldsOf_filter_isKnown fields (by decide) (by decide)
  have hrtype : fieldsOf .rtype (fields.filter isKnown) = fieldsOf .rtype fields :=
    fieldsOf_filter_isKnown fields (by decide) (by decide)
  have hvalue : returns signature.returnType (fields.filter isKnown) settings
      = returns signature.returnType fields settings := by
    refine returns_congr ?_ ?_ ?_ signature.returnType settings
    · rw [hasKind_eq_not_isEmpty, hreturns, hasKind_eq_not_isEmpty]
    · rw [hasKind_eq_not_isEmpty, hrtype, hasKind_eq_not_isEmpty]
    · rw [documentedRtype, hrtype, documentedRtype]
  simp only [remarks, shapes_filter_isKnown, filter_isUsable_filter_isKnown, hvalue]

end Analysis

theorem analyze_filter_isKnown (signature : Signature) (fields : List Field)
    (settings : Settings) :
    analyze signature (some (fields.filter isKnown)) settings
      = analyze signature (some fields) settings := by
  rw [analyze_eq_finish, analyze_eq_finish, remarksOn, remarks_filter_isKnown, remarksOn]

/-! ## The two parts of a check -/

namespace Definition

variable (signature : Signature) (text : String) (settings : Settings)

/-- The diagnostic about broken lines, from the lines of the text. -/
theorem brokenLineDiagnostics_eq :
    brokenLineDiagnostics settings ⟨signature, some text, false⟩
      = if settings.ignores .invalidRest then []
        else ((lines text.toList).find? FieldList.opensBroken).toList.map fun line =>
          .ofFinding (.invalidRest (String.ofList (trimEnd line))) signature.qualifiedName
            signature.location none := by
  have hline : brokenLine? ⟨signature, some text, false⟩
      = ((lines text.toList).find? FieldList.opensBroken).map fun line =>
          String.ofList (trimEnd line) := by
    rw [brokenLine?, fields, Option.map_some, Option.bind_some, FieldList.find?_parse,
      Option.map_map]
    rfl
  rw [brokenLineDiagnostics, hline]
  rcases (lines text.toList).find? FieldList.opensBroken with _ | line
  · simp
  · rcases hignores : settings.ignores .invalidRest with _ | _ <;>
      simp [brokenLineDiagnostic, Diagnostic.ofFinding, Finding.category, Settings.reports,
        hignores]

/-- A check is an analysis and the broken line, in report order. -/
theorem filter_check (p : Diagnostic → Bool) :
    (check settings ⟨signature, some text, false⟩).filter p
      = sortBy compareWithin
          ((analyze signature (some (FieldList.parse text)) settings).filter p ++
            (brokenLineDiagnostics settings ⟨signature, some text, false⟩).filter p) := by
  rw [check_eq_sortBy, if_neg Bool.false_ne_true, filter_sortBy, List.filter_append]
  rfl

theorem category_of_mem_brokenLineDiagnostics {d : Definition} {x : Diagnostic}
    (h : x ∈ d.brokenLineDiagnostics settings) : x.category = .invalidRest := by
  obtain ⟨line, rfl⟩ := mem_brokenLineDiagnostics h
  rfl

/-- What a check reports beside broken lines is its analysis. -/
theorem filter_check_ne :
    (check settings ⟨signature, some text, false⟩).filter
        (fun d => decide (d.category ≠ .invalidRest))
      = analyze signature (some (FieldList.parse text)) settings := by
  have hanalysis : (analyze signature (some (FieldList.parse text)) settings).filter
        (fun d => decide (d.category ≠ .invalidRest))
      = analyze signature (some (FieldList.parse text)) settings :=
    List.filter_eq_self.mpr fun d hd => decide_eq_true (category_ne_invalidRest_of_mem_analyze hd)
  have hbroken : (brokenLineDiagnostics settings ⟨signature, some text, false⟩).filter
        (fun d => decide (d.category ≠ .invalidRest)) = [] := by
    refine List.filter_eq_nil_iff.mpr fun d hd hne => ?_
    exact of_decide_eq_true hne (category_of_mem_brokenLineDiagnostics settings hd)
  rw [filter_check, hanalysis, hbroken, List.append_nil, sortBy_analyze]

/-- What a check reports about broken lines is the one that it adds. -/
theorem filter_check_eq :
    (check settings ⟨signature, some text, false⟩).filter
        (fun d => decide (d.category = .invalidRest))
      = brokenLineDiagnostics settings ⟨signature, some text, false⟩ := by
  have hanalysis : (analyze signature (some (FieldList.parse text)) settings).filter
      (fun d => decide (d.category = .invalidRest)) = [] :=
    List.filter_eq_nil_iff.mpr fun d hd heq =>
      category_ne_invalidRest_of_mem_analyze hd (of_decide_eq_true heq)
  have hbroken : (brokenLineDiagnostics settings ⟨signature, some text, false⟩).filter
        (fun d => decide (d.category = .invalidRest))
      = brokenLineDiagnostics settings ⟨signature, some text, false⟩ :=
    List.filter_eq_self.mpr fun d hd =>
      decide_eq_true (category_of_mem_brokenLineDiagnostics settings hd)
  rw [filter_check, hanalysis, hbroken, List.nil_append, brokenLineDiagnostics_eq]
  split
  · exact List.mergeSort_nil
  · rcases (lines text.toList).find? FieldList.opensBroken with _ | line
    · exact List.mergeSort_nil
    · exact List.mergeSort_singleton _

end Definition

/-- **Broken lines and unknown fields are invisible to the analysis, and broken lines are reported
once** — beside broken lines a check reports what the analysis of the known fields reports.  Unless
the category is ignored, it reports the first line with a colon in the first column and without a
second colon, or with a blank marker between the two; and it reports no such line where there is
none. -/
theorem check_broken_lines (signature : Signature) (text : String) (settings : Settings) :
    (Definition.check settings ⟨signature, some text, false⟩).filter
        (fun d => decide (d.category ≠ .invalidRest))
      = analyze signature (some ((FieldList.parse text).filter fun f =>
          decide (f.kind ∉ [FieldKind.other, .parseError]))) settings ∧
    (Definition.check settings ⟨signature, some text, false⟩).filter
        (fun d => decide (d.category = .invalidRest))
      = if settings.ignores .invalidRest then []
        else ((lines text.toList).find? FieldList.opensBroken).toList.map fun line =>
          .ofFinding (.invalidRest (String.ofList (trimEnd line))) signature.qualifiedName
            signature.location none := by
  have hknown : (FieldList.parse text).filter
        (fun f => decide (f.kind ∉ [FieldKind.other, .parseError]))
      = (FieldList.parse text).filter isKnown := by
    refine List.filter_congr fun f _ => ?_
    rw [Bool.eq_iff_iff, isKnown_iff, decide_eq_true_eq]
    simp
  rw [Definition.filter_check_ne, Definition.filter_check_eq, hknown, analyze_filter_isKnown]
  exact ⟨rfl, Definition.brokenLineDiagnostics_eq signature text settings⟩

end DocAudit
