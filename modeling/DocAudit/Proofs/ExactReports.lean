import DocAudit.Proofs.WithinFunction

/-!
# Proofs/ExactReports — what becomes of the remarks of an analysis

Between the remarks and the report stand a filter, a stable sort and a pass that drops repeated
keys.  A test of the key passes through all three (`filter_finish`), so the part of a report that a
test admits is what the same three steps make of the remarks it admits:

* `finish_eq_self` — diagnostics in report order without repeated keys stay as they are;
* `finish_eq_singleton` — any number of copies of one diagnostic come out as one;
* `finish_congr` — the order of diagnostics with different keys does not show.

Which remarks a test admits is a question about one section of the analysis, since every category is
the business of one section (`sectionOf`, `filter_remarks`).  `filter_analyze` puts both together,
and `filter_analyze_eq_ite_diagnostic` is the case of a test that admits copies of one remark only.
-/

namespace DocAudit

open Diagnostic

namespace Analysis

/-- A category that is not ignored is reported. -/
theorem reports_of_not_ignores {settings : Settings} {c : Category}
    (h : settings.ignores c = false) : settings.reports c = true := by
  rw [Settings.reports, h]
  rfl

/-! ## Keys pass through -/

/-- What a diagnostic is known by in its function: category, kind of field and subject. -/
abbrev Key : Type :=
  Category × Option FieldKind × Option String

/-- **A test of the key may be applied to the report or to what was found.** -/
theorem filter_finish (settings : Settings) (p : Key → Bool) (ds : List Diagnostic) :
    (finish settings ds).filter (fun d => p d.key)
      = finish settings (ds.filter fun d => p d.key) := by
  have hswap : (ds.filter fun d => p d.key).filter (fun d => settings.reports d.category)
      = (ds.filter fun d => settings.reports d.category).filter fun d => p d.key := by
    simp only [List.filter_filter, Bool.and_comm]
  rw [finish, finish, ← firstsBy_filter, hswap]
  exact congrArg (firstsBy key) (Sorting.filter_mergeSort (fun d : Diagnostic => p d.key) _)

@[simp] theorem finish_nil (settings : Settings) : finish settings [] = [] := by
  simp [finish, sortBy, firstsBy]

/-- **Diagnostics in report order without repeated keys stay as they are.** -/
theorem finish_eq_self {settings : Settings} {ds : List Diagnostic}
    (hreports : ∀ d ∈ ds, settings.reports d.category = true) (hkeys : (ds.map key).Nodup)
    (hsorted : ds.Pairwise fun a b => (compareWithin a b).isLE) : finish settings ds = ds := by
  have hsort : sortBy compareWithin ds = ds := List.mergeSort_of_pairwise hsorted
  rw [finish, List.filter_eq_self.mpr hreports, hsort, firstsBy_eq_self key hkeys]

/-- **Copies of one diagnostic come out as one.** -/
theorem finish_eq_singleton {settings : Settings} {ds : List Diagnostic} {d : Diagnostic}
    (hreports : settings.reports d.category = true) (hne : ds ≠ []) (hcopies : ∀ x ∈ ds, x = d) :
    finish settings ds = [d] := by
  have hfound : d ∈ ds := by
    obtain ⟨x, hx⟩ := List.exists_mem_of_ne_nil ds hne
    exact hcopies x hx ▸ hx
  have hkey : d.key ∈ (finish settings ds).map key := by
    rw [finish, mem_map_firstsBy, List.mem_map]
    refine ⟨d, ?_, rfl⟩
    rw [sortBy, List.mem_mergeSort]
    exact List.mem_filter.mpr ⟨hfound, hreports⟩
  have hall : ∀ x ∈ finish settings ds, x = d := fun x hx => hcopies x (mem_finish hx).1
  have hnodup := (inReportOrder_finish settings ds).keys_nodup
  -- One copy stays, and a second one would repeat its key.
  rcases hresult : finish settings ds with _ | ⟨a, rest⟩
  · rw [hresult] at hkey
    exact absurd hkey List.not_mem_nil
  rw [hresult] at hall hnodup
  obtain rfl := hall a List.mem_cons_self
  rcases rest with _ | ⟨b, rest⟩
  · rfl
  · obtain rfl := hall b (List.mem_cons_of_mem _ List.mem_cons_self)
    exact absurd List.mem_cons_self (List.nodup_cons.mp hnodup).1

/-- **A report depends on what was found under each key alone**: diagnostics of different keys may
come in any order, since sorted diagnostics without repeated keys stand in one order only. -/
theorem finish_congr {settings : Settings} {ds ds' : List Diagnostic}
    (h : ∀ k : Key,
      (ds.filter fun d => decide (d.key = k)) = ds'.filter fun d => decide (d.key = k)) :
    finish settings ds = finish settings ds' := by
  have hkeys : ∀ k : Key, ((finish settings ds).filter fun d => decide (d.key = k))
      = (finish settings ds').filter fun d => decide (d.key = k) := by
    intro k
    have hleft := filter_finish settings (fun k' => decide (k' = k)) ds
    have hright := filter_finish settings (fun k' => decide (k' = k)) ds'
    rw [hleft, hright, h k]
  refine Sorting.eq_of_perm_of_pairwise_lt (List.perm_iff_count.mpr fun d => ?_)
    (inReportOrder_finish settings ds).increasing (inReportOrder_finish settings ds').increasing
  have hcount : ∀ l : List Diagnostic,
      (l.filter fun x => decide (x.key = d.key)).count d = l.count d := fun l =>
    List.count_filter (decide_eq_true rfl)
  rw [← hcount, hkeys, hcount]

/-! ## Sections -/

/-- The sections of the analysis. -/
inductive Section
  | shapes
  | duplicates
  | unknowns
  | parameters
  | order
  | returns
deriving DecidableEq

/-- The section that reports a category; some categories are reported elsewhere. -/
def sectionOf : Category → Option Section
  | .malformedFieldDoc => some .shapes
  | .duplicateFieldDoc => some .duplicates
  | .unknownParamDoc => some .unknowns
  | .missingParamDoc | .typeMismatch | .typeDocMissing => some .parameters
  | .paramOrderMismatch => some .order
  | .missingReturnDoc | .missingRtypeDoc | .rtypeMismatch => some .returns
  | .missingDocstring | .invalidRest | .invalidSource => none

/-- The remarks of a section on a function with the given fields. -/
def remarksOf (signature : Signature) (fields : List Field) (settings : Settings) :
    Section → List Remark
  | .shapes => Analysis.shapes fields
  | .duplicates => Analysis.duplicates signature.expected (fields.filter isUsable)
  | .unknowns =>
    Analysis.unknowns .param signature.expected (fields.filter isUsable) ++
      Analysis.unknowns .type signature.expected (fields.filter isUsable)
  | .parameters => Analysis.parameters signature.expected (fields.filter isUsable)
  | .order => Analysis.order signature.expected (fields.filter isUsable)
  | .returns => Analysis.returns signature.returnType fields settings

variable {signature : Signature} {fields : List Field} {settings : Settings}

/-- **A section reports its own categories.** -/
theorem sectionOf_of_mem_remarksOf {sec : Section} {r : Remark}
    (h : r ∈ remarksOf signature fields settings sec) :
    sectionOf r.finding.category = some sec := by
  cases sec with
  | shapes => rw [category_of_mem_shapes h]; rfl
  | duplicates => rw [category_of_mem_duplicates h]; rfl
  | unknowns =>
    rcases List.mem_append.mp h with h | h <;> rw [category_of_mem_unknowns h] <;> rfl
  | parameters => rcases category_of_mem_parameters h with hc | hc | hc <;> rw [hc] <;> rfl
  | order => rw [category_of_mem_order h]; rfl
  | returns => rcases category_of_mem_returns h with hc | hc | hc <;> rw [hc] <;> rfl

theorem remarks_eq_append : remarks signature fields settings
    = remarksOf signature fields settings .shapes ++ remarksOf signature fields settings .duplicates
      ++ remarksOf signature fields settings .unknowns
      ++ remarksOf signature fields settings .parameters
      ++ remarksOf signature fields settings .order
      ++ remarksOf signature fields settings .returns := by
  simp only [remarks, remarksOf, List.append_assoc]

/-- **A test of categories looks at the section that has them.** -/
theorem filter_remarks {sec : Section} {q : Remark → Bool}
    (hq : ∀ r, q r = true → sectionOf r.finding.category = some sec) :
    (remarks signature fields settings).filter q
      = (remarksOf signature fields settings sec).filter q := by
  have hother : ∀ other, other ≠ sec →
      (remarksOf signature fields settings other).filter q = [] := by
    intro other hne
    refine List.filter_eq_nil_iff.mpr fun r hr hqr => hne ?_
    exact Option.some.inj ((sectionOf_of_mem_remarksOf hr).symm.trans (hq r hqr))
  rw [remarks_eq_append]
  simp only [List.filter_append]
  cases sec <;> simp (disch := decide) only [hother, List.nil_append, List.append_nil]

/-! ## Analyses -/

@[simp] theorem Remark.diagnostic_key (signature : Signature) (settings : Settings) (r : Remark) :
    (r.diagnostic signature settings).key
      = (r.finding.category, r.finding.field, r.finding.subject) := by
  obtain ⟨severity, h⟩ := r.diagnostic_eq signature settings
  rw [h]
  rfl

@[simp] theorem Remark.diagnostic_finding (signature : Signature) (settings : Settings)
    (r : Remark) : (r.diagnostic signature settings).finding = r.finding := by
  obtain ⟨severity, h⟩ := r.diagnostic_eq signature settings
  rw [h]
  rfl

/-- Only a missing return type takes its severity from the settings. -/
theorem Remark.diagnostic_eq_ofFinding {r : Remark} (signature : Signature) (settings : Settings)
    (h : r.finding.category ≠ .missingRtypeDoc) :
    r.diagnostic signature settings
      = .ofFinding r.finding signature.qualifiedName signature.location r.position :=
  if_neg h

/-- **The part of a report that a test of the key admits**, if the test admits categories of one
section only: what becomes of the remarks of that section. -/
theorem filter_analyze {sec : Section} (p : Key → Bool)
    (hp : ∀ k, p k = true → sectionOf k.1 = some sec) :
    (analyze signature (some fields) settings).filter (fun d => p d.key)
      = finish settings (((remarksOf signature fields settings sec).filter fun r =>
          p (r.finding.category, r.finding.field, r.finding.subject)).map
            fun r => r.diagnostic signature settings) := by
  rw [analyze_eq_finish, filter_finish, List.filter_map]
  simp only [Function.comp_def, Remark.diagnostic_key, remarksOn]
  rw [filter_remarks fun r hr => hp _ hr]

/-- A finding that its key tells apart may be looked for by its key. -/
theorem filter_finding_analyze {finding : Finding} {k : Key}
    (h : ∀ f : Finding, f = finding ↔ (f.category, f.field, f.subject) = k) :
    (analyze signature (some fields) settings).filter (fun d => decide (d.finding = finding))
      = (analyze signature (some fields) settings).filter fun d => decide (d.key = k) := by
  refine List.filter_congr fun d hd => ?_
  obtain ⟨r, -, rfl⟩ := mem_analyze hd
  rw [Remark.diagnostic_finding, Remark.diagnostic_key]
  exact decide_eq_decide.mpr (h r.finding)

/-- A test for one key admits the section of that key. -/
theorem sectionOf_of_eq {sec : Section} {k₀ : Key} (h : sectionOf k₀.1 = some sec) (k : Key)
    (hk : decide (k = k₀) = true) : sectionOf k.1 = some sec := by
  rw [of_decide_eq_true hk, h]

/-- **Copies of one remark are reported once** — if a test admits no other remarks of its section,
what it admits of the report is that remark or nothing. -/
theorem filter_analyze_eq_ite_diagnostic {sec : Section} {p : Key → Bool}
    (hp : ∀ k, p k = true → sectionOf k.1 = some sec) {r : Remark} {P : Prop} [Decidable P]
    (hreports : settings.reports r.finding.category = true)
    (hcopies : ∀ x, (x ∈ remarksOf signature fields settings sec ∧
      p (x.finding.category, x.finding.field, x.finding.subject) = true) ↔ P ∧ x = r) :
    (analyze signature (some fields) settings).filter (fun d => p d.key)
      = if P then [r.diagnostic signature settings] else [] := by
  simp only [← List.mem_filter (p := fun x : Remark =>
    p (x.finding.category, x.finding.field, x.finding.subject))] at hcopies
  rw [filter_analyze p hp]
  split
  · rename_i hP
    refine finish_eq_singleton (by rwa [Remark.diagnostic_category]) ?_ fun d hd => ?_
    · exact List.ne_nil_of_mem (List.mem_map_of_mem ((hcopies r).mpr ⟨hP, rfl⟩))
    · obtain ⟨x, hx, rfl⟩ := List.mem_map.mp hd
      rw [((hcopies x).mp hx).2]
  · rename_i hP
    rw [List.eq_nil_iff_forall_not_mem.mpr fun x hx => hP ((hcopies x).mp hx).1]
    exact finish_nil settings

/-- The same for all but a missing return type, where the remark decides the severity too. -/
theorem filter_analyze_eq_ite {sec : Section} {p : Key → Bool}
    (hp : ∀ k, p k = true → sectionOf k.1 = some sec) {r : Remark} {P : Prop} [Decidable P]
    (hreports : settings.reports r.finding.category = true)
    (hseverity : r.finding.category ≠ .missingRtypeDoc)
    (hcopies : ∀ x, (x ∈ remarksOf signature fields settings sec ∧
      p (x.finding.category, x.finding.field, x.finding.subject) = true) ↔ P ∧ x = r) :
    (analyze signature (some fields) settings).filter (fun d => p d.key)
      = if P then [.ofFinding r.finding signature.qualifiedName signature.location r.position]
        else [] := by
  rw [filter_analyze_eq_ite_diagnostic hp hreports hcopies,
    r.diagnostic_eq_ofFinding signature settings hseverity]

end Analysis

end DocAudit
