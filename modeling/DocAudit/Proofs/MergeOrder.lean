import DocAudit.Proofs.WithinFunction
import DocAudit.Report.Basic
import Mathlib

/-!
# Proofs/MergeOrder — the order in which files are finished does not show

Files are checked side by side and their reports merged as they come.  A `MergeTree` is one way of
doing so: an order of the reports and a grouping of the merges.  What a tree merges to is the
`total` of its reports, and totals of the same reports in another order differ in the order of
diagnostics alone.  Sorting removes that difference because no two diagnostics tie
(`pairwise_ne_files`): paths differ between files, line or name between the functions of a file, and
within a function the report order is strict.
-/

namespace DocAudit

open Diagnostic

/-! ## Ways of merging -/

namespace Report

/-- A way of merging reports: the order they come in, and the grouping of the merges. -/
inductive MergeTree
  | fresh
  | one (r : Report)
  | both (a b : MergeTree)

namespace MergeTree

/-- The reports that are merged, in order. -/
def reports : MergeTree → List Report
  | fresh => []
  | one r => [r]
  | both a b => a.reports ++ b.reports

/-- What the reports merge to; a fresh report holds nothing. -/
def merged : MergeTree → Report
  | fresh => empty
  | one r => r
  | both a b => a.merged.merge b.merged

end MergeTree

/-- All reports in one: counts are added, diagnostics follow each other. -/
def total (rs : List Report) : Report where
  filesChecked := (rs.map filesChecked).sum
  functionsChecked := (rs.map functionsChecked).sum
  diagnostics := rs.flatMap diagnostics
  aborted := rs.any aborted

theorem total_append (rs rs' : List Report) : total (rs ++ rs') = (total rs).merge (total rs') := by
  simp only [total, merge, List.map_append, List.sum_append, List.flatMap_append, List.any_append]

@[simp] theorem total_singleton (r : Report) : total [r] = r := by
  simp [total]

/-- **A merge tree comes to the total of its reports**, whatever the grouping. -/
theorem MergeTree.merged_eq_total (t : MergeTree) : t.merged = total t.reports := by
  induction t with
  | fresh => rfl
  | one r => exact (total_singleton r).symm
  | both a b iha ihb => rw [merged, reports, total_append, iha, ihb]

theorem foldl_merge_eq (rs : List Report) (r : Report) :
    rs.foldl merge r = r.merge (total rs) := by
  induction rs generalizing r with
  | nil => simp [total, merge]
  | cons a rs ih =>
    have hcons : total (a :: rs) = a.merge (total rs) := by
      rw [← List.singleton_append, total_append, total_singleton]
    rw [List.foldl_cons, ih (r.merge a), hcons]
    simp only [merge, Nat.add_assoc, List.append_assoc, Bool.or_assoc]

theorem gather_eq_sort_total (rs : List Report) : gather rs = (total rs).sort := by
  rw [gather, foldl_merge_eq]
  simp [merge, empty]

/-- **Totals of the same reports sort to one report**, if no two diagnostics tie. -/
theorem sort_total_eq_of_perm {rs rs' : List Report} (h : rs.Perm rs')
    (hne : (rs.flatMap diagnostics).Pairwise fun a b => compareReport a b ≠ .eq) :
    (total rs).sort = (total rs').sort := by
  have hdiagnostics : sortBy compareReport (rs.flatMap diagnostics)
      = sortBy compareReport (rs'.flatMap diagnostics) :=
    Sorting.mergeSort_eq_of_perm (h.flatMap_right diagnostics) hne
  have hfiles := (h.map filesChecked).sum_nat
  have hfunctions := (h.map functionsChecked).sum_nat
  have haborted : rs.any aborted = rs'.any aborted := h.any_eq
  simp only [sort, total, hdiagnostics, hfiles, hfunctions, haborted]

end Report

/-! ## Files without ties -/

/-- A file and what was found in it. -/
structure Outcome where
  path : Path
  found : Except SourceError (List Definition)

namespace Outcome

/-- The report of the file. -/
def report (settings : Settings) (o : Outcome) : Report :=
  .ofExtraction o.path settings o.found

/-- How many functions were found in the file. -/
def functionCount (o : Outcome) : Nat :=
  match o.found with
  | .error _ => 0
  | .ok definitions => definitions.length

/-- Every definition stands in the file, and no two of them on one line under one name. -/
def IsPlaced (o : Outcome) : Prop :=
  ∀ definitions, o.found = .ok definitions →
    (∀ d ∈ definitions, d.signature.location.file = o.path) ∧
    definitions.Pairwise fun a b =>
      (a.signature.location.line, a.signature.qualifiedName)
        ≠ (b.signature.location.line, b.signature.qualifiedName)

variable {settings : Settings}

/-- The diagnostics of a file point to that file. -/
theorem file_of_mem_report {o : Outcome} (h : o.IsPlaced) {x : Diagnostic}
    (hx : x ∈ (o.report settings).diagnostics) : x.location.file = o.path := by
  obtain ⟨path, error | definitions⟩ := o
  · simp only [report, Report.ofExtraction] at hx
    split at hx
    · rw [List.mem_singleton.mp hx]
      rfl
    · exact absurd hx List.not_mem_nil
  · obtain ⟨d, hd, hxd⟩ := List.mem_flatMap.mp hx
    rw [(Definition.function_and_location_of_mem_check hxd).2]
    exact (h definitions rfl).1 d hd

/-- **No two diagnostics of a file tie.** -/
theorem pairwise_ne_report {o : Outcome} (h : o.IsPlaced) :
    (o.report settings).diagnostics.Pairwise fun a b => compareReport a b ≠ .eq := by
  obtain ⟨path, error | definitions⟩ := o
  · simp only [report, Report.ofExtraction]
    split
    · exact List.pairwise_singleton _ _
    · exact .nil
  refine List.pairwise_flatMap.mpr ⟨fun d _ => ?_, ?_⟩
  · -- Within a function a tie would be a repeated key.
    refine (pairwise_compareWithin_ne (d.inReportOrder_check settings).keys_nodup).imp ?_
    intro a b hne heq
    exact hne (compareWithin_eq_iff.mpr (compareReport_eq_iff.mp heq).2.2)
  · refine (h definitions rfl).2.imp fun hne x hx y hy heq => ?_
    obtain ⟨⟨-, hline⟩, hfunction, -⟩ := compareReport_eq_iff.mp heq
    obtain ⟨hxf, hxl⟩ := Definition.function_and_location_of_mem_check hx
    obtain ⟨hyf, hyl⟩ := Definition.function_and_location_of_mem_check hy
    rw [hxl, hyl] at hline
    rw [hxf, hyf] at hfunction
    exact hne (Prod.ext hline hfunction)

/-- **No two diagnostics of a run tie**, since the paths of its files differ. -/
theorem pairwise_ne_files (settings : Settings) {files : List Outcome}
    (hpaths : files.Pairwise fun a b => a.path.components ≠ b.path.components)
    (hplaced : ∀ o ∈ files, o.IsPlaced) :
    ((files.map (report settings)).flatMap Report.diagnostics).Pairwise
      fun a b => compareReport a b ≠ .eq := by
  rw [List.flatMap_map, List.pairwise_flatMap]
  refine ⟨fun o ho => pairwise_ne_report (hplaced o ho), ?_⟩
  refine hpaths.imp_of_mem fun {o o'} ho ho' hne x hx y hy heq => hne ?_
  rw [← file_of_mem_report (hplaced o ho) hx, ← file_of_mem_report (hplaced o' ho') hy]
  exact (compareReport_eq_iff.mp heq).1.1

theorem report_filesChecked (o : Outcome) : (o.report settings).filesChecked = 1 := by
  obtain ⟨path, error | definitions⟩ := o <;> rfl

theorem report_functionsChecked (o : Outcome) :
    (o.report settings).functionsChecked = o.functionCount := by
  obtain ⟨path, error | definitions⟩ := o <;> rfl

theorem report_aborted (o : Outcome) : (o.report settings).aborted = false := by
  obtain ⟨path, error | definitions⟩ := o <;> rfl

end Outcome

/-! ## Gathering files -/

/-- **What a report says about the files it was gathered from**: the diagnostics of all of them, in
report order, and the sums of their counts. -/
structure Report.Covers (settings : Settings) (files : List Outcome) (r : Report) : Prop where
  diagnostics_perm : r.diagnostics.Perm (files.flatMap fun o => (o.report settings).diagnostics)
  /-- A file that could not be analyzed is reported like any other. -/
  failures : settings.reports .invalidSource → ∀ o ∈ files, ∀ e, o.found = .error e →
    Report.sourceDiagnostic o.path e ∈ r.diagnostics
  increasing : r.diagnostics.Pairwise fun a b => compareReport a b = .lt
  filesChecked_eq : r.filesChecked = files.length
  functionsChecked_eq : r.functionsChecked = (files.map Outcome.functionCount).sum
  errors_eq : r.errors = (files.map fun o => (o.report settings).errors).sum
  warnings_eq : r.warnings = (files.map fun o => (o.report settings).warnings).sum
  aborted_eq : r.aborted = false

open Report in
theorem covers_gather (settings : Settings) {files : List Outcome}
    (hne : ((files.map (Outcome.report settings)).flatMap diagnostics).Pairwise
      fun a b => compareReport a b ≠ .eq) :
    (gather (files.map (Outcome.report settings))).Covers settings files := by
  have hperm : (gather (files.map (Outcome.report settings))).diagnostics.Perm
      (files.flatMap fun o => (o.report settings).diagnostics) := by
    rw [gather_eq_sort_total, ← List.flatMap_map]
    exact List.mergeSort_perm _ _
  have hcount : ∀ severity, (gather (files.map (Outcome.report settings))).countOf severity
      = (files.map fun o => (o.report settings).countOf severity).sum := fun severity => by
    rw [countOf, hperm.countP_eq, List.countP_flatMap]
    rfl
  refine ⟨hperm, fun hreports o ho e he => hperm.mem_iff.mpr ?_, ?_, ?_, ?_, hcount .error,
    hcount .warning, ?_⟩
  · refine List.mem_flatMap.mpr ⟨o, ho, ?_⟩
    simp [Outcome.report, he, ofExtraction, hreports]
  · rw [gather_eq_sort_total]
    exact Sorting.pairwise_lt_mergeSort hne
  · rw [gather_eq_sort_total]
    simp [sort, total, Function.comp_def, Outcome.report_filesChecked, List.map_const']
  · rw [gather_eq_sort_total]
    simp [sort, total, Function.comp_def, Outcome.report_functionsChecked]
  · rw [gather_eq_sort_total]
    simp [sort, total, Outcome.report_aborted]

/-- **The report does not show the order in which files are finished** — every order and every
grouping of the merges sorts to one report, which covers all files. -/
theorem gather_order_independent (settings : Settings) (files : List Outcome)
    (hpaths : files.Pairwise fun a b => a.path.components ≠ b.path.components)
    (hplaced : ∀ o ∈ files, o.IsPlaced) :
    (∀ t : Report.MergeTree, t.reports.Perm (files.map (Outcome.report settings)) →
      t.merged.sort = Report.gather (files.map (Outcome.report settings))) ∧
    (Report.gather (files.map (Outcome.report settings))).Covers settings files := by
  have hne := Outcome.pairwise_ne_files settings hpaths hplaced
  refine ⟨fun t ht => ?_, covers_gather settings hne⟩
  rw [t.merged_eq_total, Report.gather_eq_sort_total]
  exact (Report.sort_total_eq_of_perm ht.symm hne).symm

/-- A file with two functions on one line. -/
def sampleFile : Outcome :=
  ⟨⟨"pkg/a.py"⟩, .ok [⟨.bare "f" ⟨⟨"pkg/a.py"⟩, 3⟩, none, false⟩,
    ⟨.bare "A.f" ⟨⟨"pkg/a.py"⟩, 3⟩, some ":broken", false⟩]⟩

/-- A file that is not there. -/
def sampleMissing : Outcome :=
  ⟨⟨"b.py"⟩, .error (.unreadable ⟨"b.py"⟩ .notFound)⟩

theorem gather_sample_order :
    ([sampleFile, sampleMissing].Pairwise fun a b => a.path.components ≠ b.path.components) ∧
    (∀ o ∈ [sampleFile, sampleMissing], o.IsPlaced) ∧
    (Report.MergeTree.both (.one (sampleMissing.report {}))
        (.both .fresh (.one (sampleFile.report {})))).merged.sort
      = Report.gather [sampleFile.report {}, sampleMissing.report {}] := by
  have hpaths : [sampleFile, sampleMissing].Pairwise
      fun a b => a.path.components ≠ b.path.components := by decide
  have hplaced : ∀ o ∈ [sampleFile, sampleMissing], o.IsPlaced := by
    intro o ho definitions hfound
    rw [List.mem_cons, List.mem_singleton] at ho
    rcases ho with rfl | rfl
    · obtain rfl := Except.ok.inj hfound
      decide
    · exact absurd hfound nofun
  refine ⟨hpaths, hplaced, ?_⟩
  exact (gather_order_independent {} _ hpaths hplaced).1 _ (.swap _ _ _)

end DocAudit
