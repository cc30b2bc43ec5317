import DocAudit.Proofs.ExtractedFunctions
import DocAudit.Proofs.FilesOnce

/-!
# Proofs/SingleFile — the report of one file is in report order as it comes

    found ── check one after the other ──▶ report of the file
      │                                          ║
      └── run on its path, merge, sort ──▶ report of the run

A report of one file lists the diagnostics function by function.  Those of one function stand in
strict order and point to its line, and the lines of a source increase from function to function
(`isInOrder_extract`).  So the whole list increases strictly (`pairwise_lt_report`), and sorting it
changes nothing.
-/

namespace DocAudit

open Diagnostic

/-! ## Two diagnostics of a file -/

theorem compareReport_of_line_lt {a b : Diagnostic} (hfile : a.location.file = b.location.file)
    (hline : a.location.line < b.location.line) : compareReport a b = .lt := by
  have hpath : compare a.location.file b.location.file = .eq :=
    Path.compare_eq_iff.mpr (by rw [hfile])
  have hlocation : compare a.location b.location = .lt :=
    Ordering.then_eq_lt.mpr (.inr ⟨hpath, Nat.compare_eq_lt.mpr hline⟩)
  exact Ordering.then_eq_lt.mpr (.inl hlocation)

/-- At one place of one function the order within functions decides. -/
theorem compareReport_of_eq {a b : Diagnostic} (hlocation : a.location = b.location)
    (hfunction : a.function = b.function) : compareReport a b = compareWithin a b := by
  have hplace : compare a.location b.location = .eq := by
    rw [hlocation, Std.ReflOrd.compare_self]
  have hname : compare a.function b.function = .eq := by
    rw [hfunction, Std.ReflOrd.compare_self]
  simp only [compareReport, compareLex, compareOn, hplace, hname, Ordering.eq_then]

/-! ## Reports of single files -/

namespace Outcome

variable {settings : Settings}

/-- Every definition stands in the file, on a later line than those in front of it. -/
def IsInOrder (o : Outcome) : Prop :=
  ∀ definitions, o.found = .ok definitions →
    (∀ d ∈ definitions, d.signature.location.file = o.path) ∧
    definitions.Pairwise fun a b => a.signature.location.line < b.signature.location.line

/-- **The diagnostics of a file increase strictly**, function by function and within each. -/
theorem pairwise_lt_report {o : Outcome} (h : o.IsInOrder) :
    (o.report settings).diagnostics.Pairwise fun a b => compareReport a b = .lt := by
  obtain ⟨path, error | definitions⟩ := o
  · simp only [report, Report.ofExtraction]
    split
    · exact List.pairwise_singleton _ _
    · exact .nil
  obtain ⟨hfiles, hlines⟩ := h definitions rfl
  refine List.pairwise_flatMap.mpr ⟨fun d _ => ?_, ?_⟩
  · refine (d.inReportOrder_check settings).increasing.imp_of_mem fun {a b} ha hb hlt => ?_
    obtain ⟨hafunction, halocation⟩ := Definition.function_and_location_of_mem_check ha
    obtain ⟨hbfunction, hblocation⟩ := Definition.function_and_location_of_mem_check hb
    rwa [compareReport_of_eq (halocation.trans hblocation.symm)
      (hafunction.trans hbfunction.symm)]
  · refine hlines.imp_of_mem fun {d e} hd he hlt a ha b hb => ?_
    have halocation := (Definition.function_and_location_of_mem_check ha).2
    have hblocation := (Definition.function_and_location_of_mem_check hb).2
    refine compareReport_of_line_lt ?_ ?_
    · rw [halocation, hblocation, hfiles d hd, hfiles e he]
    · rwa [halocation, hblocation]

/-- **Sorting the report of a file changes nothing.** -/
theorem sort_report {o : Outcome} (h : o.IsInOrder) :
    (o.report settings).sort = o.report settings := by
  have hsorted : sortBy compareReport (o.report settings).diagnostics
      = (o.report settings).diagnostics :=
    List.mergeSort_of_pairwise ((pairwise_lt_report h).imp fun hlt => by rw [hlt]; rfl)
  rw [Report.sort, hsorted]

end Outcome

/-! ## Sources and files -/

/-- The definitions of a source stand on lines that increase. -/
theorem isInOrder_extract (path : Path) (settings : Settings) (source : String) :
    Outcome.IsInOrder ⟨path, extract path settings source⟩ := by
  intro definitions hfound
  change extract path settings source = .ok definitions at hfound
  obtain ⟨trees, hread⟩ := Python.exists_read_of_extract hfound
  obtain ⟨hreads, rest, htokens⟩ := Python.reads_of_read hread
  rw [Python.extract_eq_map path settings hread] at hfound
  obtain rfl := Except.ok.inj hfound
  refine ⟨List.forall_mem_map.mpr fun _ _ => rfl, List.pairwise_map.mpr ?_⟩
  exact (Python.pairwise_line_functions hreads htokens).sublist List.filter_sublist

theorem isInOrder_extractFile (disk : Disk) (settings : Settings) (p : Path) :
    Outcome.IsInOrder ⟨p, extractFile disk settings p⟩ := by
  unfold extractFile
  split
  · exact isInOrder_extract p settings _
  · exact nofun

theorem files_singleton {disk : Disk} {p : Path} (settings : Settings)
    (h : ∀ entries, disk p ≠ .ok (.directory entries)) :
    Discovery.files disk settings [p] = [p] := by
  have hexpand : Discovery.expand disk settings p = [p] := by
    unfold Discovery.expand
    split
    · rename_i entries hp
      exact absurd hp (h entries)
    · rfl
  rw [Discovery.files, List.flatMap_singleton, hexpand, List.mergeSort_singleton]
  rfl

/-- **A run on a single file gives the report of that file.** -/
theorem checkPaths_singleton {disk : Disk} {p : Path} (settings : Settings)
    (h : ∀ entries, disk p ≠ .ok (.directory entries)) :
    checkPaths disk settings false [p] = checkFile disk settings p := by
  rw [checkPaths_eq, files_singleton settings h, List.map_singleton, Report.total_singleton]
  exact Outcome.sort_report (isInOrder_extractFile disk settings p)

/-- **The report of one file is in report order as it comes** — sorting changes neither what was
found in a file, if its lines increase, nor what is found in any source or file.  So a run on a
path that is no directory gives the report of that file, which lists the diagnostics of its
functions from the first line to the last. -/
theorem single_file_in_order (settings : Settings) :
    (∀ o : Outcome, o.IsInOrder → (o.report settings).sort = o.report settings) ∧
    (∀ path source, (checkSource path settings source).sort = checkSource path settings source) ∧
    ∀ (disk : Disk) (p : Path),
      (checkFile disk settings p).sort = checkFile disk settings p ∧
      ((∀ entries, disk p ≠ .ok (.directory entries)) →
        checkPaths disk settings false [p] = checkFile disk settings p) ∧
      ∀ definitions, extractFile disk settings p = .ok definitions →
        (definitions.Pairwise fun a b => a.signature.location.line < b.signature.location.line) ∧
        (checkFile disk settings p).diagnostics
          = definitions.flatMap (Definition.check settings) := by
  refine ⟨fun o h => Outcome.sort_report h, fun path source => ?_, fun disk p => ⟨?_, ?_, ?_⟩⟩
  · exact Outcome.sort_report (isInOrder_extract path settings source)
  · exact Outcome.sort_report (isInOrder_extractFile disk settings p)
  · exact checkPaths_singleton settings
  · intro definitions hfound
    refine ⟨(isInOrder_extractFile disk settings p definitions hfound).2, ?_⟩
    rw [checkFile, hfound]
    rfl

/-- A file whose functions do not come in the order of their names. -/
def fileInOrder : Outcome :=
  ⟨⟨"m.py"⟩, .ok [⟨.bare "g" ⟨⟨"m.py"⟩, 3⟩, none, false⟩,
    ⟨.bare "f" ⟨⟨"m.py"⟩, 8⟩, some ":broken", false⟩]⟩

/-- A directory with such a file. -/
def singleSource : FileTree :=
  .directory [("m.py", .file (.text "def g(x): pass\ndef f(): pass\n"))]

/-- What was found in a file, a file that is there, and one that is missing. -/
theorem single_file_in_order_sample :
    (fileInOrder.IsInOrder ∧ (fileInOrder.report {}).sort = fileInOrder.report {}) ∧
    (∃ definitions, extractFile singleSource.at? {} ⟨"m.py"⟩ = .ok definitions ∧
      (definitions.map fun d => (d.signature.qualifiedName, d.signature.location.line))
        = [("g", 1), ("f", 2)] ∧
      (checkPaths singleSource.at? {} false [⟨"m.py"⟩]).diagnostics
        = definitions.flatMap (Definition.check {})) ∧
    checkPaths singleSource.at? {} false [⟨"none.py"⟩]
      = checkFile singleSource.at? {} ⟨"none.py"⟩ := by
  obtain ⟨hreport, -, hfile⟩ := single_file_in_order {}
  have horder : fileInOrder.IsInOrder := by
    intro definitions hfound
    obtain rfl := Except.ok.inj hfound
    decide
  obtain ⟨definitions, hfound, hnames⟩ : ∃ definitions,
      extractFile singleSource.at? {} ⟨"m.py"⟩ = .ok definitions ∧
      (definitions.map fun d => (d.signature.qualifiedName, d.signature.location.line))
        = [("g", 1), ("f", 2)] :=
    Python.exists_ok_of_toOption_map (by decide +kernel)
  obtain ⟨-, hpaths, hlisted⟩ := hfile singleSource.at? ⟨"m.py"⟩
  refine ⟨⟨horder, hreport fileInOrder horder⟩, ⟨definitions, hfound, hnames, ?_⟩, ?_⟩
  · rw [hpaths nofun]
    exact (hlisted definitions hfound).2
  · exact (hfile singleSource.at? ⟨"none.py"⟩).2.1 nofun

end DocAudit
