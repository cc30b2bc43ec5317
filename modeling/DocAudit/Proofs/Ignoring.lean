import DocAudit.Proofs.WithinFunction
import DocAudit.Run

/-!
# Proofs/Ignoring — ignoring categories is filtering the report

Categories are switched off at three places: before an analysis sorts and drops repeats, before a
check adds a broken line, and before a file is reported as unreadable.  Everything after these
places commutes with dropping categories — sorting because it is stable (`filter_mergeSort`),
dropping repeats because the category is a part of the key (`firstsBy_filter`), merging because it
only appends — so a run under any settings is the run that ignores nothing, filtered
(`ignoring_eq_filtering`).
-/

namespace DocAudit

open Analysis

/-- The same settings with no category ignored. -/
def Settings.reportingAll (s : Settings) : Settings :=
  { s with ignores := fun _ => false }

/-- The report with only the diagnostics of the categories that a test admits. -/
def Report.restrict (p : Category → Bool) (r : Report) : Report :=
  { r with diagnostics := r.diagnostics.filter fun d => p d.category }

/-! ## One function -/

theorem filter_reportingAll (settings : Settings) (ds : List Diagnostic) :
    (ds.filter fun d => settings.reportingAll.reports d.category) = ds :=
  List.filter_eq_self.mpr fun _ _ => rfl

/-- Dropping categories first is dropping them from what all categories give. -/
theorem finish_eq_filter (settings : Settings) (ds : List Diagnostic) :
    finish settings ds
      = (finish settings.reportingAll ds).filter fun d => settings.reports d.category := by
  rw [finish, finish, filter_reportingAll, ← filter_sortBy]
  exact firstsBy_filter Diagnostic.key (fun k => settings.reports k.1) _

theorem analyze_eq_filter (signature : Signature) (docstring : Option (List Field))
    (settings : Settings) :
    analyze signature docstring settings
      = (analyze signature docstring settings.reportingAll).filter
          fun d => settings.reports d.category := by
  -- The remarks and their severities do not look at the ignored categories.
  have hremarks : remarksOn signature settings.reportingAll docstring
      = remarksOn signature settings docstring := by rcases docstring with _ | fields <;> rfl
  rw [analyze_eq_finish, analyze_eq_finish, hremarks]
  exact finish_eq_filter settings _

namespace Definition

theorem check_eq_filter (settings : Settings) (d : Definition) :
    d.check settings
      = (d.check settings.reportingAll).filter fun x => settings.reports x.category := by
  have hbroken : d.brokenLineDiagnostics settings
      = (d.brokenLineDiagnostics settings.reportingAll).filter
          fun x => settings.reports x.category := by
    rw [brokenLineDiagnostics, brokenLineDiagnostics, filter_reportingAll]
  rw [check_eq_sortBy, check_eq_sortBy]
  split
  · rfl
  · rw [filter_sortBy, List.filter_append, ← analyze_eq_filter, ← hbroken]

end Definition

/-! ## Reports -/

namespace Report

variable (p : Category → Bool)

theorem restrict_merge (a b : Report) :
    (a.merge b).restrict p = (a.restrict p).merge (b.restrict p) := by
  simp only [restrict, merge, List.filter_append]

theorem restrict_sort (r : Report) : r.sort.restrict p = (r.restrict p).sort := by
  simp only [restrict, sort, filter_sortBy]

theorem restrict_foldl_merge (rs : List Report) (r : Report) :
    (rs.foldl merge r).restrict p = (rs.map (restrict p)).foldl merge (r.restrict p) := by
  induction rs generalizing r with
  | nil => rfl
  | cons a rs ih =>
    rw [List.foldl_cons, List.map_cons, List.foldl_cons, ← restrict_merge]
    exact ih (r.merge a)

/-- **Gathering commutes with dropping categories.** -/
theorem restrict_gather (rs : List Report) :
    (gather rs).restrict p = gather (rs.map (restrict p)) := by
  rw [gather, restrict_sort, restrict_foldl_merge]
  rfl

theorem ofExtraction_eq_restrict (path : Path) (settings : Settings)
    (found : Except SourceError (List Definition)) :
    ofExtraction path settings found
      = (ofExtraction path settings.reportingAll found).restrict settings.reports := by
  rcases found with error | definitions
  · have hcategory : (sourceDiagnostic path error).category = .invalidSource := rfl
    have hall : settings.reportingAll.reports .invalidSource = true := rfl
    by_cases h : settings.reports .invalidSource = true <;>
      simp [ofExtraction, restrict, hcategory, hall, h]
  · have hcheck : Definition.check settings = fun d =>
        (d.check settings.reportingAll).filter fun x => settings.reports x.category :=
      funext fun d => d.check_eq_filter settings
    simp only [ofExtraction, restrict, List.filter_flatMap, hcheck]

end Report

/-! ## Runs

A walk looks at the names that the settings exclude and at nothing else of them. -/

namespace Discovery

variable {s s' : Settings}

mutual

theorem walk_congr (h : s.exclude = s'.exclude) (p : Path) : ∀ tree : FileTree,
    walk s p tree = walk s' p tree
  | .file _ => by rw [walk, walk]
  | .directory entries => by rw [walk, walk, walkEntries_congr h p entries]

theorem walkEntries_congr (h : s.exclude = s'.exclude) (p : Path) :
    ∀ entries : List (String × FileTree), walkEntries s p entries = walkEntries s' p entries
  | [] => by rw [walkEntries, walkEntries]
  | (name, tree) :: entries => by
      have hskips : skips s name tree = skips s' name tree := by rw [skips, skips, h]
      rw [walkEntries, walkEntries, hskips, walk_congr h (p.child name) tree,
        walkEntries_congr h p entries]

end

theorem files_congr (h : s.exclude = s'.exclude) (disk : Disk) (paths : List Path) :
    files disk s paths = files disk s' paths := by
  have hexpand : expand disk s = expand disk s' := by
    funext p
    unfold expand
    split
    · exact walkEntries_congr h p _
    · rfl
  rw [files, files, hexpand]

end Discovery

theorem checkPaths_eq_restrict (disk : Disk) (settings : Settings) (cancelled : Bool)
    (paths : List Path) :
    checkPaths disk settings cancelled paths
      = (checkPaths disk settings.reportingAll cancelled paths).restrict settings.reports := by
  have hfile : ∀ p, checkFile disk settings p
      = (checkFile disk settings.reportingAll p).restrict settings.reports := fun p =>
    Report.ofExtraction_eq_restrict p settings _
  have hexclude : settings.reportingAll.exclude = settings.exclude := rfl
  rw [checkPaths, checkPaths, Report.restrict_gather, List.map_map,
    Discovery.files_congr hexclude disk paths]
  refine congrArg Report.gather (List.map_congr_left fun p _ => ?_)
  rcases cancelled with _ | _
  · exact hfile p
  · rfl

/-- **Ignoring categories is filtering** — the check of every function, and the report of every run,
loses exactly the diagnostics of the ignored categories and keeps all else as it is. -/
theorem ignoring_eq_filtering (settings : Settings) :
    (∀ d : Definition, d.check settings
      = (d.check settings.reportingAll).filter fun x => !settings.ignores x.category) ∧
    ∀ (disk : Disk) (cancelled : Bool) (paths : List Path),
      (checkPaths disk settings cancelled paths).diagnostics
          = (checkPaths disk settings.reportingAll cancelled paths).diagnostics.filter
              (fun x => !settings.ignores x.category) ∧
        (checkPaths disk settings cancelled paths).filesChecked
          = (checkPaths disk settings.reportingAll cancelled paths).filesChecked ∧
        (checkPaths disk settings cancelled paths).functionsChecked
          = (checkPaths disk settings.reportingAll cancelled paths).functionsChecked ∧
        (checkPaths disk settings cancelled paths).aborted
          = (checkPaths disk settings.reportingAll cancelled paths).aborted := by
  refine ⟨fun d => d.check_eq_filter settings, fun disk cancelled paths => ?_⟩
  rw [checkPaths_eq_restrict disk settings cancelled paths]
  exact ⟨rfl, rfl, rfl, rfl⟩

end DocAudit
