import DocAudit.Proofs.DiscoveredFiles
import DocAudit.Proofs.MergeOrder
import DocAudit.Run

/-!
# Proofs/FilesOnce — how often a run checks a file

Entries of the list of files differ in their steps, and a leading `.` is a step.  Up to `.` steps
the steps say which file is meant (`Path.resolved`): paths that lead somewhere and have the same
resolved steps lead to the same place (`FileTree.at?_unique`).  So up to `.` steps a file is checked
twice exactly where the list holds a path and the same path behind a leading `.`
(`nodup_resolved_files_iff`).  A `..` is not resolved: `pkg/../pkg/b.py` has steps of its own and
counts as another file than `pkg/b.py`.

A walk keeps the beginning of the path it starts from, so this takes two given paths of which one
starts with `.` and the other does not (`isDotted_of_mem_files`).
-/

namespace DocAudit

namespace Path

/-! ## Resolved paths -/

/-- The steps of the path without a leading `.` step. -/
def resolved (p : Path) : List Component :=
  p.components.filter fun c => c ≠ .current

/-- The path starts with a `.` step. -/
def isDotted (p : Path) : Bool :=
  p.components.head? == some .current

/-- The first path is the second behind a leading `.` step. -/
def AddsDotTo (p q : Path) : Prop :=
  p.components = .current :: q.components

theorem ne_current_of_ofSegment? {segment : List Char} {c : Component}
    (h : Component.ofSegment? segment = some c) : c ≠ .current := by
  unfold Component.ofSegment? at h
  rintro rfl
  split at h
  · cases h
  split at h <;> cases h

theorem current_notMem_filterMap (segments : List (List Char)) :
    .current ∉ segments.filterMap Component.ofSegment? := by
  intro h
  obtain ⟨segment, -, hsegment⟩ := List.mem_filterMap.mp h
  exact ne_current_of_ofSegment? hsegment rfl

theorem filter_ne_current {steps : List Component} (h : .current ∉ steps) :
    (steps.filter fun c => c ≠ .current) = steps := by
  refine List.filter_eq_self.mpr fun c hc => ?_
  rw [decide_eq_true_eq]
  rintro rfl
  exact h hc

/-- **A `.` step stands in front of all others**, if there is one. -/
theorem exists_steps (p : Path) : ∃ steps, .current ∉ steps ∧
    (p.components = steps ∨ p.components = .current :: steps) := by
  obtain ⟨first, rest, hsegments⟩ :=
    List.exists_cons_of_ne_nil (List.splitOn_ne_nil '/' p.text.toList)
  have hrest := current_notMem_filterMap rest
  rw [components, segments, hsegments]
  by_cases hwritten : first ≠ [] ∨ rest ≠ []
  · rw [stepsOf_cons hwritten, leadingSteps]
    split
    · exact ⟨_, by simpa using hrest, .inl rfl⟩
    split
    · exact ⟨_, hrest, .inr rfl⟩
    · have hfirst := current_notMem_filterMap [first]
      refine ⟨_, fun h => ?_, .inl rfl⟩
      rcases List.mem_append.mp h with h | h
      · exact hfirst (by simpa using h)
      · exact hrest h
  · obtain ⟨rfl, rfl⟩ : first = [] ∧ rest = [] := by simpa using hwritten
    exact ⟨[], List.not_mem_nil, .inl rfl⟩

theorem components_eq (p : Path) :
    p.components = if p.isDotted then .current :: p.resolved else p.resolved := by
  obtain ⟨steps, hcurrent, hp⟩ := p.exists_steps
  rcases hp with hp | hp
  · have hhead : steps.head? ≠ some .current := fun h => hcurrent (List.mem_of_head? h)
    rw [isDotted, resolved, hp, filter_ne_current hcurrent, if_neg (by simpa using hhead)]
  · rw [isDotted, resolved, hp, List.filter_cons_of_neg (by simp), filter_ne_current hcurrent]
    rfl

theorem resolved_eq_of_addsDotTo {p q : Path} (h : p.AddsDotTo q) : p.resolved = q.resolved := by
  rw [resolved, h, List.filter_cons_of_neg (by simp), resolved]

/-- Paths with the same resolved steps differ in a leading `.` or not at all. -/
theorem addsDotTo_of_resolved_eq {p q : Path} (h : p.resolved = q.resolved) :
    p.components = q.components ∨ p.AddsDotTo q ∨ q.AddsDotTo p := by
  unfold AddsDotTo
  rw [p.components_eq, q.components_eq, h]
  cases p.isDotted <;> cases q.isDotted <;> simp

theorem isDotted_of_addsDotTo {p q : Path} (h : p.AddsDotTo q) :
    p.isDotted = true ∧ q.isDotted = false := by
  refine ⟨by rw [isDotted, h]; rfl, ?_⟩
  obtain ⟨steps, hcurrent, hp⟩ := p.exists_steps
  have hq : .current ∉ q.components := by
    rcases hp with hp | hp
    · rw [← hp, h] at hcurrent
      exact absurd List.mem_cons_self hcurrent
    · rwa [List.cons_injective (h.symm.trans hp)]
  have hhead : q.components.head? ≠ some .current := fun hhead => hq (List.mem_of_head? hhead)
  simpa [isDotted] using hhead

/-- The segment that a step is written as. -/
def segmentOf : Component → List Char
  | .root => []
  | .current => ['.']
  | .parent => ['.', '.']
  | .name label => label.toList

theorem segmentOf_of_ofSegment? {segment : List Char} {c : Component}
    (h : Component.ofSegment? segment = some c) : segmentOf c = segment := by
  unfold Component.ofSegment? at h
  split at h
  · cases h
  split at h
  · rename_i hdots
    cases h
    exact hdots.symm
  · cases h
    exact String.toList_ofList

/-- The steps of a path that does not start at the root. -/
theorem resolved_eq_filterMap {p : Path} (h : p.segments.head? ≠ some []) :
    p.resolved = p.segments.filterMap Component.ofSegment? := by
  obtain ⟨first, rest, hsegments⟩ :=
    List.exists_cons_of_ne_nil (List.splitOn_ne_nil '/' p.text.toList)
  change p.segments = first :: rest at hsegments
  rw [hsegments] at h ⊢
  have hfirst : first ≠ [] := fun hnil => h (by rw [hnil]; rfl)
  have hleading : (leadingSteps first).filter (fun c => c ≠ .current)
      = [first].filterMap Component.ofSegment? := by
    rw [leadingSteps, if_neg hfirst]
    split
    · rename_i hdot
      rw [hdot]
      rfl
    · rw [← filter_ne_current (current_notMem_filterMap [first])]
      rcases hc : Component.ofSegment? first with _ | c <;> simp [hc]
  rw [resolved, components, hsegments, stepsOf_cons (.inl hfirst), List.filter_append, hleading,
    filter_ne_current (current_notMem_filterMap rest), ← List.filterMap_append,
    List.singleton_append]

end Path

/-! ## Places -/

namespace FileTree

open DocAudit.Path

/-- On the way to a place, segments that are no steps may be left out. -/
theorem follow_steps {above : List FileTree} {here tree : FileTree}
    {segments : List (List Char)} (h : follow above here segments = .ok tree) :
    follow above here ((segments.filterMap Component.ofSegment?).map segmentOf) = .ok tree := by
  fun_induction follow above here segments with
  | case1 => exact h
  | case2 => cases h
  | case3 above entries segment rest hskip ih =>
    have hnone : Component.ofSegment? segment = none := if_pos hskip
    rw [List.filterMap_cons_none hnone]
    exact ih h
  | case4 => cases h
  | case5 entries rest up above hskip ih =>
    have hsome : Component.ofSegment? ['.', '.'] = some .parent := rfl
    rw [List.filterMap_cons_some hsome, List.map_cons]
    exact ih h
  | case6 => cases h
  | case7 above entries segment rest hskip hup inner hlookup ih =>
    have hsome : Component.ofSegment? segment = some (.name (String.ofList segment)) := by
      rw [Component.ofSegment?, if_neg hskip, if_neg hup]
    rw [List.filterMap_cons_some hsome, List.map_cons, segmentOf_of_ofSegment? hsome]
    simp only [follow, hskip, hup, if_false, hlookup]
    exact ih h

theorem follow_resolved {tree here : FileTree} {p : Path} (h : tree.at? p = .ok here) :
    follow [] tree (p.resolved.map segmentOf) = .ok here := by
  unfold at? at h
  split at h
  · cases h
  · cases h
  · rename_i hroot
    rw [resolved_eq_filterMap fun hhead => ?_]
    · exact follow_steps h
    · obtain ⟨rest, hrest⟩ := List.head?_eq_some_iff.mp hhead
      exact hroot rest hrest

/-- **Resolved steps say which place is meant.** -/
theorem at?_unique {tree here here' : FileTree} {p q : Path} (h : p.resolved = q.resolved)
    (hp : tree.at? p = .ok here) (hq : tree.at? q = .ok here') : here = here' := by
  have hplace := follow_resolved hp
  rw [h, follow_resolved hq] at hplace
  exact (Except.ok.inj hplace).symm

end FileTree

/-! ## Entries -/

namespace Discovery

variable {disk : Disk} {settings : Settings} {paths : List Path}

theorem eq_of_components_eq {p q : Path} (hp : p ∈ files disk settings paths)
    (hq : q ∈ files disk settings paths) (h : p.components = q.components) : p = q :=
  List.inj_on_of_nodup_map (nodup_map_firstsBy Path.components _) hp hq h

/-- Two entries that mean one file are the same, or one is the other behind a leading `.`. -/
theorem eq_or_addsDotTo_of_resolved_eq {p q : Path} (hp : p ∈ files disk settings paths)
    (hq : q ∈ files disk settings paths) (h : p.resolved = q.resolved) :
    p = q ∨ p.AddsDotTo q ∨ q.AddsDotTo p :=
  (Path.addsDotTo_of_resolved_eq h).imp_left (eq_of_components_eq hp hq)

/-- **Every entry means another file, unless a leading `.` sets two entries apart.** -/
theorem nodup_resolved_files_iff : ((files disk settings paths).map Path.resolved).Nodup ↔
    ∀ p ∈ files disk settings paths, ∀ q ∈ files disk settings paths, ¬p.AddsDotTo q := by
  constructor
  · intro hnodup p hp q hq hdot
    obtain rfl := List.inj_on_of_nodup_map hnodup hp hq (Path.resolved_eq_of_addsDotTo hdot)
    obtain ⟨hdotted, hplain⟩ := Path.isDotted_of_addsDotTo hdot
    exact Bool.false_ne_true (hplain.symm.trans hdotted)
  · intro hnone
    refine List.Nodup.map_on (fun p hp q hq h => ?_) (List.Nodup.of_map _ (nodup_map_firstsBy _ _))
    rcases eq_or_addsDotTo_of_resolved_eq hp hq h with heq | hdot | hdot
    · exact heq
    · exact absurd hdot (hnone p hp q hq)
    · exact absurd hdot (hnone q hq p hp)

/-- A walk keeps the beginning of the path it starts from. -/
theorem isDotted_of_mem_files (hdisk : disk.WellNamed) {dotted : Bool}
    (hpaths : ∀ p ∈ paths, p.isDotted = dotted) {q : Path} (hq : q ∈ files disk settings paths) :
    q.isDotted = dotted := by
  rcases (exists_mem_files_iff hdisk q).mp ⟨q, hq, rfl⟩ with
    ⟨g, hg, -, hcomponents⟩ | ⟨d, hd, entries, names, hentries, hnames, hcomponents⟩
  · rw [← hpaths g hg, Path.isDotted, hcomponents, Path.isDotted]
  · rw [← hpaths d hd, Path.isDotted, Path.isDotted, hcomponents]
    rcases d.components with _ | ⟨c, steps⟩
    · rcases names with _ | ⟨name, names⟩ <;> rfl
    · rfl

end Discovery

/-! ## Runs -/

open Discovery

theorem filesChecked_checkFile (disk : Disk) (settings : Settings) (p : Path) :
    (checkFile disk settings p).filesChecked = 1 :=
  Outcome.report_filesChecked ⟨p, extractFile disk settings p⟩

theorem checkPaths_eq (disk : Disk) (settings : Settings) (paths : List Path) :
    checkPaths disk settings false paths
      = (Report.total ((files disk settings paths).map (checkFile disk settings))).sort :=
  Report.gather_eq_sort_total _

/-- A run counts the entries. -/
theorem filesChecked_checkPaths (disk : Disk) (settings : Settings) (paths : List Path) :
    (checkPaths disk settings false paths).filesChecked = (files disk settings paths).length := by
  rw [checkPaths_eq]
  simp [Report.sort, Report.total, Function.comp_def, filesChecked_checkFile, List.map_const']

/-- A run reports the diagnostics of each entry. -/
theorem diagnostics_checkPaths_perm (disk : Disk) (settings : Settings) (paths : List Path) :
    (checkPaths disk settings false paths).diagnostics.Perm
      ((files disk settings paths).flatMap fun p => (checkFile disk settings p).diagnostics) := by
  rw [checkPaths_eq, ← List.flatMap_map]
  exact List.mergeSort_perm _ _

/-- **No file is checked twice, up to `.` steps**: the entries differ in their resolved steps, so
the run counts every one of these once and reports its diagnostics once.  Files that are given by
way of `..` are told apart by their steps. -/
structure ChecksOnce (disk : Disk) (settings : Settings) (paths : List Path) : Prop where
  nodup_resolved : ((files disk settings paths).map Path.resolved).Nodup
  filesChecked_eq : (checkPaths disk settings false paths).filesChecked
    = ((files disk settings paths).map Path.resolved).dedup.length
  diagnostics_perm : (checkPaths disk settings false paths).diagnostics.Perm
    ((files disk settings paths).flatMap fun p => (checkFile disk settings p).diagnostics)

theorem checksOnce_iff {disk : Disk} {settings : Settings} {paths : List Path} :
    ChecksOnce disk settings paths ↔
      ∀ p ∈ files disk settings paths, ∀ q ∈ files disk settings paths, ¬p.AddsDotTo q := by
  rw [← nodup_resolved_files_iff]
  refine ⟨ChecksOnce.nodup_resolved, fun hnodup => ⟨hnodup, ?_, diagnostics_checkPaths_perm _ _ _⟩⟩
  rw [filesChecked_checkPaths, hnodup.dedup, List.length_map]

/-- Paths that all start with `.`, or of which none does, are enough. -/
theorem checksOnce_of_isDotted {disk : Disk} (hdisk : disk.WellNamed) (settings : Settings)
    {paths : List Path} {dotted : Bool} (hpaths : ∀ p ∈ paths, p.isDotted = dotted) :
    ChecksOnce disk settings paths := by
  refine checksOnce_iff.mpr fun p hp q hq hdot => ?_
  obtain ⟨hdotted, hplain⟩ := Path.isDotted_of_addsDotTo hdot
  rw [isDotted_of_mem_files hdisk hpaths hp] at hdotted
  rw [isDotted_of_mem_files hdisk hpaths hq, hdotted] at hplain
  cases hplain

/-- **Files are checked once where paths begin alike** — resolved steps lead to one file at most,
and two entries with the same ones differ by a leading `.` only; so up to `.` steps a run checks no
file twice exactly if no entries differ like that, and none do if all given paths start with `.` or
none does, however they overlap. -/
theorem files_checked_once {tree : FileTree} (htree : tree.WellNamed) (settings : Settings)
    (paths : List Path) :
    (∀ p q here here', p.resolved = q.resolved → tree.at? p = .ok here → tree.at? q = .ok here' →
      here = here') ∧
    (∀ p ∈ files tree.at? settings paths, ∀ q ∈ files tree.at? settings paths,
      p.resolved = q.resolved → p = q ∨ p.AddsDotTo q ∨ q.AddsDotTo p) ∧
    (ChecksOnce tree.at? settings paths ↔
      ∀ p ∈ files tree.at? settings paths, ∀ q ∈ files tree.at? settings paths,
        ¬p.AddsDotTo q) ∧
    ∀ dotted, (∀ p ∈ paths, p.isDotted = dotted) → ChecksOnce tree.at? settings paths :=
  ⟨fun _ _ _ _ => FileTree.at?_unique,
    fun _ hp _ hq => eq_or_addsDotTo_of_resolved_eq hp hq,
    checksOnce_iff,
    fun _ => checksOnce_of_isDotted htree.disk settings⟩

/-- A module beside a package. -/
def packageTree : FileTree :=
  .directory
    [("a.py", .file (.text "")), ("pkg", .directory [("b.py", .file (.text ""))])]

theorem wellNamed_packageTree : packageTree.WellNamed := by
  simp only [packageTree, FileTree.wellNamed_directory_iff, FileTree.WellNamed.file,
    List.forall_mem_cons, List.not_mem_nil, false_imp_iff, implies_true]
  decide

/-- A directory beside a file and a directory inside it, in spellings that begin alike. -/
theorem packageTree_checked_once :
    packageTree.WellNamed ∧
      ChecksOnce packageTree.at? {} [⟨"./"⟩, ⟨"./pkg/b.py"⟩, ⟨".//pkg/."⟩] := by
  refine ⟨wellNamed_packageTree, (files_checked_once wellNamed_packageTree {} _).2.2.2 true ?_⟩
  decide

/-- A directory beside a file in it, spelled with a leading `.`: the file has two entries and is
counted twice. -/
theorem packageTree_checked_twice :
    files packageTree.at? {} [⟨"./pkg/b.py"⟩, ⟨"pkg"⟩] = [⟨"./pkg/b.py"⟩, ⟨"pkg/b.py"⟩] ∧
    (Path.mk "./pkg/b.py").resolved = (Path.mk "pkg/b.py").resolved ∧
    (checkPaths packageTree.at? {} false [⟨"./pkg/b.py"⟩, ⟨"pkg"⟩]).filesChecked = 2 ∧
    ¬ChecksOnce packageTree.at? {} [⟨"./pkg/b.py"⟩, ⟨"pkg"⟩] := by
  have hexpand : [⟨"./pkg/b.py"⟩, ⟨"pkg"⟩].flatMap (expand packageTree.at? {})
      = [⟨"./pkg/b.py"⟩, ⟨"pkg/b.py"⟩] := by decide
  have hfiles : files packageTree.at? {} [⟨"./pkg/b.py"⟩, ⟨"pkg"⟩]
      = [⟨"./pkg/b.py"⟩, ⟨"pkg/b.py"⟩] := by
    rw [files, hexpand, List.mergeSort_of_pairwise (by decide), firstsBy_eq_self _ (by decide)]
  refine ⟨hfiles, by decide, by rw [filesChecked_checkPaths, hfiles]; rfl, fun honce => ?_⟩
  have hnodup := honce.nodup_resolved
  rw [hfiles] at hnodup
  exact absurd hnodup (by decide)

end DocAudit
