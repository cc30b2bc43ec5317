import DocAudit.Discovery
import DocAudit.Proofs.FirstMentions
import DocAudit.Proofs.ReportOrder
import DocAudit.Proofs.Sorting
import Mathlib.Data.List.TakeWhile

/-!
# Proofs/DiscoveredFiles — which files a run checks

A walk finds the files that a chain of entries leads to (`Discovery.Reaches`): every directory on
the way is walked, no name on the way is excluded, and the chain ends in a regular file with the
name of a source file.  `exists_reaches_of_mem_walk` and `mem_walkEntries_of_reaches` say so of the
walk of one directory, the first by recursion on the tree and the second on the chain.

The list of all files is then known by its steps alone: it increases strictly
(`pairwise_lt_files`), and a path is in it, up to its spelling, iff it was given and is no directory
or is a given directory followed by such a chain (`files_exact`).

Names of entries are plain names (`FileTree.WellNamed`), so that a step down adds one step to the
path (`Path.components_child`).
-/

namespace DocAudit

/-! ## Names of entries -/

/-- A name that an entry of a directory can have. -/
structure IsEntryName (name : String) : Prop where
  ne_nil : name.toList ≠ []
  ne_dot : name.toList ≠ ['.']
  ne_dots : name.toList ≠ ['.', '.']
  no_slash : '/' ∉ name.toList

instance (name : String) : Decidable (IsEntryName name) :=
  decidable_of_iff
    (name.toList ≠ [] ∧ name.toList ≠ ['.'] ∧ name.toList ≠ ['.', '.'] ∧ '/' ∉ name.toList)
    ⟨fun h => ⟨h.1, h.2.1, h.2.2.1, h.2.2.2⟩,
      fun h => ⟨h.ne_nil, h.ne_dot, h.ne_dots, h.no_slash⟩⟩

/-- All entries of the tree have names that entries can have. -/
inductive FileTree.WellNamed : FileTree → Prop
  | file (content : Content) : WellNamed (file content)
  | directory {entries : List (String × FileTree)} (hname : ∀ e ∈ entries, IsEntryName e.1)
      (hentry : ∀ e ∈ entries, WellNamed e.2) : WellNamed (directory entries)

/-- All trees on the disk are well-named. -/
def Disk.WellNamed (disk : Disk) : Prop :=
  ∀ p tree, disk p = .ok tree → tree.WellNamed

namespace FileTree

theorem wellNamed_directory_iff {entries : List (String × FileTree)} :
    (directory entries).WellNamed ↔
      (∀ e ∈ entries, IsEntryName e.1) ∧ ∀ e ∈ entries, e.2.WellNamed := by
  constructor
  · intro h
    cases h with
    | directory hname hentry => exact ⟨hname, hentry⟩
  · rintro ⟨hname, hentry⟩
    exact .directory hname hentry

theorem wellNamed_of_lookup {entries : List (String × FileTree)} {name : String} {tree : FileTree}
    (h : (directory entries).WellNamed) (hlookup : entries.lookup name = some tree) :
    tree.WellNamed := by
  obtain ⟨before, behind, rfl, -⟩ := List.lookup_eq_some_iff.mp hlookup
  exact (wellNamed_directory_iff.mp h).2 (name, tree) (by simp)

/-- Following a path leads from well-named trees to well-named trees. -/
theorem wellNamed_follow {above : List FileTree} {here tree : FileTree}
    {segments : List (List Char)} (habove : ∀ t ∈ above, t.WellNamed) (hhere : here.WellNamed)
    (h : follow above here segments = .ok tree) : tree.WellNamed := by
  fun_induction follow above here segments with
  | case1 =>
    cases h
    exact hhere
  | case2 => cases h
  | case3 above entries segment rest hskip ih => exact ih habove hhere h
  | case4 => cases h
  | case5 entries rest up above hskip ih =>
    exact ih (fun t ht => habove t (List.mem_cons_of_mem up ht)) (habove up List.mem_cons_self) h
  | case6 => cases h
  | case7 above entries segment rest hskip hup inner hlookup ih =>
    refine ih (fun t ht => ?_) (wellNamed_of_lookup hhere hlookup) h
    rcases List.mem_cons.mp ht with rfl | ht
    · exact hhere
    · exact habove t ht

theorem WellNamed.disk {tree : FileTree} (h : tree.WellNamed) : Disk.WellNamed tree.at? := by
  intro p found hfound
  unfold at? at hfound
  split at hfound
  · cases hfound
  · cases hfound
  · exact wellNamed_follow (fun t ht => absurd ht List.not_mem_nil) h hfound

end FileTree

namespace Path

/-! ## One step down -/

/-- The steps that the first segment of a path stands for, if more segments follow. -/
def leadingSteps (first : List Char) : List Component :=
  if first = [] then [.root]
  else if first = ['.'] then [.current]
  else (Component.ofSegment? first).toList

theorem stepsOf_cons {first : List Char} {rest : List (List Char)} (h : first ≠ [] ∨ rest ≠ []) :
    stepsOf (first :: rest) = leadingSteps first ++ rest.filterMap Component.ofSegment? := by
  rcases first with _ | ⟨c, first⟩
  · rcases rest with _ | ⟨next, rest⟩
    · simp at h
    · rfl
  · simp [stepsOf, leadingSteps]

theorem ofSegment?_entryName {name : String} (h : IsEntryName name) :
    Component.ofSegment? name.toList = some (.name name) := by
  simp [Component.ofSegment?, h.ne_nil, h.ne_dot, h.ne_dots]

theorem segments_of_append {p : Path} {t : List Char} {name : String} (hname : IsEntryName name)
    (h : p.text.toList = t ++ '/' :: name.toList) :
    p.segments = t.splitOn '/' ++ [name.toList] := by
  rw [segments, h, List.splitOn_append_cons_self, List.splitOn_eq_singleton hname.no_slash]

theorem exists_written_segments {s : List Char} (h : s ≠ []) :
    ∃ first rest, s.splitOn '/' = first :: rest ∧ (first ≠ [] ∨ rest ≠ []) := by
  obtain ⟨first, rest, hfirst⟩ := List.exists_cons_of_ne_nil (List.splitOn_ne_nil '/' s)
  refine ⟨first, rest, hfirst, ?_⟩
  -- Otherwise the only segment is empty, and so is the text.
  by_contra hnone
  obtain ⟨rfl, rfl⟩ : first = [] ∧ rest = [] := by simpa using hnone
  have htext : ['/'].intercalate (s.splitOn '/') = s := List.intercalate_splitOn '/'
  rw [hfirst] at htext
  exact h htext.symm

/-- The text of a step down: a slash stands in front of the name, written before or now. -/
theorem toList_text_child {p : Path} {t : List Char} {c : Char} (h : p.text.toList = t ++ [c])
    (name : String) :
    (p.child name).text.toList
      = if c = '/' then t ++ '/' :: name.toList else p.text.toList ++ '/' :: name.toList := by
  have hlast : p.text.toList.getLast? = some c := by rw [h, List.getLast?_concat]
  unfold child
  split
  · rename_i hnone
    rw [hnone] at hlast
    cases hlast
  · rename_i hslash
    obtain rfl : '/' = c := Option.some.inj (hslash.symm.trans hlast)
    simp [h]
  · rename_i d hother hsome
    obtain rfl : d = c := Option.some.inj (hsome.symm.trans hlast)
    rw [if_neg hother]
    simp

theorem components_child_of_nil {p : Path} (hp : p.text.toList = []) {name : String}
    (h : IsEntryName name) : (p.child name).components = p.components ++ [.name name] := by
  have hchild : p.child name = ⟨name⟩ := by simp [child, hp]
  have hsegments : (Path.mk name).segments = [name.toList] := List.splitOn_eq_singleton h.no_slash
  have hnone : p.components = [] := by
    rw [components, segments, hp]
    rfl
  rw [hchild, hnone, components, hsegments, stepsOf_cons (.inl h.ne_nil)]
  simp [leadingSteps, h.ne_nil, h.ne_dot, ofSegment?_entryName h]

/-- The slash at the end leaves an empty segment, which is no step. -/
theorem components_child_of_slash {p : Path} {t : List Char} (hp : p.text.toList = t ++ ['/'])
    {name : String} (h : IsEntryName name) :
    (p.child name).components = p.components ++ [.name name] := by
  have hsegments : p.segments = t.splitOn '/' ++ [[]] := by
    rw [segments, hp, List.splitOn_append_cons_self, List.splitOn_nil]
  have hchild := segments_of_append h ((toList_text_child hp name).trans (if_pos rfl))
  obtain ⟨first, rest, hfirst⟩ := List.exists_cons_of_ne_nil (List.splitOn_ne_nil '/' t)
  rw [components, components, hsegments, hchild, hfirst, List.cons_append, List.cons_append,
    stepsOf_cons (.inr (by simp)), stepsOf_cons (.inr (by simp)), List.filterMap_append,
    List.filterMap_append]
  have hblank : Component.ofSegment? [] = none := rfl
  simp [hblank, ofSegment?_entryName h]

theorem components_child_of_ne_slash {p : Path} {t : List Char} {c : Char}
    (hp : p.text.toList = t ++ [c]) (hc : c ≠ '/') {name : String} (h : IsEntryName name) :
    (p.child name).components = p.components ++ [.name name] := by
  have hchild := segments_of_append h ((toList_text_child hp name).trans (if_neg hc))
  obtain ⟨first, rest, hfirst, hwritten⟩ :=
    exists_written_segments (s := p.text.toList) (by simp [hp])
  rw [components, components, hchild, segments, hfirst, List.cons_append,
    stepsOf_cons (.inr (by simp)), stepsOf_cons hwritten, List.filterMap_append]
  simp [ofSegment?_entryName h]

/-- **A step down adds one step to a path**, whatever its spelling. -/
theorem components_child (p : Path) {name : String} (h : IsEntryName name) :
    (p.child name).components = p.components ++ [.name name] := by
  rcases List.eq_nil_or_concat p.text.toList with hp | ⟨t, c, hp⟩
  · exact components_child_of_nil hp h
  · rw [List.concat_eq_append] at hp
    by_cases hc : c = '/'
    · exact components_child_of_slash (hc ▸ hp) h
    · exact components_child_of_ne_slash hp hc h

/-! ## Source files -/

/-- An extension stands behind the last dot, and something stands in front of that dot. -/
theorem extensionOf?_eq_some_iff {name ext : List Char} :
    extensionOf? name = some ext ↔
      ∃ stem, stem ≠ [] ∧ name = stem ++ '.' :: ext ∧ '.' ∉ ext := by
  constructor
  · intro h
    have hcut := List.takeWhile_append_dropWhile (p := (· != '.')) (l := name.reverse)
    unfold extensionOf? at h
    split at h
    · cases h
    · cases h
    · rename_i hnil hsingle
      obtain ⟨c, t, hct⟩ := List.exists_cons_of_ne_nil hnil
      have hdot : c = '.' := by
        have hhead := List.head?_dropWhile_not (· != '.') name.reverse
        rw [hct] at hhead
        simpa using hhead
      have ht : t ≠ [] := by
        rintro rfl
        exact hsingle c hct
      refine ⟨t.reverse, by simpa using ht, ?_, ?_⟩
      · rw [← List.reverse_reverse name, ← hcut, hct, hdot, List.reverse_append,
          List.reverse_cons, List.append_assoc, Option.some.inj h]
        rfl
      · rw [← Option.some.inj h, List.mem_reverse]
        exact fun hmem => by simpa using List.mem_takeWhile_imp hmem
  · rintro ⟨stem, hstem, rfl, hext⟩
    have hpass : ∀ c ∈ ext.reverse, (c != '.') = true := fun c hc => by
      rw [bne_iff_ne]
      rintro rfl
      exact hext (List.mem_reverse.mp hc)
    obtain ⟨c, t, hct⟩ := List.exists_cons_of_ne_nil (List.reverse_ne_nil_iff.mpr hstem)
    have hreverse : (stem ++ '.' :: ext).reverse = ext.reverse ++ '.' :: c :: t := by
      rw [List.reverse_append, List.reverse_cons, hct, List.append_assoc]
      rfl
    simp only [extensionOf?, hreverse]
    rw [List.dropWhile_append_of_pos hpass, List.takeWhile_append_of_pos hpass]
    simp

theorem fileName?_child (p : Path) {name : String} (h : IsEntryName name) :
    (p.child name).fileName? = some name := by
  rw [fileName?, components_child p h, List.getLast?_concat]

end Path

namespace Discovery

/-- The name of a source file: something in front of its last dot, and `py` or `pyi` behind it. -/
def IsSourceName (name : String) : Prop :=
  ∃ stem ext, stem ≠ "" ∧ ext ∈ ["py", "pyi"] ∧ name = stem ++ "." ++ ext

theorem isSource_child_iff (p : Path) {name : String} (h : IsEntryName name) :
    isSource (p.child name) = true ↔ IsSourceName name := by
  have hextension : (p.child name).extension?
      = (Path.extensionOf? name.toList).map String.ofList := by
    rw [Path.extension?, Path.fileName?_child p h, Option.bind_some]
  rw [isSource, hextension]
  constructor
  · rcases hname : Path.extensionOf? name.toList with _ | ext
    · nofun
    · intro hmem
      obtain ⟨stem, hstem, htext, -⟩ := Path.extensionOf?_eq_some_iff.mp hname
      refine ⟨String.ofList stem, String.ofList ext, by simpa using hstem,
        List.contains_iff_mem.mp hmem, ?_⟩
      rw [← String.toList_inj, htext]
      simp
  · rintro ⟨stem, ext, hstem, hext, rfl⟩
    have hdot : '.' ∉ ext.toList := by
      rcases hext with _ | ⟨_, _ | ⟨_, hext⟩⟩
      · decide
      · decide
      · cases hext
    have hname : Path.extensionOf? (stem ++ "." ++ ext).toList = some ext.toList :=
      Path.extensionOf?_eq_some_iff.mpr ⟨stem.toList, by simpa using hstem, by simp, hdot⟩
    rw [hname]
    simpa [sourceExtensions] using hext

/-! ## Walks -/

/-- The names lead from the entries of a directory to a source file, past nothing that a walk
leaves out. -/
inductive Reaches (settings : Settings) : List (String × FileTree) → List String → Prop
  | file {entries : List (String × FileTree)} {name : String} {content : Content}
      (hmem : (name, .file content) ∈ entries) (hexclude : name ∉ settings.exclude)
      (hsource : IsSourceName name) : Reaches settings entries [name]
  | directory {entries inner : List (String × FileTree)} {name : String} {names : List String}
      (hmem : (name, .directory inner) ∈ entries) (hexclude : name ∉ settings.exclude)
      (hdot : name.toList.head? ≠ some '.') (hcache : name ≠ "__pycache__")
      (hrest : Reaches settings inner names) : Reaches settings entries (name :: names)

/-- The path that goes down the names. -/
def descend (p : Path) (names : List String) : Path :=
  names.foldl Path.child p

variable {settings : Settings}

theorem skips_file_iff {name : String} {content : Content} :
    skips settings name (.file content) = false ↔ name ∉ settings.exclude := by
  simp [skips, FileTree.isDirectory]

theorem skips_directory_iff {name : String} {inner : List (String × FileTree)} :
    skips settings name (.directory inner) = false ↔
      name ∉ settings.exclude ∧ name.toList.head? ≠ some '.' ∧ name ≠ "__pycache__" := by
  simp [skips, FileTree.isDirectory, isHidden]

/-- A walk visits each entry that it does not leave out. -/
theorem mem_walkEntries {p q : Path} {entries : List (String × FileTree)} :
    q ∈ walkEntries settings p entries ↔
      ∃ name tree, (name, tree) ∈ entries ∧ skips settings name tree = false ∧
        q ∈ walk settings (p.child name) tree := by
  induction entries with
  | nil => simp [walkEntries]
  | cons e entries ih =>
    obtain ⟨name, tree⟩ := e
    rw [walkEntries, List.mem_append, ih]
    constructor
    · rintro (h | ⟨n, t, hmem, h⟩)
      · split at h
        · cases h
        · rename_i hskip
          exact ⟨name, tree, List.mem_cons_self, Bool.eq_false_iff.mpr hskip, h⟩
      · exact ⟨n, t, List.mem_cons_of_mem _ hmem, h⟩
    · rintro ⟨n, t, hmem, hskip, h⟩
      rcases List.mem_cons.mp hmem with heq | hmem
      · obtain ⟨rfl, rfl⟩ := Prod.mk.inj heq
        rw [if_neg (by simp [hskip])]
        exact .inl h
      · exact .inr ⟨n, t, hmem, hskip, h⟩

/-- What a walk finds is reached; by recursion on the tree below the directory. -/
theorem exists_reaches_of_mem_walk {tree : FileTree} (h : tree.WellNamed)
    {entries : List (String × FileTree)} (htree : tree = .directory entries) {p q : Path}
    (hq : q ∈ walkEntries settings p entries) :
    ∃ names, Reaches settings entries names ∧ q = descend p names := by
  induction h generalizing entries p with
  | file => cases htree
  | directory hname hentry ih =>
    cases htree
    obtain ⟨name, tree, hmem, hskip, hq⟩ := mem_walkEntries.mp hq
    cases tree with
    | file content =>
      rw [walk] at hq
      split at hq
      · rename_i hsource
        refine ⟨[name], .file hmem (skips_file_iff.mp hskip) ?_, List.mem_singleton.mp hq⟩
        exact (isSource_child_iff p (hname _ hmem)).mp hsource
      · cases hq
    | directory inner =>
      rw [walk] at hq
      obtain ⟨names, hnames, rfl⟩ := ih _ hmem rfl hq
      obtain ⟨hexclude, hdot, hcache⟩ := skips_directory_iff.mp hskip
      exact ⟨name :: names, .directory hmem hexclude hdot hcache hnames, rfl⟩

/-- What is reached is found. -/
theorem mem_walkEntries_of_reaches {entries : List (String × FileTree)} {names : List String}
    (h : Reaches settings entries names) (hentries : (FileTree.directory entries).WellNamed)
    (p : Path) : descend p names ∈ walkEntries settings p entries := by
  induction h generalizing p with
  | @file entries name content hmem hexclude hsource =>
    have hname := (FileTree.wellNamed_directory_iff.mp hentries).1 _ hmem
    refine mem_walkEntries.mpr ⟨name, .file content, hmem, skips_file_iff.mpr hexclude, ?_⟩
    rw [walk, if_pos ((isSource_child_iff p hname).mpr hsource)]
    exact List.mem_singleton_self _
  | @directory entries inner name names hmem hexclude hdot hcache hrest ih =>
    have hinner := (FileTree.wellNamed_directory_iff.mp hentries).2 _ hmem
    refine mem_walkEntries.mpr
      ⟨name, .directory inner, hmem, skips_directory_iff.mpr ⟨hexclude, hdot, hcache⟩, ?_⟩
    rw [walk]
    exact ih hinner (p.child name)

/-- The names on the way are names of entries, so each of them is one step. -/
theorem components_descend {entries : List (String × FileTree)} {names : List String}
    (h : Reaches settings entries names) (hentries : (FileTree.directory entries).WellNamed)
    (p : Path) : (descend p names).components = p.components ++ names.map .name := by
  induction h generalizing p with
  | file hmem => exact p.components_child ((FileTree.wellNamed_directory_iff.mp hentries).1 _ hmem)
  | @directory entries inner name names hmem hexclude hdot hcache hrest ih =>
    obtain ⟨hname, hinner⟩ := FileTree.wellNamed_directory_iff.mp hentries
    have hstep : (descend (p.child name) names).components
        = (p.child name).components ++ names.map .name := ih (hinner _ hmem) (p.child name)
    rw [p.components_child (hname _ hmem), List.append_assoc] at hstep
    exact hstep

/-! ## All given paths -/

variable {disk : Disk} {paths : List Path}

theorem mem_expand_of_ne_directory {p q : Path}
    (h : ∀ entries, disk p ≠ .ok (.directory entries)) :
    q ∈ expand disk settings p ↔ q = p := by
  unfold expand
  split
  · rename_i entries hp
    exact absurd hp (h entries)
  · exact List.mem_singleton

theorem mem_expand_of_directory {p q : Path} {entries : List (String × FileTree)}
    (hdisk : disk.WellNamed) (h : disk p = .ok (.directory entries)) :
    q ∈ expand disk settings p ↔ ∃ names, Reaches settings entries names ∧ q = descend p names := by
  have hentries := hdisk p _ h
  simp only [expand, h]
  refine ⟨exists_reaches_of_mem_walk hentries rfl, ?_⟩
  rintro ⟨names, hnames, rfl⟩
  exact mem_walkEntries_of_reaches hnames hentries p

theorem mem_components_files {k : List Path.Component} :
    k ∈ (files disk settings paths).map Path.components ↔
      ∃ p ∈ paths, ∃ q ∈ expand disk settings p, q.components = k := by
  rw [files, mem_map_firstsBy, List.mem_map]
  simp only [List.mem_mergeSort, List.mem_flatMap]
  constructor
  · rintro ⟨q, ⟨p, hp, hq⟩, rfl⟩
    exact ⟨p, hp, q, hq, rfl⟩
  · rintro ⟨p, hp, q, hq, rfl⟩
    exact ⟨q, ⟨p, hp, hq⟩, rfl⟩

/-- **The files are in strict path order**: sorting puts equal paths side by side, and one of them
stays. -/
theorem pairwise_lt_files :
    (files disk settings paths).Pairwise fun a b => compare a b = .lt := by
  have hsorted : (files disk settings paths).Pairwise fun a b => (compare a b).isLE :=
    (Sorting.pairwise_isLE_mergeSort _).sublist (firstsBy_sublist _ _)
  have hdistinct : (files disk settings paths).Pairwise fun a b => a.components ≠ b.components :=
    List.pairwise_map.mp (nodup_map_firstsBy _ _)
  refine (hsorted.and hdistinct).imp fun {a b} h => ?_
  exact Sorting.lt_of_isLE_of_ne h.1 fun heq => h.2 (Path.compare_eq_iff.mp heq)

/-- The files are known by their steps, and their steps by the paths that were given, in any order
and any number. -/
theorem components_files_congr {paths' : List Path} (h : ∀ p, p ∈ paths' ↔ p ∈ paths) :
    (files disk settings paths').map Path.components
      = (files disk settings paths).map Path.components := by
  have hlt : ∀ ps, ((files disk settings ps).map Path.components).Pairwise
      fun a b => compare a b = .lt := fun ps => List.pairwise_map.mpr pairwise_lt_files
  have hmem : ∀ k, k ∈ (files disk settings paths').map Path.components ↔
      k ∈ (files disk settings paths).map Path.components := fun k => by
    simp only [mem_components_files, h]
  have hperm := (List.perm_ext_iff_of_nodup (nodup_map_firstsBy Path.components _)
    (nodup_map_firstsBy Path.components _)).mpr hmem
  exact Sorting.eq_of_perm_of_pairwise_lt hperm (hlt paths') (hlt paths)

/-- The path was given, up to its spelling, and is no directory. -/
def IsGiven (disk : Disk) (paths : List Path) (p : Path) : Prop :=
  ∃ g ∈ paths, (∀ entries, disk g ≠ .ok (.directory entries)) ∧ p.components = g.components

/-- The path is a given directory, up to its spelling, followed by names that reach a source
file. -/
def IsBelowGiven (disk : Disk) (settings : Settings) (paths : List Path) (p : Path) : Prop :=
  ∃ d ∈ paths, ∃ entries names, disk d = .ok (.directory entries) ∧
    Reaches settings entries names ∧ p.components = d.components ++ names.map .name

theorem exists_mem_files_iff (hdisk : disk.WellNamed) (p : Path) :
    (∃ q ∈ files disk settings paths, q.components = p.components) ↔
      IsGiven disk paths p ∨ IsBelowGiven disk settings paths p := by
  rw [← List.mem_map, mem_components_files]
  constructor
  · rintro ⟨g, hg, q, hq, hcomponents⟩
    by_cases hdirectory : ∃ entries, disk g = .ok (.directory entries)
    · obtain ⟨entries, hentries⟩ := hdirectory
      obtain ⟨names, hnames, rfl⟩ := (mem_expand_of_directory hdisk hentries).mp hq
      rw [components_descend hnames (hdisk g _ hentries)] at hcomponents
      exact .inr ⟨g, hg, entries, names, hentries, hnames, hcomponents.symm⟩
    · have hnone := not_exists.mp hdirectory
      obtain rfl := (mem_expand_of_ne_directory hnone).mp hq
      exact .inl ⟨q, hg, hnone, hcomponents.symm⟩
  · rintro (⟨g, hg, hnone, hcomponents⟩ | ⟨d, hd, entries, names, hentries, hnames, hcomponents⟩)
    · exact ⟨g, hg, g, (mem_expand_of_ne_directory hnone).mpr rfl, hcomponents.symm⟩
    · refine ⟨d, hd, descend d names,
        (mem_expand_of_directory hdisk hentries).mpr ⟨names, hnames, rfl⟩, ?_⟩
      rw [components_descend hnames (hdisk d _ hentries), hcomponents]

/-- **A run checks exactly the right files** — in strict path order, those given that are no
directories and those that a given directory leads to; and it does not matter in which order or how
often paths are given. -/
theorem files_exact (hdisk : disk.WellNamed) (settings : Settings) (paths : List Path) :
    ((files disk settings paths).Pairwise fun a b => compare a b = .lt) ∧
    (∀ p, (∃ q ∈ files disk settings paths, q.components = p.components) ↔
      IsGiven disk paths p ∨ IsBelowGiven disk settings paths p) ∧
    ∀ paths', (∀ p, p ∈ paths' ↔ p ∈ paths) →
      (files disk settings paths').map Path.components
        = (files disk settings paths).map Path.components :=
  ⟨pairwise_lt_files, exists_mem_files_iff hdisk, fun _ => components_files_congr⟩

/-- A file beside a package with a hidden directory, an excluded file and one that is no source. -/
def sampleTree : FileTree :=
  .directory
    [("run", .file (.text "")),
     ("pkg", .directory
       [(".git", .directory [("x.py", .file .binary)]), ("skip.py", .file (.text "")),
        ("sub", .directory [(".a.b.pyi", .file (.text "")), ("notes.txt", .file (.text ""))])])]

theorem sampleTree_files_exact :
    sampleTree.WellNamed ∧
    (∃ q ∈ files sampleTree.at? { exclude := ["skip.py"] } [⟨"run"⟩, ⟨"pkg/"⟩],
      q.components = (Path.mk "pkg//sub/./.a.b.pyi").components) ∧
    (files sampleTree.at? { exclude := ["skip.py"] } [⟨"pkg/"⟩, ⟨"run"⟩, ⟨"pkg/"⟩]).map
        Path.components
      = (files sampleTree.at? { exclude := ["skip.py"] } [⟨"run"⟩, ⟨"pkg/"⟩]).map
        Path.components := by
  have htree : sampleTree.WellNamed := by
    simp only [sampleTree, FileTree.wellNamed_directory_iff, FileTree.WellNamed.file,
      List.forall_mem_cons, List.not_mem_nil, false_imp_iff, implies_true]
    decide
  have hexact := files_exact htree.disk { exclude := ["skip.py"] } [⟨"run"⟩, ⟨"pkg/"⟩]
  refine ⟨htree, (hexact.2.1 _).mpr (.inr ?_), hexact.2.2 _ (by simp [or_comm])⟩
  refine ⟨⟨"pkg/"⟩, by simp, _, ["sub", ".a.b.pyi"], rfl, ?_, rfl⟩
  refine .directory (.tail _ (.tail _ (.head _))) (by decide) (by decide) (by decide) ?_
  exact .file (.head _) (by decide) ⟨".a.b", "pyi", by decide, by decide, by decide⟩

end Discovery

end DocAudit
