import DocAudit.Proofs.CanonicalTypes
import DocAudit.Proofs.CleanText
import DocAudit.Proofs.FieldGrammar
import DocAudit.Proofs.MergeOrder
import DocAudit.Report.Text

/-!
# Proofs/ReportLines — a text report has one line for each diagnostic

Messages carry text from many places: names, subjects of fields, the normal forms of types, broken
lines, the reason why a file could not be read.  `Finding.texts` lists what a message is made of,
and a message is one line if all these texts are (`isUnbroken_message`).

They are, whatever the docstring and the annotations: the fields of a docstring are made of its
lines (`onOneLine_of_mem_parse`), and the normal form of a type has no white space but blanks
(`isUnbroken_normalType`).  Only names and paths are taken over as they are, and of them it has to
be assumed (`Outcome.OnOneLine`).
-/

namespace DocAudit

open DocAudit.Text

/-! ## Texts without line feeds -/

/-- The text has no line feed. -/
def IsUnbroken (s : String) : Prop :=
  '\n' ∉ s.toList

instance (s : String) : Decidable (IsUnbroken s) :=
  inferInstanceAs (Decidable ('\n' ∉ s.toList))

theorem isUnbroken_ofList {s : List Char} : IsUnbroken (String.ofList s) ↔ '\n' ∉ s := by
  simp [IsUnbroken]

/-- What does not stand in the glue nor in the pieces does not stand in the joined text. -/
theorem notMem_intercalate {c : Char} {glue : List Char} (hglue : c ∉ glue)
    {pieces : List (List Char)} (h : ∀ piece ∈ pieces, c ∉ piece) :
    c ∉ glue.intercalate pieces := by
  rw [← List.count_eq_zero, TypeExpr.count_intercalate hglue, List.count_eq_zero, List.mem_flatten]
  rintro ⟨piece, hpiece, hc⟩
  exact h piece hpiece hc

theorem isUnbroken_intercalate {glue : String} (hglue : IsUnbroken glue) {l : List String}
    (h : ∀ s ∈ l, IsUnbroken s) : IsUnbroken (glue.intercalate l) := by
  rw [IsUnbroken, String.toList_intercalate]
  refine notMem_intercalate hglue fun piece hpiece => ?_
  obtain ⟨s, hs, rfl⟩ := List.mem_map.mp hpiece
  exact h s hs

theorem isUnbroken_toString (n : Nat) : IsUnbroken (toString n) := by
  change '\n' ∉ (String.ofList (Nat.toDigits 10 n)).toList
  rw [String.toList_ofList]
  intro h
  exact absurd (Nat.isDigit_of_mem_toDigits (by decide) (by decide) h) (by decide)

/-- **The normal form of a type is one line**, however many lines the type was written on. -/
theorem isUnbroken_normalType (text : String) : IsUnbroken (normalType text) := by
  rw [normalType, isUnbroken_ofList]
  intro h
  exact absurd (TypeText.eq_blank_of_mem_respace h (by decide)) (by decide)

/-! ## Messages -/

namespace Finding

/-- The texts that a message is made of. -/
def texts : Finding → List String
  | missingDocstring | missingReturn | missingRtype => []
  | missingParam name | unknownParam name => [name]
  | typeOnOneSide name declared documented => name :: (declared.toList ++ documented.toList)
  | typeMismatch name declared documented => [name, declared, documented]
  | rtypeMismatch declared documented => [declared, documented]
  | paramOrder expected actual => expected ++ actual
  | duplicateField _ subject => subject.toList
  | malformedField _ subject reason => reason :: subject.toList
  | invalidRest line => [line]
  | invalidSource reason => [reason]

/-- The texts of the finding are lines. -/
def OnOneLine (f : Finding) : Prop :=
  ∀ t ∈ f.texts, IsUnbroken t

theorem isUnbroken_tickedMarker (field : FieldKind) (subject : Option String)
    (h : ∀ s ∈ subject, IsUnbroken s) : IsUnbroken (tickedMarker field subject) := by
  have hlabel : IsUnbroken field.label := by
    cases field <;> simp [IsUnbroken, FieldKind.label]
  rcases subject with _ | s <;> simp_all [IsUnbroken, tickedMarker, ticked]

/-- **A message is one line if its texts are.** -/
theorem isUnbroken_message {function : String} (hfunction : IsUnbroken function)
    {f : Finding} (h : f.OnOneLine) : IsUnbroken (f.message function) := by
  -- The equations of `message` are too large to be rewritten with one by one.
  unfold message
  cases f with
  | typeOnOneSide name declared documented =>
    have hmarker : IsUnbroken (tickedMarker .type (some name)) :=
      isUnbroken_tickedMarker .type (some name) (by simpa using h name (by simp [texts]))
    rcases declared with _ | declared <;> rcases documented with _ | documented <;>
      simp_all [OnOneLine, IsUnbroken, texts, ticked]
  | missingReturn =>
    have hmarker := isUnbroken_tickedMarker .returns none (by simp)
    simp_all [IsUnbroken, ticked]
  | missingRtype =>
    have hmarker := isUnbroken_tickedMarker .rtype none (by simp)
    simp_all [IsUnbroken, ticked]
  | paramOrder expected actual =>
    have hglue : IsUnbroken ", " := by simp [IsUnbroken]
    have hexpected := isUnbroken_intercalate hglue fun s hs => h s (List.mem_append_left actual hs)
    have hactual := isUnbroken_intercalate hglue fun s hs => h s (List.mem_append_right expected hs)
    simp_all [IsUnbroken, ticked]
  | duplicateField field subject =>
    have hmarker := isUnbroken_tickedMarker field subject fun s hs =>
      h s (by simpa [texts] using hs)
    simp_all [IsUnbroken, ticked]
  | malformedField field subject reason =>
    have hmarker := isUnbroken_tickedMarker field subject fun s hs =>
      h s (List.mem_cons_of_mem reason (by simpa using hs))
    have hreason := h reason List.mem_cons_self
    simp_all [IsUnbroken, ticked]
  | _ => simp_all [OnOneLine, IsUnbroken, texts, ticked]

end Finding

/-! ## Fields of a docstring -/

/-- The texts of the field are lines. -/
structure Field.OnOneLine (f : Field) : Prop where
  subject : ∀ s ∈ f.subject, IsUnbroken s
  body : IsUnbroken f.body

namespace FieldList

theorem newline_notMem_of_mem_words {s word : List Char} (h : word ∈ words s) : '\n' ∉ word := by
  intro hmem
  exact absurd (not_of_mem_splitOnP (List.mem_filter.mp h).1 '\n' hmem) (by decide)

theorem newline_notMem_unwords {ws : List (List Char)} (h : ∀ w ∈ ws, '\n' ∉ w) :
    '\n' ∉ unwords ws :=
  notMem_intercalate (by decide) h

theorem newline_notMem_unescape {s : List Char} (h : '\n' ∉ s) : '\n' ∉ unescape s :=
  fun hmem => h (List.mem_filter.mp hmem).1

theorem isUnbroken_bodyOf {pieces : List (List Char)} (h : ∀ piece ∈ pieces, '\n' ∉ piece) :
    IsUnbroken (bodyOf pieces) := by
  refine isUnbroken_ofList.mpr (newline_notMem_unwords fun w hw => ?_)
  obtain ⟨piece, hpiece, rfl⟩ := List.mem_map.mp hw
  exact fun hmem => h piece (List.mem_filter.mp hpiece).1 ((trim_sublist piece).subset hmem)

theorem isUnbroken_of_subjectIs {kind : FieldKind} {args : List (List Char)}
    {subject : Option String} (h : SubjectIs kind args subject)
    (hargs : ∀ arg ∈ args, '\n' ∉ arg) : ∀ s ∈ subject, IsUnbroken s := by
  cases h with
  | returns | rtype | absent => nofun
  | last args name =>
    rintro s ⟨⟩
    exact isUnbroken_ofList.mpr (newline_notMem_unescape (hargs name (by simp)))
  | joined =>
    rintro s ⟨⟩
    exact isUnbroken_ofList.mpr (newline_notMem_unescape (newline_notMem_unwords hargs))

/-- What stands in a block of lines are lines. -/
theorem onOneLine_of_holds {b : Block} {fs : List Field} (h : b.Holds fs)
    (hlines : ∀ l ∈ b.lines, '\n' ∉ l) : ∀ f ∈ fs, f.OnOneLine := by
  have hhead := hlines b.head List.mem_cons_self
  have hbody : ∀ {marker text : List Char}, Encloses b.head marker text →
      IsUnbroken (bodyOf (text :: b.continuation)) := by
    intro marker text hencloses
    refine isUnbroken_bodyOf (List.forall_mem_cons.mpr ⟨fun hmem => hhead ?_, fun l hl => ?_⟩)
    · rw [hencloses.1]
      simp [hmem]
    · exact hlines l (List.mem_cons_of_mem b.head hl)
  cases h with
  | broken =>
    obtain ⟨v, -, hv⟩ := exists_trimEnd_append b.head
    rw [hv] at hhead
    refine List.forall_mem_singleton.mpr ⟨nofun, isUnbroken_ofList.mpr fun hmem => hhead ?_⟩
    exact List.mem_append_left v hmem
  | @plain marker text name args kind subject hencloses hwords _ hsubject _ =>
    refine List.forall_mem_singleton.mpr ⟨isUnbroken_of_subjectIs hsubject ?_, hbody hencloses⟩
    exact fun arg harg => newline_notMem_of_mem_words (s := marker) (by simp [hwords, harg])
  | @typed marker text name subject type hencloses hwords _ _ =>
    have hwordsLine : ∀ w ∈ name :: (type ++ [subject]), '\n' ∉ w := fun w hw =>
      newline_notMem_of_mem_words (s := marker) (by rwa [hwords])
    have hsubject : IsUnbroken (String.ofList (unescape subject)) :=
      isUnbroken_ofList.mpr (newline_notMem_unescape (hwordsLine subject (by simp)))
    have htype : IsUnbroken (String.ofList (unwords type)) :=
      isUnbroken_ofList.mpr (newline_notMem_unwords fun w hw => hwordsLine w (by simp [hw]))
    refine List.forall_mem_cons.mpr ⟨⟨?_, hbody hencloses⟩,
      List.forall_mem_singleton.mpr ⟨?_, htype⟩⟩
    · rintro s ⟨⟩
      exact hsubject
    · rintro s ⟨⟩
      exact hsubject

/-- **The fields of a docstring are lines**, whatever its text. -/
theorem onOneLine_of_mem_parse {text : String} {f : Field} (h : f ∈ parse text) :
    f.OnOneLine := by
  obtain ⟨b, hb, hf⟩ := List.mem_flatMap.mp h
  have hdivides := divides_blocks (lines text.toList)
  refine onOneLine_of_holds ((Block.holds_iff (hdivides.head b hb)).mpr rfl) (fun l hl => ?_) f hf
  refine Docstring.newline_notMem_of_mem_lines (s := text.toList) ?_
  rw [hdivides.lines_eq]
  exact List.mem_append_right _ (List.mem_flatMap.mpr ⟨b, hb, hl⟩)

end FieldList

/-! ## Remarks -/

namespace Analysis

section Sections

variable {expected : List Parameter} {fields : List Field} {r : Remark}

theorem onOneLine_of_mem_shapes (hfields : ∀ f ∈ fields, f.OnOneLine) (h : r ∈ shapes fields) :
    r.finding.OnOneLine := by
  obtain ⟨f, hf, hr⟩ := List.mem_flatMap.mp h
  have hsubject := (hfields f hf).subject
  unfold shapeOf at hr
  split at hr
  · exact absurd hr List.not_mem_nil
  split at hr
  · obtain rfl := List.mem_singleton.mp hr
    refine List.forall_mem_cons.mpr ⟨by simp [IsUnbroken], fun s hs => hsubject s ?_⟩
    exact (Option.filter_eq_some_iff.mp (Option.mem_toList.mp hs)).1
  split at hr
  · obtain rfl := List.mem_singleton.mp hr
    exact List.forall_mem_cons.mpr
      ⟨by simp [IsUnbroken], fun s hs => hsubject s (Option.mem_toList.mp hs)⟩
  · exact absurd hr List.not_mem_nil

theorem isUnbroken_canonicalSubject (hnames : ∀ p ∈ expected, IsUnbroken p.name) {f : Field}
    (hf : f.OnOneLine) : ∀ s ∈ canonicalSubject expected f, IsUnbroken s := by
  intro s hs
  obtain ⟨subject, hsubject, rfl⟩ := Option.map_eq_some_iff.mp hs
  split
  · split
    · rename_i p hp
      exact hnames p (List.mem_of_find?_eq_some hp)
    · exact hf.subject subject hsubject
  · exact hf.subject subject hsubject

theorem onOneLine_of_mem_duplicates (hnames : ∀ p ∈ expected, IsUnbroken p.name)
    (hfields : ∀ f ∈ fields, f.OnOneLine) (h : r ∈ duplicates expected fields) :
    r.finding.OnOneLine := by
  obtain ⟨key, hkey, rfl⟩ := List.mem_map.mp h
  obtain ⟨f, hf, rfl⟩ := List.mem_map.mp
    ((firstsBy_sublist id _).subset (List.mem_filter.mp hkey).1)
  intro s hs
  refine isUnbroken_canonicalSubject hnames (hfields f (List.mem_filter.mp hf).1) s ?_
  exact Option.mem_toList.mp hs

theorem onOneLine_of_mem_unknowns {kind : FieldKind} (hfields : ∀ f ∈ fields, f.OnOneLine)
    (h : r ∈ unknowns kind expected fields) : r.finding.OnOneLine := by
  obtain ⟨s, hs, rfl⟩ := List.mem_map.mp h
  obtain ⟨f, hf, hsubject⟩ := List.mem_filterMap.mp (List.mem_filter.mp hs).1
  exact List.forall_mem_singleton.mpr ((hfields f (List.mem_filter.mp hf).1).subject s hsubject)

theorem onOneLine_typeFinding {name : String} (hname : IsUnbroken name)
    {declared documented : Option String} {f : Finding}
    (h : typeFinding name declared documented = some f) : f.OnOneLine := by
  rcases declared with _ | d <;> rcases documented with _ | t <;> simp only [typeFinding] at h
  · cases h
  · cases h
    simp [Finding.OnOneLine, Finding.texts, hname, isUnbroken_normalType]
  · cases h
    simp [Finding.OnOneLine, Finding.texts, hname, isUnbroken_normalType]
  · split at h
    · cases h
    · cases h
      simp [Finding.OnOneLine, Finding.texts, hname, isUnbroken_normalType]

theorem onOneLine_of_mem_parameters (hnames : ∀ p ∈ expected, IsUnbroken p.name)
    (h : r ∈ parameters expected fields) : r.finding.OnOneLine := by
  obtain ⟨p, hp, hr⟩ := List.mem_filterMap.mp h
  obtain ⟨f, hf, rfl⟩ := Option.map_eq_some_iff.mp hr
  unfold parameterFinding at hf
  split at hf
  · exact onOneLine_typeFinding (hnames p hp) hf
  · cases hf
    exact List.forall_mem_singleton.mpr (hnames p hp)

theorem isUnbroken_nameAt (hnames : ∀ p ∈ expected, IsUnbroken p.name) (position : Nat) :
    IsUnbroken (nameAt expected position) := by
  unfold nameAt
  split
  · rename_i p hp
    exact hnames p (List.mem_of_find?_eq_some hp)
  · simp [IsUnbroken]

theorem onOneLine_of_mem_order (hnames : ∀ p ∈ expected, IsUnbroken p.name)
    (h : r ∈ order expected fields) : r.finding.OnOneLine := by
  simp only [order] at h
  split at h
  · exact absurd h List.not_mem_nil
  obtain rfl := List.mem_singleton.mp h
  intro s hs
  rcases List.mem_append.mp hs with hs | hs
  all_goals
    obtain ⟨position, -, rfl⟩ := List.mem_map.mp hs
    exact isUnbroken_nameAt hnames position

theorem onOneLine_of_mem_returns {returnType : Option String} {settings : Settings}
    (h : r ∈ returns returnType fields settings) : r.finding.OnOneLine := by
  obtain ⟨-, rfl⟩ | ⟨-, rfl⟩ | ⟨f, hf, rfl⟩ := mem_returns_iff.mp h
  · exact nofun
  · exact nofun
  unfold rtypeFinding at hf
  split at hf
  · split at hf
    · cases hf
    · cases hf
      simp [Finding.OnOneLine, Finding.texts, isUnbroken_normalType]
  · cases hf

end Sections

/-- **What an analysis remarks is one line**, if the names of parameters and the fields are. -/
theorem onOneLine_of_mem_remarksOn {signature : Signature} {settings : Settings}
    {docstring : Option (List Field)} (hnames : ∀ p ∈ signature.parameters, IsUnbroken p.name)
    (hfields : ∀ fields, docstring = some fields → ∀ f ∈ fields, f.OnOneLine) {r : Remark}
    (h : r ∈ remarksOn signature settings docstring) : r.finding.OnOneLine := by
  rcases docstring with _ | fields
  · obtain rfl := List.mem_singleton.mp h
    exact nofun
  have hexpected : ∀ p ∈ signature.expected, IsUnbroken p.name := fun p hp =>
    hnames p (List.mem_filter.mp hp).1
  have hfields := hfields fields rfl
  have husable : ∀ f ∈ fields.filter isUsable, f.OnOneLine := fun f hf =>
    hfields f (List.mem_filter.mp hf).1
  simp only [remarksOn, remarks, List.mem_append] at h
  rcases h with (((((h | h) | h) | h) | h) | h) | h
  · exact onOneLine_of_mem_shapes hfields h
  · exact onOneLine_of_mem_duplicates hexpected husable h
  · exact onOneLine_of_mem_unknowns husable h
  · exact onOneLine_of_mem_unknowns husable h
  · exact onOneLine_of_mem_parameters hexpected h
  · exact onOneLine_of_mem_order hexpected h
  · exact onOneLine_of_mem_returns h

end Analysis

/-! ## Diagnostics -/

/-- No name and no path of the definition has a line feed. -/
structure Definition.OnOneLine (d : Definition) : Prop where
  function : IsUnbroken d.signature.qualifiedName
  file : IsUnbroken d.signature.location.file.text
  names : ∀ p ∈ d.signature.parameters, IsUnbroken p.name

/-- The diagnostic shows on one line. -/
structure Diagnostic.OnOneLine (x : Diagnostic) : Prop where
  file : IsUnbroken x.location.file.text
  message : IsUnbroken x.message

theorem Definition.onOneLine_of_mem_fields {d : Definition} {fields : List Field}
    (h : d.fields = some fields) : ∀ f ∈ fields, f.OnOneLine := by
  obtain ⟨text, -, rfl⟩ := Option.map_eq_some_iff.mp h
  exact fun f => FieldList.onOneLine_of_mem_parse

theorem Definition.isUnbroken_of_mem_brokenLine? {d : Definition} {line : String}
    (h : d.brokenLine? = some line) : IsUnbroken line := by
  obtain ⟨f, hf, rfl⟩ := Option.map_eq_some_iff.mp h
  obtain ⟨fields, hfields, hfound⟩ := Option.bind_eq_some_iff.mp hf
  exact (onOneLine_of_mem_fields hfields f (List.mem_of_find?_eq_some hfound)).body

/-- **What a check reports shows on one line**, whatever the docstring and the types. -/
theorem Definition.onOneLine_of_mem_check {d : Definition} (hd : d.OnOneLine) {settings : Settings}
    {x : Diagnostic} (h : x ∈ d.check settings) : x.OnOneLine := by
  refine ⟨by rw [(function_and_location_of_mem_check h).2]; exact hd.file, ?_⟩
  rw [check_eq_sortBy] at h
  split at h
  · exact absurd h List.not_mem_nil
  rw [Diagnostic.sortBy, List.mem_mergeSort, List.mem_append] at h
  rcases h with h | h
  · obtain ⟨r, hr, rfl⟩ := mem_analyze h
    obtain ⟨severity, hdiagnostic⟩ := r.diagnostic_eq d.signature settings
    rw [hdiagnostic]
    exact Finding.isUnbroken_message hd.function
      (Analysis.onOneLine_of_mem_remarksOn hd.names (fun _ => onOneLine_of_mem_fields) hr)
  · obtain ⟨line, hline, rfl⟩ := List.mem_map.mp (List.mem_filter.mp h).1
    refine Finding.isUnbroken_message hd.function (List.forall_mem_singleton.mpr ?_)
    exact isUnbroken_of_mem_brokenLine? (Option.mem_toList.mp hline)

/-- The file that could not be analyzed. -/
def SourceError.path : SourceError → Path
  | unreadable path _ => path
  | invalid path _ => path

theorem SourceError.isUnbroken_message {e : SourceError} (h : IsUnbroken e.path.text) :
    IsUnbroken e.message := by
  unfold message unreadableMessage
  cases e with
  | unreadable path fault =>
    have hfault : IsUnbroken fault.message := by
      cases fault <;> simp [IsUnbroken, ReadFault.message]
    simp_all [IsUnbroken, SourceError.path]
  | invalid path line =>
    have hline := isUnbroken_toString line
    simp_all [IsUnbroken, SourceError.path]

/-- No name and no path of the file and of what was found in it has a line feed. -/
structure Outcome.OnOneLine (o : Outcome) : Prop where
  path : IsUnbroken o.path.text
  definitions : ∀ definitions, o.found = .ok definitions → ∀ d ∈ definitions, d.OnOneLine
  error : ∀ e, o.found = .error e → IsUnbroken e.path.text

theorem Outcome.onOneLine_of_mem_report {o : Outcome} (ho : o.OnOneLine) {settings : Settings}
    {x : Diagnostic} (h : x ∈ (o.report settings).diagnostics) : x.OnOneLine := by
  obtain ⟨path, error | definitions⟩ := o
  · simp only [report, Report.ofExtraction] at h
    split at h
    · obtain rfl := List.mem_singleton.mp h
      refine ⟨ho.path, Finding.isUnbroken_message ?_ (List.forall_mem_singleton.mpr ?_)⟩
      · simp [IsUnbroken, Report.moduleScope]
      · exact SourceError.isUnbroken_message (ho.error error rfl)
    · exact absurd h List.not_mem_nil
  · obtain ⟨d, hd, hx⟩ := List.mem_flatMap.mp h
    exact Definition.onOneLine_of_mem_check (ho.definitions definitions rfl d hd) hx

/-! ## The text of a report -/

namespace Report

/-- A diagnostic as it shows without stress. -/
def plainLine (d : Diagnostic) : String :=
  d.location.file.text ++ ":" ++ toString d.location.line ++ ": [" ++ d.category.label ++ "] "
    ++ d.message

/-- The text has one line for each diagnostic, in order, and nothing else. -/
structure HasLineEach (r : Report) : Prop where
  empty : r.diagnostics = [] → r.text .plain = ""
  lines : r.diagnostics ≠ [] →
    (r.text .plain).toList.splitOn '\n' = r.diagnostics.map fun d => (plainLine d).toList

theorem toList_line_plain (d : Diagnostic) : (line .plain d).toList = (plainLine d).toList := by
  simp [line, plainLine, Paint.plain]

theorem isUnbroken_plainLine {d : Diagnostic} (h : d.OnOneLine) : IsUnbroken (plainLine d) := by
  have hline := isUnbroken_toString d.location.line
  have hlabel : IsUnbroken d.category.label := by
    cases d.category <;> simp [IsUnbroken, Category.label]
  have hfile := h.file
  have hmessage := h.message
  simp_all [IsUnbroken, plainLine]

theorem hasLineEach_of_onOneLine {r : Report} (h : ∀ x ∈ r.diagnostics, x.OnOneLine) :
    r.HasLineEach := by
  refine ⟨fun hnil => by rw [text, hnil]; rfl, fun hne => ?_⟩
  have hlines : (r.diagnostics.map (line .plain)).map String.toList
      = r.diagnostics.map fun d => (plainLine d).toList := by
    rw [List.map_map]
    exact List.map_congr_left fun d _ => toList_line_plain d
  rw [text, String.toList_intercalate, hlines]
  refine List.splitOn_intercalate '\n' (fun l hl => ?_) (by simpa using hne)
  obtain ⟨d, hd, rfl⟩ := List.mem_map.mp hl
  exact isUnbroken_plainLine (h d hd)

end Report

/-- **A text report has exactly one line for each diagnostic** — of a file, and of files merged in
any order and grouping, sorted or not. -/
theorem report_lines_exact (settings : Settings) (files : List Outcome)
    (h : ∀ o ∈ files, o.OnOneLine) :
    (∀ o ∈ files, (o.report settings).HasLineEach) ∧
    ∀ t : Report.MergeTree, t.reports ⊆ files.map (Outcome.report settings) →
      t.merged.HasLineEach ∧ t.merged.sort.HasLineEach := by
  refine ⟨fun o ho => Report.hasLineEach_of_onOneLine fun _ =>
    Outcome.onOneLine_of_mem_report (h o ho), fun t ht => ?_⟩
  have hmerged : ∀ x ∈ t.merged.diagnostics, x.OnOneLine := by
    intro x hx
    rw [t.merged_eq_total] at hx
    obtain ⟨r, hr, hxr⟩ := List.mem_flatMap.mp hx
    obtain ⟨o, ho, rfl⟩ := List.mem_map.mp (ht hr)
    exact Outcome.onOneLine_of_mem_report (h o ho) hxr
  refine ⟨Report.hasLineEach_of_onOneLine hmerged, Report.hasLineEach_of_onOneLine fun x hx => ?_⟩
  exact hmerged x (List.mem_mergeSort.mp hx)

/-- A docstring with a broken line and a type on two lines, whose normal form is not the documented
one. -/
def sampleBroken : Outcome :=
  ⟨⟨"a b.py"⟩, .ok [⟨⟨"C.f", [⟨"x", 0, .positional, some "Dict[str,\n  int]", false⟩], none, false,
    ⟨⟨"a b.py"⟩, 7⟩⟩, some "Text\n:param x: a\r\n b\n:type x: int\n:oops", false⟩]⟩

theorem report_lines_sample :
    (∀ o ∈ [sampleBroken, sampleMissing], o.OnOneLine) ∧
    (sampleBroken.report {}).HasLineEach ∧
    ((Report.MergeTree.both (.one (sampleBroken.report {}))
      (.one (sampleMissing.report {}))).merged.sort).HasLineEach := by
  have hfiles : ∀ o ∈ [sampleBroken, sampleMissing], o.OnOneLine := by
    rw [List.forall_mem_cons, List.forall_mem_singleton]
    refine ⟨⟨by decide, fun ds hds d hd => ?_, nofun⟩, ⟨by decide, nofun, fun e he => ?_⟩⟩
    · obtain rfl := Except.ok.inj hds
      obtain rfl := List.mem_singleton.mp hd
      exact ⟨by decide, by decide, by decide⟩
    · obtain rfl := Except.error.inj he
      decide
  obtain ⟨hsingle, hmerged⟩ := report_lines_exact {} _ hfiles
  exact ⟨hfiles, hsingle sampleBroken (by simp), (hmerged _ (by simp [Report.MergeTree.reports])).2⟩

end DocAudit
