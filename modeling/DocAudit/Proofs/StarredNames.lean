import DocAudit.Proofs.FieldReports
import Mathlib.Data.List.Forall2
import Mathlib.Data.List.TakeWhile

/-!
# Proofs/StarredNames — the spelling of variadic names does not matter

A subject is a name with some stars in front, and it is taken apart in this way only
(`exists_starred`, `split_starred`).  It resolves to a parameter exactly if the name is that of the
parameter and the stars are none or its own (`resolve?_starred`): a variadic parameter has two
spellings, and every other has one.

The analysis reads `:param:` and `:type:` fields through what their subjects resolve to.  So nothing
changes if each of them is given the bare name of its parameter (`remarks_map_bared`), and respelled
fields agree once their names are bare (`Respelled.bared_eq`).
-/

namespace DocAudit

open Text Subject Analysis

/-! ## Names with stars in front -/

namespace Subject

/-- The name with the given number of stars in front. -/
def starred (n : Nat) (name : String) : String :=
  String.ofList (List.replicate n '*' ++ name.toList)

/-- The stars are what is read as stars, and the name is what is left. -/
theorem split_starred (n : Nat) {name : String} (h : name.toList.head? ≠ some '*') :
    ((starred n name).toList.takeWhile fun c => c == '*') = List.replicate n '*' ∧
      ((starred n name).toList.dropWhile fun c => c == '*') = name.toList := by
  have hstars : ∀ c ∈ List.replicate n '*', (c == '*') = true := fun c hc => by
    rw [List.eq_of_mem_replicate hc, beq_self_eq_true]
  obtain ⟨htake, hdrop⟩ := starsOf_eq_nil h
  rw [starred, String.toList_ofList, List.takeWhile_append_of_pos hstars,
    List.dropWhile_append_of_pos hstars, htake, hdrop, List.append_nil]
  exact ⟨rfl, rfl⟩

/-- **A subject is a name with stars in front.** -/
theorem exists_starred (subject : String) :
    ∃ n name, name.toList.head? ≠ some '*' ∧ subject = starred n name := by
  have hstars : (subject.toList.takeWhile fun c => c == '*')
      = List.replicate (subject.toList.takeWhile fun c => c == '*').length '*' :=
    List.eq_replicate_of_mem fun c hc =>
      eq_of_beq (List.mem_takeWhile_imp (p := fun c => c == '*') hc)
  refine ⟨(subject.toList.takeWhile fun c => c == '*').length,
    String.ofList (subject.toList.dropWhile fun c => c == '*'), ?_, ?_⟩
  · rw [String.toList_ofList]
    intro hhead
    have hstop := List.head?_dropWhile_not (fun c => c == '*') subject.toList
    rw [hhead] at hstop
    cases hstop
  · rw [starred, ← hstars, String.toList_ofList, List.takeWhile_append_dropWhile,
      String.ofList_toList]

/-- Up to two stars in front of a name look like an identifier still. -/
theorem isIdentifierLike_starred {n : Nat} (hn : n ≤ 2) {name : String} (h : IsPlainName name) :
    isIdentifierLike (starred n name) = true := by
  have hid := isIdentifier_of_isPlainName h
  have hhead := h.2
  rw [isIdentifierLike, starred, String.toList_ofList]
  obtain ⟨c, s, hname⟩ := List.exists_cons_of_ne_nil (ne_nil_of_isPlainName h)
  rw [hname] at hid hhead ⊢
  obtain rfl | rfl | rfl : n = 0 ∨ n = 1 ∨ n = 2 := by omega
  · rwa [List.replicate_zero, List.nil_append, dropStars_eq_self hhead]
  · have hc : c ≠ '*' := fun hc => hhead (by rw [hc]; rfl)
    simpa [dropStars, hc] using hid
  · exact hid

/-! ## What a subject resolves to -/

variable {expected : List Parameter}

/-- **A name with stars resolves to a parameter** iff it is the name of that parameter and the stars
are none or its own. -/
theorem resolve?_starred_eq_some_iff (hnames : (expected.map Parameter.name).Nodup) {n : Nat}
    {name : String} (hname : name.toList.head? ≠ some '*') {p : Parameter} :
    resolve? expected (starred n name) = some p ↔
      p ∈ expected ∧ p.name = name ∧ (n = 0 ∨ n = p.kind.starCount) := by
  have hanswers : ∀ q : Parameter, answersTo (List.replicate n '*') name.toList q = true ↔
      q.name = name ∧ (n = 0 ∨ n = q.kind.starCount) := fun q => by
    simp [answersTo, ParamKind.stars, String.toList_inj, List.replicate_inj,
      @eq_comm Nat n q.kind.starCount]
  obtain ⟨htake, hdrop⟩ := split_starred n hname
  simp only [resolve?, htake, hdrop]
  constructor
  · intro hfind
    exact ⟨List.mem_of_find?_eq_some hfind, (hanswers p).mp (List.find?_some hfind)⟩
  · rintro ⟨hp, hanswer⟩
    have hsome := List.find?_isSome.mpr ⟨p, hp, (hanswers p).mpr hanswer⟩
    obtain ⟨q, hq⟩ := Option.isSome_iff_exists.mp hsome
    have hsame : q.name = p.name := ((hanswers q).mp (List.find?_some hq)).1.trans hanswer.1.symm
    rw [hq, List.inj_on_of_nodup_map hnames (List.mem_of_find?_eq_some hq) hp hsame]

theorem starCount_le_two (kind : ParamKind) : kind.starCount ≤ 2 := by
  cases kind <;> decide

/-- A subject that resolves to a parameter is its name with at most two stars. -/
theorem eq_starred_of_resolve? (hnames : (expected.map Parameter.name).Nodup) {subject : String}
    {p : Parameter} (h : resolve? expected subject = some p) :
    ∃ n, subject = starred n p.name ∧ n ≤ 2 := by
  obtain ⟨n, name, hname, rfl⟩ := exists_starred subject
  obtain ⟨-, rfl, hstars⟩ := (resolve?_starred_eq_some_iff hnames hname).mp h
  rcases hstars with rfl | rfl
  · exact ⟨0, rfl, Nat.zero_le 2⟩
  · exact ⟨p.kind.starCount, rfl, starCount_le_two p.kind⟩

end Subject

/-! ## Bare names -/

/-- The field with its subject replaced by the name of the parameter that it resolves to. -/
def Field.bared (expected : List Parameter) (f : Field) : Field :=
  { f with subject := canonicalSubject expected f }

/-- The names of the expected parameters differ, and all look like identifiers without stars. -/
structure HavePlainNames (expected : List Parameter) : Prop where
  nodup : (expected.map Parameter.name).Nodup
  plain : ∀ p ∈ expected, IsPlainName p.name

namespace HavePlainNames

variable {expected : List Parameter} (h : HavePlainNames expected)
include h

theorem resolve?_name {subject : String} {p : Parameter}
    (hp : resolve? expected subject = some p) : resolve? expected p.name = some p :=
  Subject.resolve?_name h.nodup (mem_of_resolve? hp) (h.plain p (mem_of_resolve? hp))

theorem isIdentifierLike_of_resolve? {subject : String} {p : Parameter}
    (hp : resolve? expected subject = some p) : isIdentifierLike subject = true := by
  obtain ⟨n, rfl, hn⟩ := eq_starred_of_resolve? h.nodup hp
  exact isIdentifierLike_starred hn (h.plain p (mem_of_resolve? hp))

/-- **Either the field stays as it is, or its subject and the bare name resolve to one
parameter.** -/
theorem bared_cases (f : Field) : f.bared expected = f ∨ ∃ subject p,
    f.kind.requiresSubject = true ∧ f.subject = some subject ∧
      f.bared expected = { f with subject := some p.name } ∧
      resolve? expected subject = some p ∧ resolve? expected p.name = some p := by
  have hkept : canonicalSubject expected f = f.subject → f.bared expected = f := fun hsame => by
    rw [Field.bared, hsame]
  rcases hsubject : f.subject with _ | subject
  · exact .inl (hkept (by rw [canonicalSubject, hsubject, Option.map_none]))
  by_cases hkind : f.kind.requiresSubject = true
  · rcases hp : resolve? expected subject with _ | p
    · exact .inl (hkept (by simp [canonicalSubject, hsubject, hp]))
    · refine .inr ⟨subject, p, hkind, rfl, ?_, hp, h.resolve?_name hp⟩
      simp [Field.bared, canonicalSubject, hsubject, hkind, hp]
  · exact .inl (hkept (by simp [canonicalSubject, hsubject, hkind]))

/-! ## What the analysis reads off a field -/

theorem isUsable_bared (f : Field) : isUsable (f.bared expected) = isUsable f := by
  obtain hkept | ⟨subject, p, hkind, hsubject, hbared, hp, hname⟩ := h.bared_cases f
  · rw [hkept]
  · have hlike := h.isIdentifierLike_of_resolve? hp
    have hlike' := h.isIdentifierLike_of_resolve? hname
    rw [hbared, Bool.eq_iff_iff, isUsable_iff hkind]
    exact (isUsable_iff (f := { f with subject := some p.name }) hkind).trans
      ⟨fun _ => ⟨subject, hsubject, hlike⟩, fun _ => ⟨p.name, rfl, hlike'⟩⟩

theorem shapeOf_bared {f : Field}
    (hbody : f.kind = .param ∨ f.kind = .type → isBlank f.body.toList = false) :
    shapeOf (f.bared expected) = shapeOf f := by
  obtain hkept | ⟨subject, p, hkind, hsubject, hbared, hp, hname⟩ := h.bared_cases f
  · rw [hkept]
  · have hblank : hasBlankBody f = false := hbody (requiresSubject_iff.mp hkind)
    have hwell : ∀ g : Field, isUsable g = true → hasBlankBody g = false → shapeOf g = [] := by
      intro g husable hblank
      obtain ⟨hknown, hsubject⟩ := Bool.and_eq_true_iff.mp husable
      simp [shapeOf, hknown, hsubject, hblank]
    have husable : isUsable f = true :=
      (isUsable_iff hkind).mpr ⟨subject, hsubject, h.isIdentifierLike_of_resolve? hp⟩
    have husable' : isUsable (f.bared expected) = true := by rw [h.isUsable_bared, husable]
    have hblank' : hasBlankBody (f.bared expected) = false := hblank
    rw [hwell f husable hblank, hwell _ husable' hblank']

theorem fieldKey_bared (f : Field) :
    fieldKey expected (f.bared expected) = fieldKey expected f := by
  obtain hkept | ⟨subject, p, hkind, hsubject, hbared, hp, hname⟩ := h.bared_cases f
  · rw [hkept]
  · rw [hbared]
    simp [fieldKey, canonicalSubject, hkind, hsubject, hp, hname]

theorem bind_resolve?_bared (f : Field) :
    (f.bared expected).subject.bind (resolve? expected) = f.subject.bind (resolve? expected) := by
  obtain hkept | ⟨subject, p, -, hsubject, hbared, hp, hname⟩ := h.bared_cases f
  · rw [hkept]
  · rw [hbared, hsubject, Option.bind_some, Option.bind_some, hp, hname]

/-- A subject that resolves to nothing is kept as it is. -/
theorem filter_isNone_bared (f : Field) :
    ((f.bared expected).subject.filter fun s => (resolve? expected s).isNone)
      = f.subject.filter fun s => (resolve? expected s).isNone := by
  obtain hkept | ⟨subject, p, -, hsubject, hbared, hp, hname⟩ := h.bared_cases f
  · rw [hkept]
  · rw [hbared, hsubject]
    simp [Option.filter, hp, hname]

end HavePlainNames

/-! ## Sections -/

namespace Analysis

variable {expected : List Parameter}

theorem fieldsOf_map_bared (kind : FieldKind) (fields : List Field) :
    fieldsOf kind (fields.map (Field.bared expected))
      = (fieldsOf kind fields).map (Field.bared expected) :=
  List.filter_map

theorem duplicates_map_bared (h : HavePlainNames expected) (usable : List Field) :
    duplicates expected (usable.map (Field.bared expected)) = duplicates expected usable := by
  have hkeys : ((usable.map (Field.bared expected)).filter fun f => !f.isInline).map
        (fieldKey expected)
      = (usable.filter fun f => !f.isInline).map (fieldKey expected) := by
    rw [List.filter_map, List.map_map]
    exact List.map_congr_left fun f _ => h.fieldKey_bared f
  simp only [duplicates, hkeys]

theorem unknowns_map_bared (h : HavePlainNames expected) (kind : FieldKind) (usable : List Field) :
    unknowns kind expected (usable.map (Field.bared expected)) = unknowns kind expected usable := by
  simp only [unknowns, subjects, fieldsOf_map_bared, List.filter_filterMap, List.filterMap_map,
    Function.comp_def, h.filter_isNone_bared]

theorem documented_map_bared (h : HavePlainNames expected) (usable : List Field) :
    documented expected (usable.map (Field.bared expected)) = documented expected usable := by
  simp only [documented, subjects, fieldsOf_map_bared, List.filterMap_filterMap,
    List.filterMap_map, Function.comp_def, h.bind_resolve?_bared]

theorem documentedType_map_bared (h : HavePlainNames expected) (usable : List Field)
    (name : String) : documentedType expected (usable.map (Field.bared expected)) name
      = documentedType expected usable name := by
  simp only [documentedType, fieldsOf_map_bared, List.find?_map, Function.comp_def,
    h.bind_resolve?_bared, Option.map_map]
  rfl

theorem returns_map_bared (returnType : Option String) (fields : List Field)
    (settings : Settings) :
    returns returnType (fields.map (Field.bared expected)) settings
      = returns returnType fields settings := by
  have hkind : ∀ kind, hasKind kind (fields.map (Field.bared expected)) = hasKind kind fields :=
    fun kind => List.any_map
  have hdocumented :
      documentedRtype (fields.map (Field.bared expected)) = documentedRtype fields := by
    rw [documentedRtype, fieldsOf_map_bared, List.find?_map, Option.map_map]
    rfl
  exact returns_congr (hkind _) (hkind _) hdocumented returnType settings

/-- **The analysis reads names through what they resolve to**: with bare names the remarks are the
same. -/
theorem remarks_map_bared {signature : Signature} (h : HavePlainNames signature.expected)
    {fields : List Field} (hbodies : ∀ f ∈ fields, f.kind = .param ∨ f.kind = .type →
      isBlank f.body.toList = false) (settings : Settings) :
    remarks signature (fields.map (Field.bared signature.expected)) settings
      = remarks signature fields settings := by
  have hshapes : shapes (fields.map (Field.bared signature.expected)) = shapes fields := by
    rw [shapes, List.flatMap_map]
    exact List.flatMap_congr fun f hf => h.shapeOf_bared (hbodies f hf)
  have husable : (fields.map (Field.bared signature.expected)).filter isUsable
      = (fields.filter isUsable).map (Field.bared signature.expected) := by
    rw [List.filter_map]
    exact congrArg (List.map _) (List.filter_congr fun f _ => h.isUsable_bared f)
  simp only [remarks, hshapes, husable, duplicates_map_bared h, unknowns_map_bared h, parameters,
    parameterFinding, order, documented_map_bared h, documentedType_map_bared h, returns_map_bared]

end Analysis

/-! ## Respelling -/

/-- **The second field is the first one with its name perhaps spelled in the other way**: a
`:param:` or `:type:` field about a variadic parameter may exchange the bare name and the one with
stars. -/
inductive Respelled (expected : List Parameter) : Field → Field → Prop
  | kept (f : Field) : Respelled expected f f
  | starred {f : Field} {p : Parameter} (hkind : f.kind = .param ∨ f.kind = .type)
      (hvariadic : p.kind = .variadicPositional ∨ p.kind = .variadicKeyword)
      (hsubject : f.subject = some p.name) (hp : resolve? expected p.name = some p) :
      Respelled expected f { f with subject := some p.written }
  | bare {f : Field} {p : Parameter} (hkind : f.kind = .param ∨ f.kind = .type)
      (hvariadic : p.kind = .variadicPositional ∨ p.kind = .variadicKeyword)
      (hsubject : f.subject = some p.written) (hp : resolve? expected p.written = some p) :
      Respelled expected f { f with subject := some p.name }

namespace Respelled

variable {expected : List Parameter} {f g : Field}

/-- Spelled out or not, the bare name is the same. -/
theorem bared_eq (hplain : HavePlainNames expected) (h : Respelled expected f g) :
    f.bared expected = g.bared expected := by
  have hwritten : ∀ p ∈ expected, resolve? expected p.written = some p := fun p hp =>
    (resolve?_starred_eq_some_iff hplain.nodup (hplain.plain p hp).2).mpr ⟨hp, rfl, .inr rfl⟩
  cases h with
  | kept => rfl
  | starred hkind _ hsubject hp =>
    simp [Field.bared, canonicalSubject, requiresSubject_iff.mpr hkind, hsubject, hp,
      hwritten _ (mem_of_resolve? hp)]
  | bare hkind _ hsubject hp =>
    simp [Field.bared, canonicalSubject, requiresSubject_iff.mpr hkind, hsubject, hp,
      hplain.resolve?_name hp]

end Respelled

theorem Signature.IsRegular.havePlainNames {signature : Signature} (h : signature.IsRegular)
    (hnames : ∀ p ∈ signature.parameters, IsPlainName p.name) :
    HavePlainNames signature.expected where
  nodup := h.nodup_expected_names
  plain p hp := hnames p (List.mem_filter.mp hp).1

/-- **Where a name with stars resolves**: to the parameter of that name if it is expected and the
stars are none or its own, and otherwise to nothing. -/
theorem resolve?_starred {signature : Signature} (h : signature.IsRegular)
    (hnames : ∀ p ∈ signature.parameters, IsPlainName p.name) {p : Parameter}
    (hp : p ∈ signature.parameters) (n : Nat) :
    resolve? signature.expected (starred n p.name)
      = if p ∈ signature.expected ∧ (n = 0 ∨ n = p.kind.starCount) then some p else none := by
  have hresolve : ∀ q, resolve? signature.expected (starred n p.name) = some q ↔
      q ∈ signature.expected ∧ q.name = p.name ∧ (n = 0 ∨ n = q.kind.starCount) := fun q =>
    resolve?_starred_eq_some_iff h.nodup_expected_names (hnames p hp).2
  split
  · rename_i hstars
    exact (hresolve p).mpr ⟨hstars.1, rfl, hstars.2⟩
  · rename_i hstars
    refine Option.eq_none_iff_forall_ne_some.mpr fun q hq => hstars ?_
    obtain ⟨hmem, hsame, hcount⟩ := (hresolve q).mp hq
    obtain rfl := List.inj_on_of_nodup_map h.names_nodup (List.mem_filter.mp hmem).1 hp hsame
    exact ⟨hmem, hcount⟩

/-- Fields that agree once their names are bare lead to the same report. -/
theorem analyze_eq_of_map_bared {signature : Signature} (h : HavePlainNames signature.expected)
    {fields fields' : List Field}
    (hbodies : ∀ f ∈ fields, f.kind = .param ∨ f.kind = .type → isBlank f.body.toList = false)
    (hbared : fields.map (Field.bared signature.expected)
      = fields'.map (Field.bared signature.expected)) (settings : Settings) :
    analyze signature (some fields) settings = analyze signature (some fields') settings := by
  -- Kinds and bodies are not touched, so the other bodies are not blank either.
  have hbodies' : ∀ g ∈ fields', g.kind = .param ∨ g.kind = .type →
      isBlank g.body.toList = false := by
    intro g hg
    have hmem := List.mem_map_of_mem (f := Field.bared signature.expected) hg
    rw [← hbared] at hmem
    obtain ⟨f, hf, hsame⟩ := List.mem_map.mp hmem
    have hkind : f.kind = g.kind := (congrArg Field.kind hsame :)
    have hbody : f.body = g.body := (congrArg Field.body hsame :)
    rw [← hkind, ← hbody]
    exact hbodies f hf
  have hremarks : remarks signature fields settings = remarks signature fields' settings := by
    rw [← remarks_map_bared h hbodies, hbared, remarks_map_bared h hbodies']
  rw [analyze_eq_finish, analyze_eq_finish, remarksOn, hremarks, remarksOn]

/-- **The spelling of variadic names does not matter** — where some fields about variadic parameters
exchange the bare name and the one with stars, the report stays the same.  These two spellings are
all that there are: a name resolves with no stars or with those of its parameter, and an expected
parameter that is not variadic has none. -/
theorem analyze_respelled {signature : Signature} (h : signature.IsRegular)
    (hnames : ∀ p ∈ signature.parameters, IsPlainName p.name) {fields fields' : List Field}
    (hbodies : ∀ f ∈ fields, f.kind = .param ∨ f.kind = .type → isBlank f.body.toList = false)
    (hrespelled : List.Forall₂ (Respelled signature.expected) fields fields')
    (settings : Settings) :
    analyze signature (some fields) settings = analyze signature (some fields') settings ∧
    ∀ p ∈ signature.parameters, ∀ n,
      resolve? signature.expected (starred n p.name)
        = if p ∈ signature.expected ∧ (n = 0 ∨ n = p.kind.starCount) then some p else none := by
  have hplain := h.havePlainNames hnames
  have hbared := List.rel_map (P := Eq) (fun _ _ hfg => hfg.bared_eq hplain) hrespelled
  rw [List.forall₂_eq_eq_eq] at hbared
  exact ⟨analyze_eq_of_map_bared hplain hbodies hbared settings,
    fun p hp n => resolve?_starred h hnames hp n⟩

/-- Both variadic parameters under one of their spellings, and one of them twice. -/
def sampleSpelling : List Field :=
  [.param "*args" "A.", .param "args" "Again.", .typeOf "kw" "int", .param "x" "X.",
    .param "**kw" "K.", .raises "args" ""]

/-- The same fields with other spellings. -/
def sampleRespelling : List Field :=
  [.param "args" "A.", .param "args" "Again.", .typeOf "**kw" "int", .param "x" "X.",
    .param "kw" "K.", .raises "args" ""]

theorem analyze_respelled_sample :
    sampleMethod.IsRegular ∧
    List.Forall₂ (Respelled sampleMethod.expected) sampleSpelling sampleRespelling ∧
    analyze sampleMethod (some sampleSpelling) {}
      = analyze sampleMethod (some sampleRespelling) {} ∧
    resolve? sampleMethod.expected "**kw"
      = some { Parameter.plain "kw" 3 with kind := .variadicKeyword } ∧
    resolve? sampleMethod.expected "*kw" = none ∧ resolve? sampleMethod.expected "*x" = none := by
  have hregular : sampleMethod.IsRegular := by decide
  have hnames : ∀ p ∈ sampleMethod.parameters,
      isIdentifierLike p.name = true ∧ p.name.toList.head? ≠ some '*' := by decide
  have hrespelled :
      List.Forall₂ (Respelled sampleMethod.expected) sampleSpelling sampleRespelling := by
    refine .cons (.bare (p := { Parameter.plain "args" 2 with kind := .variadicPositional })
        (.inl rfl) (.inl rfl) rfl (by decide)) <| .cons (.kept _) <|
      .cons (.starred (p := { Parameter.plain "kw" 3 with kind := .variadicKeyword })
        (.inr rfl) (.inr rfl) rfl (by decide)) <| .cons (.kept _) <|
      .cons (.bare (p := { Parameter.plain "kw" 3 with kind := .variadicKeyword })
        (.inl rfl) (.inr rfl) rfl (by decide)) <| .cons (.kept _) .nil
  have hbodies : ∀ f ∈ sampleSpelling, f.kind = .param ∨ f.kind = .type →
      isBlank f.body.toList = false := by decide
  obtain ⟨hreport, hresolve⟩ := analyze_respelled hregular hnames hbodies hrespelled {}
  refine ⟨hregular, hrespelled, hreport, ?_, ?_, ?_⟩
  · exact (hresolve { Parameter.plain "kw" 3 with kind := .variadicKeyword } (by decide) 2).trans
      (by decide)
  · exact (hresolve { Parameter.plain "kw" 3 with kind := .variadicKeyword } (by decide) 1).trans
      (by decide)
  · exact (hresolve (.plain "x" 1) (by decide) 1).trans (by decide)

end DocAudit
