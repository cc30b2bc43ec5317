import DocAudit.Proofs.FieldReports
import Mathlib.Order.Monotone.Basic

/-!
# Proofs/Receivers — a method is analyzed like the function without its receiver

The receiver takes the first position and is expected nowhere, so all that it does to a signature is
to move the other parameters on by one.  Positions are used to tell parameters apart, to put them in
order and to look up their names again; none of these uses more of the numbers than their order.
`renumber` therefore passes through every section of the analysis (`remarks_renumber`), and through
sorting and dropping repeats (`finish_renumber`), as long as it is strictly monotone:

    signature ──renumber──▸ signature'
        │                       │
     analyze                 analyze
        ▾                       ▾
    diagnostics ─renumber─▸ diagnostics'

`analyze_withReceiver` is the case of the numbers moved on by one.
-/

namespace DocAudit

open Subject Analysis

variable {f : Nat → Nat}

/-! ## Renumbering -/

/-- The parameter at the position that `f` gives to its own. -/
def Parameter.renumber (f : Nat → Nat) (p : Parameter) : Parameter :=
  { p with position := f p.position }

/-- The remark at the position that `f` gives to its own, if it has one. -/
def Analysis.Remark.renumber (f : Nat → Nat) (r : Remark) : Remark :=
  { r with position := r.position.map f }

/-- The diagnostic at the position that `f` gives to its own, if it has one. -/
def Diagnostic.renumber (f : Nat → Nat) (d : Diagnostic) : Diagnostic :=
  { d with position := d.position.map f }

/-- The second signature is the first one with its expected parameters renumbered. -/
structure Signature.Renumbered (f : Nat → Nat) (s s' : Signature) : Prop where
  qualifiedName_eq : s'.qualifiedName = s.qualifiedName
  location_eq : s'.location = s.location
  returnType_eq : s'.returnType = s.returnType
  expected_eq : s'.expected = s.expected.map (Parameter.renumber f)

/-- Remarks without positions stay as they are. -/
theorem Analysis.map_renumber_eq_self {rs : List Remark} (h : ∀ r ∈ rs, r.position = none) :
    rs.map (Remark.renumber f) = rs := by
  refine (List.map_congr_left fun r hr => ?_).trans (List.map_id rs)
  rw [Remark.renumber, h r hr, Option.map_none, ← h r hr]
  rfl

/-! ## Subjects

A subject is resolved by name and stars, so it resolves to the same parameter at its new
position. -/

theorem Subject.resolve?_renumber (expected : List Parameter) (subject : String) :
    resolve? (expected.map (Parameter.renumber f)) subject
      = (resolve? expected subject).map (Parameter.renumber f) :=
  List.find?_map

namespace Analysis

variable (expected : List Parameter) (usable : List Field)

theorem isNone_resolve?_renumber (subject : String) :
    (resolve? (expected.map (Parameter.renumber f)) subject).isNone
      = (resolve? expected subject).isNone := by
  rw [resolve?_renumber, Option.isNone_map]

theorem canonicalSubject_renumber (field : Field) :
    canonicalSubject (expected.map (Parameter.renumber f)) field
      = canonicalSubject expected field := by
  refine congrArg (field.subject.map ·) (funext fun subject => ?_)
  rw [resolve?_renumber]
  rcases resolve? expected subject with _ | p <;> rfl

theorem keyPosition_renumber (key : FieldKind × Option String) :
    keyPosition (expected.map (Parameter.renumber f)) key = (keyPosition expected key).map f := by
  unfold keyPosition
  split
  · rcases key.2 with _ | subject
    · rfl
    · rw [Option.bind_some, Option.bind_some, resolve?_renumber]
      rcases resolve? expected subject with _ | p <;> rfl
  · rfl

/-! ## Sections -/

theorem duplicates_renumber :
    duplicates (expected.map (Parameter.renumber f)) usable
      = (duplicates expected usable).map (Remark.renumber f) := by
  have hkey : fieldKey (expected.map (Parameter.renumber f)) = fieldKey expected := by
    funext field
    rw [fieldKey, canonicalSubject_renumber, fieldKey]
  simp only [duplicates, hkey, List.map_map]
  refine List.map_congr_left fun k _ => ?_
  rw [keyPosition_renumber]
  rfl

theorem unknowns_renumber (kind : FieldKind) :
    unknowns kind (expected.map (Parameter.renumber f)) usable
      = (unknowns kind expected usable).map (Remark.renumber f) := by
  have hnone : ∀ r ∈ unknowns kind expected usable, r.position = none := by
    intro r hr
    obtain ⟨s, -, rfl⟩ := List.mem_map.mp hr
    rfl
  rw [map_renumber_eq_self hnone]
  simp only [unknowns, isNone_resolve?_renumber]

/-- **The documented parameters are the same ones, renumbered**: positions tell them apart as
before, if no two get the same number. -/
theorem documented_renumber (hf : f.Injective) :
    documented (expected.map (Parameter.renumber f)) usable
      = (documented expected usable).map (Parameter.renumber f) := by
  have hmentions : (subjects .param usable).filterMap
        (resolve? (expected.map (Parameter.renumber f)))
      = ((subjects .param usable).filterMap (resolve? expected)).map (Parameter.renumber f) := by
    rw [List.map_filterMap]
    exact List.filterMap_congr fun s _ => resolve?_renumber expected s
  rw [documented, documented, hmentions]
  exact firstsBy_map (Parameter.renumber f) (fun _ _ => hf.eq_iff) _

theorem documentedType_renumber (name : String) :
    documentedType (expected.map (Parameter.renumber f)) usable name
      = documentedType expected usable name := by
  have hname : ∀ field : Field,
      (field.subject.bind (resolve? (expected.map (Parameter.renumber f)))).map Parameter.name
        = (field.subject.bind (resolve? expected)).map Parameter.name := by
    intro field
    rcases field.subject with _ | subject
    · rfl
    · rw [Option.bind_some, Option.bind_some, resolve?_renumber, Option.map_map]
      rfl
  simp only [documentedType, hname]

theorem parameterFinding_renumber (hf : f.Injective) (p : Parameter) :
    parameterFinding (expected.map (Parameter.renumber f)) usable (p.renumber f)
      = parameterFinding expected usable p := by
  have hdocumented : ((documented (expected.map (Parameter.renumber f)) usable).any
        fun q => q.position == (p.renumber f).position)
      = (documented expected usable).any fun q => q.position == p.position := by
    rw [documented_renumber expected usable hf, List.any_map]
    refine congrArg (List.any _) (funext fun q => ?_)
    rw [Bool.eq_iff_iff, Function.comp_apply, beq_iff_eq, beq_iff_eq]
    exact hf.eq_iff
  rw [parameterFinding, hdocumented, documentedType_renumber]
  rfl

theorem parameters_renumber (hf : f.Injective) :
    parameters (expected.map (Parameter.renumber f)) usable
      = (parameters expected usable).map (Remark.renumber f) := by
  rw [parameters, parameters, List.filterMap_map, List.map_filterMap]
  refine List.filterMap_congr fun p _ => ?_
  rw [Function.comp_apply, parameterFinding_renumber expected usable hf, Option.map_map]
  rfl

theorem nameAt_renumber (hf : f.Injective) (position : Nat) :
    nameAt (expected.map (Parameter.renumber f)) (f position) = nameAt expected position := by
  have htest : (fun p : Parameter => p.position == f position) ∘ Parameter.renumber f
      = fun p => p.position == position := by
    funext p
    rw [Bool.eq_iff_iff, Function.comp_apply, beq_iff_eq, beq_iff_eq]
    exact hf.eq_iff
  unfold nameAt
  rw [List.find?_map, htest]
  cases expected.find? fun p => p.position == position with
  | none => rfl
  | some p => rfl

/-- **The order is reported alike**, with the same names: sorting sees the order of the numbers, and
the new numbers lead to the old names. -/
theorem order_renumber (hf : StrictMono f) :
    order (expected.map (Parameter.renumber f)) usable
      = (order expected usable).map (Remark.renumber f) := by
  have hactual : (documented (expected.map (Parameter.renumber f)) usable).map Parameter.position
      = ((documented expected usable).map Parameter.position).map f := by
    rw [documented_renumber expected usable hf.injective, List.map_map, List.map_map]
    rfl
  have hdeclared : ∀ ns : List Nat, (ns.map f).mergeSort (fun a b => decide (a ≤ b))
      = (ns.mergeSort fun a b => decide (a ≤ b)).map f := fun ns =>
    (List.map_mergeSort fun a _ b _ => decide_eq_decide.mpr hf.le_iff_le.symm).symm
  have hnames : ∀ ns : List Nat, (ns.map f).map (nameAt (expected.map (Parameter.renumber f)))
      = ns.map (nameAt expected) := fun ns => by
    rw [List.map_map]
    exact List.map_congr_left fun n _ => nameAt_renumber expected hf.injective n
  simp only [order, hactual, hdeclared, hnames, hf.injective.list_map.eq_iff,
    apply_ite (List.map _)]
  rfl

end Analysis

/-! ## Analyses -/

section Analyses

variable {s s' : Signature}

/-- **The remarks are the same, renumbered.** -/
theorem Analysis.remarks_renumber (hf : StrictMono f) (h : s.Renumbered f s')
    (fields : List Field) (settings : Settings) :
    remarks s' fields settings = (remarks s fields settings).map (Remark.renumber f) := by
  have hshapes : ∀ r ∈ shapes fields, r.position = none := by
    intro r hr
    obtain ⟨k, subject, reason, -, rfl⟩ := mem_shapes_iff.mp hr
    rfl
  have hreturns : ∀ r ∈ returns s.returnType fields settings, r.position = none := by
    intro r hr
    obtain ⟨-, rfl⟩ | ⟨-, rfl⟩ | ⟨finding, -, rfl⟩ := mem_returns_iff.mp hr <;> rfl
  simp only [remarks, h.expected_eq, h.returnType_eq, duplicates_renumber, unknowns_renumber,
    parameters_renumber _ _ hf.injective, order_renumber _ _ hf, List.map_append,
    map_renumber_eq_self hshapes, map_renumber_eq_self hreturns]

theorem Analysis.Remark.diagnostic_renumber (h : s.Renumbered f s') (settings : Settings)
    (r : Remark) :
    (r.renumber f).diagnostic s' settings = (r.diagnostic s settings).renumber f := by
  by_cases hcategory : r.finding.category = .missingRtypeDoc <;>
    simp [Remark.diagnostic, Diagnostic.ofFinding, Remark.renumber, Diagnostic.renumber,
      h.qualifiedName_eq, h.location_eq, hcategory]

/-- The report order looks at the order of positions only. -/
theorem Diagnostic.compareWithin_renumber (hf : StrictMono f) (a b : Diagnostic) :
    compareWithin (a.renumber f) (b.renumber f) = compareWithin a b := by
  have hposition : ∀ i j : Option Nat, comparePosition (i.map f) (j.map f) = comparePosition i j
    | some i, some j => by
      simp only [Option.map_some, comparePosition, Nat.compare_eq_ite_lt, hf.lt_iff_lt]
    | some _, none | none, some _ | none, none => rfl
  simp only [compareWithin, compareLex, compareOn, renumber, hposition]

/-- **Sorting and dropping repeats do not see the numbers.** -/
theorem Analysis.finish_renumber (hf : StrictMono f) (settings : Settings) (ds : List Diagnostic) :
    finish settings (ds.map (Diagnostic.renumber f))
      = (finish settings ds).map (Diagnostic.renumber f) := by
  have hfilter : (ds.map (Diagnostic.renumber f)).filter (fun d => settings.reports d.category)
      = (ds.filter fun d => settings.reports d.category).map (Diagnostic.renumber f) :=
    List.filter_map
  have hsort : ∀ ds : List Diagnostic,
      Diagnostic.sortBy Diagnostic.compareWithin (ds.map (Diagnostic.renumber f))
        = (Diagnostic.sortBy Diagnostic.compareWithin ds).map (Diagnostic.renumber f) := fun ds =>
    (List.map_mergeSort fun a _ b _ => by rw [Diagnostic.compareWithin_renumber hf]).symm
  rw [finish, finish, hfilter, hsort]
  exact firstsBy_map (Diagnostic.renumber f) (fun _ _ => Iff.rfl) _

/-- **Renumbering the parameters renumbers the diagnostics** and changes nothing else about them. -/
theorem analyze_renumber (hf : StrictMono f) (h : s.Renumbered f s')
    (docstring : Option (List Field)) (settings : Settings) :
    analyze s' docstring settings
      = (analyze s docstring settings).map (Diagnostic.renumber f) := by
  have hremarks : remarksOn s' settings docstring
      = (remarksOn s settings docstring).map (Remark.renumber f) := by
    rcases docstring with _ | fields
    · rfl
    · exact remarks_renumber hf h fields settings
  rw [analyze_eq_finish, analyze_eq_finish, hremarks, ← finish_renumber hf, List.map_map,
    List.map_map]
  refine congrArg (finish settings) (List.map_congr_left fun r _ => ?_)
  exact r.diagnostic_renumber h settings

end Analyses

/-! ## The receiver -/

/-- The method that binds the receiver and is otherwise the given function: the receiver comes
first, and all other parameters move on by one position. -/
def Signature.withReceiver (s : Signature) (receiver : Parameter) : Signature :=
  { s with
    isMethod := true
    parameters := receiver :: s.parameters.map (Parameter.renumber (· + 1)) }

/-- Nothing but the receiver is left out: no other parameter of the method has the first
position. -/
theorem Signature.renumbered_withReceiver {s : Signature} (hs : s.isMethod = false)
    {receiver : Parameter} (hposition : receiver.position = 0)
    (hname : receiver.name = "self" ∨ receiver.name = "cls") :
    s.Renumbered (· + 1) (s.withReceiver receiver) where
  qualifiedName_eq := rfl
  location_eq := rfl
  returnType_eq := rfl
  expected_eq := by
    have hreceiver : (s.withReceiver receiver).isReceiver receiver = true := by
      simpa [isReceiver, withReceiver, hposition] using hname
    have hothers : ∀ p : Parameter,
        (s.withReceiver receiver).isReceiver (p.renumber (· + 1)) = false := fun p => by
      simp [isReceiver, Parameter.renumber]
    have hall : s.expected = s.parameters :=
      List.filter_eq_self.mpr fun p _ => by simp [isReceiver, hs]
    have hfilter : (s.parameters.map (Parameter.renumber (· + 1))).filter
          (fun p => !(s.withReceiver receiver).isReceiver p)
        = s.parameters.map (Parameter.renumber (· + 1)) := by
      refine List.filter_eq_self.mpr fun q hq => ?_
      obtain ⟨p, -, rfl⟩ := List.mem_map.mp hq
      rw [hothers p]
      rfl
    calc (s.withReceiver receiver).expected
      _ = (s.parameters.map (Parameter.renumber (· + 1))).filter
            fun p => !(s.withReceiver receiver).isReceiver p :=
        List.filter_cons_of_neg (by simp [hreceiver])
      _ = s.expected.map (Parameter.renumber (· + 1)) := by rw [hfilter, hall]

/-- **A method is analyzed like the function without its receiver** — the same diagnostics with the
same messages in the same order, each at a position one further on. -/
theorem analyze_withReceiver {s : Signature} (hs : s.isMethod = false) {receiver : Parameter}
    (hposition : receiver.position = 0) (hname : receiver.name = "self" ∨ receiver.name = "cls")
    (docstring : Option (List Field)) (settings : Settings) :
    analyze (s.withReceiver receiver) docstring settings
      = (analyze s docstring settings).map (Diagnostic.renumber (· + 1)) :=
  analyze_renumber (fun _ _ => Nat.succ_lt_succ)
    (Signature.renumbered_withReceiver hs hposition hname)
    docstring settings

/-- The function that becomes `sampleMethod` when it gets a receiver. -/
def sampleUnbound : Signature :=
  (((Signature.bare "A.f" ⟨⟨"a.py"⟩, 1⟩).withParameter (.plain "x" 0)).withParameter
    { Parameter.plain "args" 0 with kind := .variadicPositional }).withParameter
    { Parameter.plain "kw" 0 with kind := .variadicKeyword }

theorem analyze_withReceiver_sample :
    (sampleUnbound.isMethod = false ∧ sampleUnbound.withReceiver (.plain "self" 0) = sampleMethod) ∧
    analyze sampleMethod (some sampleFields) {}
      = (analyze sampleUnbound (some sampleFields) {}).map (Diagnostic.renumber (· + 1)) ∧
    ((analyze sampleUnbound (some sampleFields) {}).filter
        fun d => decide (d.category = .missingParamDoc)).map Diagnostic.position
      = [some 0, some 2] := by
  have hposition : (Parameter.plain "self" 0).position = 0 := rfl
  have hreport := analyze_withReceiver (s := sampleUnbound) rfl hposition (.inl rfl)
    (some sampleFields) {}
  refine ⟨⟨rfl, rfl⟩, hreport, ?_⟩
  rw [filter_missing_analyze (by decide) rfl]
  decide

end DocAudit
