import DocAudit.Proofs.FieldReports

/-!
# Proofs/Interleaving — how fields of different kinds are mixed makes no difference

`:param:`, `:type:` and `:rtype:` fields are read in their order, each kind by itself; of the others
only the number counts.  So two lists of fields that agree on these three kinds and are otherwise
permutations of each other (`Reinterleaves`) lead to the same remarks, section by section:

* what is read off one kind in order is the same list;
* malformed and repeated fields come in another order.  Their keys still say all about them
  (`eq_of_key_eq`), so under each key the same remarks are found (`Reinterleaves.filter_remarksOf`).

A report depends on what is found under each key alone (`finish_congr`).
-/

namespace DocAudit

open Analysis Diagnostic

/-- **The second list mixes the kinds of the first in another way**: the same fields, with those of
`:param:`, of `:type:` and of `:rtype:` each in the same order. -/
structure Reinterleaves (fields fields' : List Field) : Prop where
  perm : fields.Perm fields'
  param_eq : fieldsOf .param fields = fieldsOf .param fields'
  type_eq : fieldsOf .type fields = fieldsOf .type fields'
  rtype_eq : fieldsOf .rtype fields = fieldsOf .rtype fields'

namespace Analysis

/-! ## Keys of malformed and repeated fields -/

/-- **The key of a malformed or repeated field says all about it.** -/
theorem eq_of_key_eq {signature : Signature} {fields : List Field} {settings : Settings}
    {sec : Section} (hsec : sec = .shapes ∨ sec = .duplicates) {r r' : Remark}
    (hr : r ∈ remarksOf signature fields settings sec)
    (hr' : r' ∈ remarksOf signature fields settings sec)
    (hfield : r.finding.field = r'.finding.field)
    (hsubject : r.finding.subject = r'.finding.subject) : r = r' := by
  obtain rfl | rfl := hsec
  · obtain ⟨k, s, reason, ⟨f, -, hf⟩, rfl⟩ := mem_shapes_iff.mp hr
    obtain ⟨k', s', reason', ⟨g, -, hg⟩, rfl⟩ := mem_shapes_iff.mp hr'
    obtain rfl : k = k' := Option.some.inj hfield
    obtain rfl : s = s' := hsubject
    rw [hf.reason_unique hg]
  · obtain ⟨k, s, -, rfl⟩ := mem_duplicates_iff.mp hr
    obtain ⟨k', s', -, rfl⟩ := mem_duplicates_iff.mp hr'
    obtain rfl : k = k' := Option.some.inj hfield
    obtain rfl : s = s' := hsubject
    rfl

/-- The repeated keys do not depend on the order of the fields. -/
theorem duplicates_perm (expected : List Parameter) {usable usable' : List Field}
    (h : usable.Perm usable') :
    (duplicates expected usable).Perm (duplicates expected usable') := by
  have hkeys : ((usable.filter fun f => !f.isInline).map (fieldKey expected)).Perm
      ((usable'.filter fun f => !f.isInline).map (fieldKey expected)) := (h.filter _).map _
  have hnodup : ∀ keys : List (FieldKind × Option String), (firstsBy id keys).Nodup := by
    intro keys
    simpa using nodup_map_firstsBy id keys
  have hmem : ∀ (keys : List (FieldKind × Option String)) k, k ∈ firstsBy id keys ↔ k ∈ keys := by
    intro keys k
    simpa using mem_map_firstsBy id (k := k) (l := keys)
  refine List.Perm.map _ ((List.perm_ext_iff_of_nodup ((hnodup _).filter _)
    ((hnodup _).filter _)).mpr fun k => ?_)
  simp only [List.mem_filter, hmem, hkeys.mem_iff, hkeys.count_eq]

/-- Copies of one element stand in one order only. -/
theorem eq_of_perm_of_forall_eq {α : Type} {l l' : List α} (h : l.Perm l')
    (hsame : ∀ a ∈ l, ∀ b ∈ l, a = b) : l = l' := by
  have hpairwise : ∀ l : List α, l.Pairwise fun _ _ => True := fun l =>
    List.pairwise_of_forall fun _ _ => trivial
  refine h.eq_of_pairwise (fun a b ha hb _ _ => ?_) (hpairwise l) (hpairwise l')
  exact hsame a ha b (h.mem_iff.mpr hb)

theorem fieldsOf_filter_isUsable (kind : FieldKind) (fields : List Field) :
    fieldsOf kind (fields.filter isUsable) = (fieldsOf kind fields).filter isUsable := by
  rw [fieldsOf, fieldsOf, List.filter_filter, List.filter_filter]
  exact List.filter_congr fun f _ => Bool.and_comm _ _

end Analysis

namespace Reinterleaves

variable {fields fields' : List Field}

/-! ## What is read off one kind -/

theorem subjects_eq {kind : FieldKind} (h : fieldsOf kind fields = fieldsOf kind fields') :
    subjects kind (fields.filter isUsable) = subjects kind (fields'.filter isUsable) := by
  rw [subjects, subjects, fieldsOf_filter_isUsable, fieldsOf_filter_isUsable, h]

theorem documented_eq (h : Reinterleaves fields fields') (expected : List Parameter) :
    documented expected (fields.filter isUsable)
      = documented expected (fields'.filter isUsable) := by
  rw [documented, documented, subjects_eq h.param_eq]

theorem documentedType_eq (h : Reinterleaves fields fields') (expected : List Parameter)
    (name : String) : documentedType expected (fields.filter isUsable) name
      = documentedType expected (fields'.filter isUsable) name := by
  rw [documentedType, documentedType, fieldsOf_filter_isUsable, fieldsOf_filter_isUsable, h.type_eq]

theorem parameters_eq (h : Reinterleaves fields fields') (expected : List Parameter) :
    parameters expected (fields.filter isUsable)
      = parameters expected (fields'.filter isUsable) := by
  refine List.filterMap_congr fun p _ => ?_
  rw [parameterFinding, parameterFinding, h.documented_eq, h.documentedType_eq]

theorem order_eq (h : Reinterleaves fields fields') (expected : List Parameter) :
    order expected (fields.filter isUsable) = order expected (fields'.filter isUsable) := by
  rw [order, order, h.documented_eq]

theorem returns_eq (h : Reinterleaves fields fields') (returnType : Option String)
    (settings : Settings) : returns returnType fields settings
      = returns returnType fields' settings := by
  have hkind : ∀ kind, hasKind kind fields = hasKind kind fields' := fun kind => h.perm.any_eq
  refine returns_congr (hkind _) (hkind _) ?_ returnType settings
  rw [documentedRtype, documentedRtype, h.rtype_eq]

/-! ## What is found under each key -/

/-- The malformed and the repeated fields are the same, in some order. -/
theorem remarksOf_perm (h : Reinterleaves fields fields') (signature : Signature)
    (settings : Settings) {sec : Section} (hsec : sec = .shapes ∨ sec = .duplicates) :
    (remarksOf signature fields settings sec).Perm (remarksOf signature fields' settings sec) := by
  obtain rfl | rfl := hsec
  · exact h.perm.flatMap_right shapeOf
  · exact duplicates_perm signature.expected (h.perm.filter isUsable)

/-- **Under each key every section finds the same.** -/
theorem filter_remarksOf (h : Reinterleaves fields fields') (signature : Signature)
    (settings : Settings) (sec : Section) (k : Key) :
    ((remarksOf signature fields settings sec).filter fun r =>
        decide ((r.finding.category, r.finding.field, r.finding.subject) = k))
      = (remarksOf signature fields' settings sec).filter fun r =>
        decide ((r.finding.category, r.finding.field, r.finding.subject) = k) := by
  by_cases hsec : sec = .shapes ∨ sec = .duplicates
  · refine eq_of_perm_of_forall_eq ((h.remarksOf_perm signature settings hsec).filter _) ?_
    intro r hr r' hr'
    obtain ⟨hr, hkey⟩ := List.mem_filter.mp hr
    obtain ⟨hr', hkey'⟩ := List.mem_filter.mp hr'
    have hsame := congrArg Prod.snd ((of_decide_eq_true hkey).trans (of_decide_eq_true hkey').symm)
    exact eq_of_key_eq hsec hr hr' (congrArg Prod.fst hsame) (congrArg Prod.snd hsame)
  · refine congrArg (List.filter _) ?_
    match sec with
    | .shapes => exact absurd (.inl rfl) hsec
    | .duplicates => exact absurd (.inr rfl) hsec
    | .unknowns =>
      rw [remarksOf, remarksOf, unknowns, unknowns, unknowns, unknowns, subjects_eq h.param_eq,
        subjects_eq h.type_eq]
    | .parameters => exact h.parameters_eq signature.expected
    | .order => exact h.order_eq signature.expected
    | .returns => exact h.returns_eq signature.returnType settings

end Reinterleaves

/-- **The interleaving of kinds is irrelevant** — of fields in another order the analysis reports
the same diagnostics in the same order, if only `:param:`, `:type:` and `:rtype:` fields each keep
their order. -/
theorem analyze_reinterleaved {fields fields' : List Field} (h : Reinterleaves fields fields')
    (signature : Signature) (settings : Settings) :
    analyze signature (some fields) settings = analyze signature (some fields') settings := by
  rw [analyze_eq_finish, analyze_eq_finish]
  refine finish_congr fun k => ?_
  rw [List.filter_map, List.filter_map]
  refine congrArg (List.map _) ?_
  simp only [Function.comp_def, Remark.diagnostic_key, remarksOn, remarks_eq_append,
    List.filter_append, h.filter_remarksOf signature settings]

/-- A function with a return type and two parameters, the second of them annotated. -/
def sampleMixed : Signature :=
  { ((Signature.bare "h" ⟨⟨"a.py"⟩, 4⟩).withParameter (.plain "x" 0)).withParameter
      { Parameter.plain "y" 0 with declaredType := some "int" } with returnType := some "str" }

/-- Fields of all kinds, some of them repeated and some malformed. -/
def sampleMix : List Field :=
  [.param "y" "Y.", .returns "", .param "x" " ", .raises "E" "", .typeOf "y" "str", .rtype "int",
    .raises "E" "", .returns "R.", .broken ":"]

/-- The same fields, where no field has kept its place. -/
def sampleRemix : List Field :=
  [.raises "E" "", .returns "R.", .typeOf "y" "str", .param "y" "Y.", .broken ":", .rtype "int",
    .returns "", .raises "E" "", .param "x" " "]

theorem analyze_reinterleaved_sample :
    Reinterleaves sampleMix sampleRemix ∧
    analyze sampleMixed (some sampleMix) {} = analyze sampleMixed (some sampleRemix) {} := by
  have h : Reinterleaves sampleMix sampleRemix := ⟨by decide, rfl, rfl, rfl⟩
  exact ⟨h, analyze_reinterleaved h sampleMixed {}⟩

end DocAudit
