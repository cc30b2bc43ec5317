import DocAudit.Proofs.ParameterReports

/-!
# Proofs/OrderReports — when the order of the documented parameters is reported

The order in which a docstring mentions its parameters is a list of its own (`IsMentionOrder`): the
documented parameters, by the place of the first `:param:` field about each.  The analysis computes
it (`isMentionOrder_documented`), and there is no other such list (`IsMentionOrder.unique`).

Positions are sorted and turned back into names.  In a regular signature that comes to listing the
mentioned parameters as they are declared (`mergeSort_positions`), so `order_reports_exact` compares
two lists of parameters: one report where they differ, and none where they are the same.
-/

namespace DocAudit

open Subject Analysis Diagnostic

/-! ## First mentions -/

/-- The place of the first `:param:` field about the parameter. -/
def firstMention (expected : List Parameter) (fields : List Field) (p : Parameter) : Nat :=
  fields.findIdx (Field.isAbout expected .param p)

/-- **The list holds the documented parameters in the order of their first mention.** -/
structure IsMentionOrder (expected : List Parameter) (fields : List Field) (ps : List Parameter) :
    Prop where
  mem_iff : ∀ p, p ∈ ps ↔ isDocumented expected fields p = true
  increasing : ps.Pairwise fun p q =>
    firstMention expected fields p < firstMention expected fields q

theorem IsMentionOrder.nodup {expected : List Parameter} {fields : List Field}
    {ps : List Parameter} (h : IsMentionOrder expected fields ps) : ps.Nodup :=
  h.increasing.imp fun hlt heq => absurd (heq ▸ hlt) (Nat.lt_irrefl _)

/-- The order of first mention is one list. -/
theorem IsMentionOrder.unique {expected : List Parameter} {fields : List Field}
    {ps qs : List Parameter} (hps : IsMentionOrder expected fields ps)
    (hqs : IsMentionOrder expected fields qs) : ps = qs := by
  have hperm : ps.Perm qs := (List.perm_ext_iff_of_nodup hps.nodup hqs.nodup).mpr fun p =>
    (hps.mem_iff p).trans (hqs.mem_iff p).symm
  refine hperm.eq_of_pairwise (fun p q _ _ hpq hqp => ?_) hps.increasing hqs.increasing
  exact absurd hqp (Nat.lt_asymm hpq)

namespace Analysis

/-- The parameter that a `:param:` field is about. -/
def mention? (expected : List Parameter) (f : Field) : Option Parameter :=
  if f.kind = .param then (f.subject.filter isIdentifierLike).bind (resolve? expected) else none

variable {expected : List Parameter} {fields : List Field}

theorem mention?_eq_some_iff {f : Field} {p : Parameter} :
    mention? expected f = some p ↔ f.isAbout expected .param p = true := by
  rw [Field.isAbout_iff, mention?]
  split
  · rename_i hkind
    simp [hkind, Option.bind_eq_some_iff, Option.filter_eq_some_iff, and_assoc]
  · rename_i hkind
    simp [hkind]

theorem firstMention_eq (p : Parameter) :
    firstMention expected fields p = fields.findIdx fun f => mention? expected f == some p := by
  refine congrArg (List.findIdx · fields) (funext fun f => ?_)
  rw [Bool.eq_iff_iff, beq_iff_eq, mention?_eq_some_iff]

/-- The documented parameters are the first mentions. -/
theorem documented_eq_firstsBy : documented expected (fields.filter isUsable)
    = firstsBy Parameter.position (fields.filterMap (mention? expected)) := by
  have hmentions : (subjects .param (fields.filter isUsable)).filterMap (resolve? expected)
      = fields.filterMap (mention? expected) := by
    rw [subjects, fieldsOf, List.filterMap_filterMap, List.filterMap_filter, List.filterMap_filter]
    refine List.filterMap_congr fun f _ => ?_
    by_cases hkind : f.kind = .param
    · have hsubject : f.kind.requiresSubject = true := by rw [hkind]; rfl
      by_cases husable : isUsable f = true
      · obtain ⟨s, hs, hlike⟩ := (isUsable_iff hsubject).mp husable
        simp [mention?, hkind, husable, hs, Option.filter, hlike]
      · have hunlike : f.subject.filter isIdentifierLike = none := by
          refine Option.filter_eq_none_iff.mpr fun s hs hlike => husable ?_
          exact (isUsable_iff hsubject).mpr ⟨s, hs, hlike⟩
        simp [mention?, hkind, husable, hunlike]
    · simp [mention?, hkind]
  rw [documented, hmentions]

theorem mem_expected_of_isDocumented {p : Parameter} (h : isDocumented expected fields p = true) :
    p ∈ expected := by
  obtain ⟨s, -, hs⟩ := List.mem_filterMap.mp (isDocumented_iff.mp h)
  exact mem_of_resolve? hs

theorem mem_documented_iff (hpositions : (expected.map Parameter.position).Nodup)
    {p : Parameter} :
    p ∈ documented expected (fields.filter isUsable) ↔ isDocumented expected fields p = true := by
  constructor
  · intro hp
    exact isDocumented_iff.mpr ((firstsBy_sublist _ _).subset hp)
  · intro hp
    have hposition : p.position ∈
        (documented expected (fields.filter isUsable)).map Parameter.position :=
      (mem_map_firstsBy _).mpr (List.mem_map_of_mem (isDocumented_iff.mp hp))
    obtain ⟨q, hq, hsame⟩ := List.mem_map.mp hposition
    have hq' := isDocumented_iff.mpr ((firstsBy_sublist _ _).subset hq)
    rwa [List.inj_on_of_nodup_map hpositions (mem_expected_of_isDocumented hq')
      (mem_expected_of_isDocumented hp) hsame] at hq

/-- **The analysis finds the order of first mention.** -/
theorem isMentionOrder_documented (hpositions : (expected.map Parameter.position).Nodup) :
    IsMentionOrder expected fields (documented expected (fields.filter isUsable)) where
  mem_iff _ := mem_documented_iff hpositions
  increasing := by
    simp only [firstMention_eq, documented_eq_firstsBy]
    exact pairwise_findIdx_firstsBy _ _ _

/-! ## Positions and names -/

/-- The parameters of the list as they are declared. -/
def asDeclared (expected ps : List Parameter) : List Parameter :=
  expected.filter fun p => decide (p ∈ ps)

variable {ps : List Parameter}

theorem asDeclared_perm (hpositions : (expected.map Parameter.position).Pairwise (· < ·))
    (hps : ps.Nodup) (hsub : ps ⊆ expected) : (asDeclared expected ps).Perm ps := by
  have hexpected : expected.Nodup :=
    List.Nodup.of_map Parameter.position (hpositions.imp Nat.ne_of_lt)
  refine (List.perm_ext_iff_of_nodup (hexpected.filter _) hps).mpr fun p => ?_
  simp only [List.mem_filter, decide_eq_true_eq]
  exact ⟨fun hp => hp.2, fun hp => ⟨hsub hp, hp⟩⟩

/-- **Sorting positions lists the parameters as they are declared.** -/
theorem mergeSort_positions (hpositions : (expected.map Parameter.position).Pairwise (· < ·))
    (hps : ps.Nodup) (hsub : ps ⊆ expected) :
    ((ps.map Parameter.position).mergeSort fun a b => decide (a ≤ b))
      = (asDeclared expected ps).map Parameter.position := by
  have hperm : ((ps.map Parameter.position).mergeSort fun a b => decide (a ≤ b)).Perm
      ((asDeclared expected ps).map Parameter.position) :=
    (List.mergeSort_perm _ _).trans ((asDeclared_perm hpositions hps hsub).map _).symm
  have hsorted : ((ps.map Parameter.position).mergeSort fun a b => decide (a ≤ b)).Pairwise
      (· ≤ ·) := by
    refine (List.pairwise_mergeSort ?_ ?_ _).imp of_decide_eq_true
    · intro a b c hab hbc
      exact decide_eq_true (Nat.le_trans (of_decide_eq_true hab) (of_decide_eq_true hbc))
    · intro a b
      simpa using Nat.le_total a b
  have hdeclared : ((asDeclared expected ps).map Parameter.position).Pairwise (· ≤ ·) :=
    (hpositions.sublist (List.filter_sublist.map _)).imp Nat.le_of_lt
  exact hperm.eq_of_pairwise (fun a b _ _ => Nat.le_antisymm) hsorted hdeclared

theorem nameAt_position (hpositions : (expected.map Parameter.position).Nodup) {p : Parameter}
    (hp : p ∈ expected) : nameAt expected p.position = p.name := by
  obtain ⟨q, hq⟩ : ∃ q, (expected.find? fun q => q.position == p.position) = some q :=
    Option.isSome_iff_exists.mp (List.find?_isSome.mpr ⟨p, hp, beq_self_eq_true _⟩)
  have hsame : q.position = p.position := by simpa using List.find?_some hq
  simp only [nameAt, hq]
  rw [List.inj_on_of_nodup_map hpositions (List.mem_of_find?_eq_some hq) hp hsame]

theorem map_nameAt (hpositions : (expected.map Parameter.position).Nodup) (hsub : ps ⊆ expected) :
    (ps.map Parameter.position).map (nameAt expected) = ps.map Parameter.name := by
  rw [List.map_map]
  exact List.map_congr_left fun p hp => nameAt_position hpositions (hsub hp)

/-- Parameters that a key tells apart are known by their lists of keys. -/
theorem eq_of_map_eq {κ : Type} {key : Parameter → κ} (hkeys : (expected.map key).Nodup)
    {qs : List Parameter} (hps : ps ⊆ expected) (hqs : qs ⊆ expected)
    (hsame : ps.map key = qs.map key) : ps = qs := by
  have hlength : ps.length = qs.length := by simpa using congrArg List.length hsame
  refine List.ext_getElem hlength fun i hi hi' => ?_
  have hkey : (ps.map key)[i]? = (qs.map key)[i]? := by rw [hsame]
  simp only [List.getElem?_map, List.getElem?_eq_getElem hi, List.getElem?_eq_getElem hi',
    Option.map_some, Option.some.injEq] at hkey
  exact List.inj_on_of_nodup_map hkeys (hps (List.getElem_mem hi)) (hqs (List.getElem_mem hi')) hkey

/-! ## The report -/

/-- The parameters stand in the order of their declaration. -/
def InDeclaredOrder (ps : List Parameter) : Prop :=
  ps.Pairwise fun p q => p.position < q.position

instance (ps : List Parameter) : Decidable (InDeclaredOrder ps) :=
  inferInstanceAs (Decidable (ps.Pairwise _))

/-- A list of expected parameters is in order exactly if it is what the declaration makes of it. -/
theorem asDeclared_eq_iff (hpositions : (expected.map Parameter.position).Pairwise (· < ·))
    (hps : ps.Nodup) (hsub : ps ⊆ expected) : asDeclared expected ps = ps ↔ InDeclaredOrder ps := by
  have hdeclared : InDeclaredOrder (asDeclared expected ps) :=
    List.pairwise_map.mp (hpositions.sublist (List.filter_sublist.map _))
  constructor
  · intro heq
    rwa [heq] at hdeclared
  · intro horder
    have hperm := asDeclared_perm hpositions hps hsub
    refine hperm.eq_of_pairwise (fun p q _ _ hpq hqp => ?_) hdeclared horder
    exact absurd hqp (Nat.lt_asymm hpq)

variable {signature : Signature} {settings : Settings}

/-- **The remark about the order**, from the order of first mention. -/
theorem order_eq (h : signature.IsRegular) (hps : IsMentionOrder signature.expected fields ps) :
    order signature.expected (fields.filter isUsable)
      = if InDeclaredOrder ps then []
        else [⟨.paramOrder ((asDeclared signature.expected ps).map Parameter.name)
          (ps.map Parameter.name), none⟩] := by
  have hnodup := h.nodup_expected_positions
  have hsub : ps ⊆ signature.expected := fun p hp =>
    mem_expected_of_isDocumented ((hps.mem_iff p).mp hp)
  have hsub' : asDeclared signature.expected ps ⊆ signature.expected := List.filter_subset_self _
  have hsame : ps.map Parameter.position = (asDeclared signature.expected ps).map Parameter.position
      ↔ InDeclaredOrder ps := by
    rw [← asDeclared_eq_iff h.pairwise_position_lt hps.nodup hsub]
    exact ⟨fun heq => (eq_of_map_eq hnodup hsub hsub' heq).symm, fun heq => by rw [heq]⟩
  rw [order, (isMentionOrder_documented hnodup).unique hps]
  simp only [mergeSort_positions h.pairwise_position_lt hps.nodup hsub, hsame,
    map_nameAt hnodup hsub, map_nameAt hnodup hsub']

/-- The report that the parameters are documented in the given order. -/
def orderDiagnostic (signature : Signature) (ps : List Parameter) : Diagnostic :=
  .ofFinding (.paramOrder ((asDeclared signature.expected ps).map Parameter.name)
    (ps.map Parameter.name)) signature.qualifiedName signature.location none

/-- The diagnostics about the order of parameters. -/
def orderReports (ds : List Diagnostic) : List Diagnostic :=
  ds.filter fun d => decide (d.category = .paramOrderMismatch)

/-- **The order is reported once, or not at all.** -/
theorem orderReports_eq (h : signature.IsRegular)
    (hreports : settings.reports .paramOrderMismatch = true)
    (hps : IsMentionOrder signature.expected fields ps) :
    orderReports (analyze signature (some fields) settings)
      = if InDeclaredOrder ps then [] else [orderDiagnostic signature ps] := by
  have hsection : ∀ k : Key, decide (k.1 = .paramOrderMismatch) = true →
      sectionOf k.1 = some .order := by
    intro k hk
    rw [of_decide_eq_true hk]
    rfl
  rw [← ite_not]
  refine filter_analyze_eq_ite hsection (r := ⟨.paramOrder _ _, none⟩) hreports nofun fun r => ?_
  rw [remarksOf, order_eq h hps]
  split
  · rename_i horder
    simp [horder]
  · rename_i horder
    rw [List.mem_singleton]
    refine ⟨fun hr => ⟨horder, hr.1⟩, ?_⟩
    rintro ⟨-, rfl⟩
    exact ⟨rfl, rfl⟩

/-- One field for each of the parameters, in their order. -/
def paramFields (body : Parameter → String) (ps : List Parameter) : List Field :=
  ps.map fun p => .param p.name (body p)

/-- Fields that name the parameters mention them in their order. -/
theorem isMentionOrder_paramFields (h : signature.IsRegular) (body : Parameter → String)
    (hps : ps.Nodup) (hnames : ∀ p ∈ ps, p ∈ signature.expected ∧ IsPlainName p.name) :
    IsMentionOrder signature.expected (paramFields body ps) ps := by
  have hpositions := h.nodup_expected_positions
  have hmention : ∀ p ∈ ps,
      mention? signature.expected (.param p.name (body p)) = some p := by
    intro p hp
    obtain ⟨hexpected, hplain⟩ := hnames p hp
    refine mention?_eq_some_iff.mpr (Field.isAbout_iff.mpr ⟨rfl, p.name, rfl, hplain.1, ?_⟩)
    exact resolve?_name h.nodup_expected_names hexpected hplain
  have hmentions : (paramFields body ps).filterMap (mention? signature.expected) = ps :=
    calc (paramFields body ps).filterMap (mention? signature.expected)
      _ = ps.filterMap (mention? signature.expected ∘ fun p => .param p.name (body p)) :=
        List.filterMap_map
      _ = ps.filterMap some := List.filterMap_congr hmention
      _ = ps := List.filterMap_some
  have hkeys : (ps.map Parameter.position).Nodup := hps.map_on fun p hp q hq =>
    List.inj_on_of_nodup_map hpositions (hnames p hp).1 (hnames q hq).1
  have hdocumented := @isMentionOrder_documented signature.expected (paramFields body ps) hpositions
  rwa [documented_eq_firstsBy, hmentions, firstsBy_eq_self _ hkeys] at hdocumented

end Analysis

open Analysis

/-- **The order of parameters is reported exactly** — where `ps` are the documented parameters in
the order of their first mention, one report if that is not the order of declaration and none if it
is.  The report shows two different orders of the same names.  So of all lists of different
parameters, documented in turn, exactly those are reported that are not as declared. -/
theorem order_reports_exact {signature : Signature} (h : signature.IsRegular)
    (fields : List Field) (settings : Settings)
    (hreports : settings.ignores .paramOrderMismatch = false) :
    (∃! ps, IsMentionOrder signature.expected fields ps) ∧
    (∀ ps, IsMentionOrder signature.expected fields ps →
      orderReports (analyze signature (some fields) settings)
        = (if InDeclaredOrder ps then [] else [orderDiagnostic signature ps]) ∧
      ((asDeclared signature.expected ps).map Parameter.name).Perm (ps.map Parameter.name) ∧
      (¬InDeclaredOrder ps →
        (asDeclared signature.expected ps).map Parameter.name ≠ ps.map Parameter.name)) ∧
    ∀ ps : List Parameter, ps.Nodup →
      (∀ p ∈ ps, p ∈ signature.expected ∧ IsPlainName p.name) → ∀ body : Parameter → String,
      (orderReports (analyze signature (some (paramFields body ps)) settings) = [] ↔
        asDeclared signature.expected ps = ps) := by
  have hreports' := reports_of_not_ignores hreports
  have hpositions := h.pairwise_position_lt
  have hmentioned := @isMentionOrder_documented signature.expected fields
    h.nodup_expected_positions
  refine ⟨⟨_, hmentioned, fun qs hqs => hqs.unique hmentioned⟩, ?_, ?_⟩
  · intro ps hps
    have hsub : ps ⊆ signature.expected := fun p hp =>
      mem_expected_of_isDocumented ((hps.mem_iff p).mp hp)
    refine ⟨orderReports_eq h hreports' hps, (asDeclared_perm hpositions hps.nodup hsub).map _, ?_⟩
    intro horder hsame
    refine horder ((asDeclared_eq_iff hpositions hps.nodup hsub).mp ?_)
    exact eq_of_map_eq h.nodup_expected_names (List.filter_subset_self _) hsub hsame
  · intro ps hps hnames body
    have hsub : ps ⊆ signature.expected := fun p hp => (hnames p hp).1
    rw [orderReports_eq h hreports' (isMentionOrder_paramFields h body hps hnames),
      asDeclared_eq_iff hpositions hps hsub]
    by_cases horder : InDeclaredOrder ps <;> simp [horder]

/-- The variadic parameter comes first, `y` twice, with a name that is gone, and `x` never. -/
def sampleMentions : List Field :=
  [.param "*args" "A.", .param "old" "O.", .param "y" "Y.", .param "args" "Again.",
    .param "y" "Again.", .raises "ValueError" ""]

/-- A method with two plain parameters and a variadic one. -/
def sampleOrdered : Signature :=
  (((({ Signature.bare "A.g" ⟨⟨"a.py"⟩, 7⟩ with isMethod := true }).withParameter
    (.plain "self" 0)).withParameter (.plain "x" 0)).withParameter (.plain "y" 0)).withParameter
    { Parameter.plain "args" 0 with kind := .variadicPositional }

theorem order_reports_sample :
    sampleOrdered.IsRegular ∧
    orderReports (analyze sampleOrdered (some sampleMentions) {})
      = [.ofFinding (.paramOrder ["y", "args"] ["args", "y"]) "A.g" ⟨⟨"a.py"⟩, 7⟩ none] ∧
    orderReports (analyze sampleOrdered
      (some (paramFields (fun _ => "D.") [.plain "x" 1, .plain "y" 2])) {}) = [] := by
  have hregular : sampleOrdered.IsRegular := by decide
  obtain ⟨⟨ps, hps, -⟩, hexact, hturn⟩ := order_reports_exact hregular sampleMentions {} rfl
  have hmentioned := hps.unique (isMentionOrder_documented (by decide))
  refine ⟨hregular, (hexact ps hps).1.trans ?_, (hturn _ (by decide) ?_ _).mpr (by decide)⟩
  · rw [hmentioned]
    decide
  · intro p hp
    simp only [List.mem_cons, List.not_mem_nil, or_false] at hp
    obtain rfl | rfl := hp
    · exact ⟨by decide, by decide, by decide⟩
    · exact ⟨by decide, by decide, by decide⟩

end DocAudit
