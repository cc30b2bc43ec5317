import DocAudit.Proofs.Remarks
import DocAudit.Proofs.ReportOrder
import DocAudit.Proofs.Sorting

/-!
# Proofs/WithinFunction — the diagnostics of one function stand in strict report order

Sorting alone would leave ties, and dropping repeated keys alone would leave any order.  Together
they give a list that increases strictly (`InReportOrder`): two diagnostics tie only if they have
the same key (`compareWithin_eq_iff`), and one of the two is dropped.  A check then adds one
diagnostic of a category that no analysis reports, and sorts again.

* `inReportOrder_of_sorted` — sorted and without repeated keys is enough.
* `check_inReportOrder` — every analysis and every check ends there.
-/

namespace DocAudit

open Analysis Diagnostic

/-! ## The order in words -/

namespace Diagnostic

/-- Positions come in order, and every position comes before none. -/
def PositionBefore : Option Nat → Option Nat → Prop
  | some a, some b => a < b
  | some _, none => True
  | none, _ => False

/-- No subject comes first, and subjects come by their characters. -/
def SubjectUpTo : Option String → Option String → Prop
  | none, _ => True
  | some a, some b => a ≤ b
  | some _, none => False

/-- One diagnostic comes before another by its group, then by its position, then by its subject. -/
def ComesBefore (a b : Diagnostic) : Prop :=
  a.category.group.rank < b.category.group.rank ∨
    a.category.group.rank = b.category.group.rank ∧
      (PositionBefore a.position b.position ∨
        a.position = b.position ∧ SubjectUpTo a.finding.subject b.finding.subject)

theorem positionBefore_of_lt {a b : Option Nat} (h : comparePosition a b = .lt) :
    PositionBefore a b := by
  rcases a with _ | a <;> rcases b with _ | b <;>
    simp_all [comparePosition, PositionBefore, Nat.compare_eq_lt]

theorem subjectUpTo_of_isLE {a b : Option String} (h : (compareOption a b).isLE) :
    SubjectUpTo a b := by
  rcases a with _ | a <;> rcases b with _ | b
  · trivial
  · trivial
  · exact absurd h (by simp [compareOption])
  · exact (isLE_compareOfLessAndEq String.le_antisymm String.not_le String.le_total).mp h

/-- What the comparison says in words. -/
theorem comesBefore_of_lt {a b : Diagnostic} (h : compareWithin a b = .lt) : ComesBefore a b := by
  simp only [compareWithin, compareLex, Ordering.then_eq_lt, compareOn, Nat.compare_eq_lt,
    Nat.compare_eq_eq, comparePosition_eq_iff, compareOption_eq_iff] at h
  rcases h with hgroup | ⟨hgroup, hposition | ⟨hposition, hsubject⟩⟩
  · exact Or.inl hgroup
  · exact Or.inr ⟨hgroup, Or.inl (positionBefore_of_lt hposition)⟩
  · refine Or.inr ⟨hgroup, Or.inr ⟨hposition, subjectUpTo_of_isLE ?_⟩⟩
    rcases hsubject with hlt | ⟨heq, -⟩
    · rw [hlt]
      rfl
    · rw [compareOption_eq_iff.mpr heq]
      rfl

end Diagnostic

/-- **Strict report order**: each diagnostic comes before all later ones, and no key occurs twice.
The last field says in words what the comparison comes to. -/
structure InReportOrder (ds : List Diagnostic) : Prop where
  increasing : ds.Pairwise fun a b => compareWithin a b = .lt
  keys_nodup : (ds.map key).Nodup
  comesBefore : ds.Pairwise ComesBefore

/-- Diagnostics with different keys never tie. -/
theorem pairwise_compareWithin_ne {ds : List Diagnostic} (h : (ds.map key).Nodup) :
    ds.Pairwise fun a b => compareWithin a b ≠ .eq :=
  (List.pairwise_map.mp h).imp fun hne heq => hne (compareWithin_eq_iff.mp heq).2

/-- **Sorted and without repeated keys is strict report order.** -/
theorem inReportOrder_of_sorted {ds : List Diagnostic}
    (hsorted : ds.Pairwise fun a b => (compareWithin a b).isLE)
    (hkeys : (ds.map key).Nodup) : InReportOrder ds := by
  have hlt : ds.Pairwise fun a b => compareWithin a b = .lt :=
    (hsorted.and (pairwise_compareWithin_ne hkeys)).imp fun h => Sorting.lt_of_isLE_of_ne h.1 h.2
  exact ⟨hlt, hkeys, hlt.imp comesBefore_of_lt⟩

/-! ## Analyses and checks -/

/-- Diagnostics may be dropped before or after sorting. -/
theorem filter_sortBy {cmp : Diagnostic → Diagnostic → Ordering} [Std.TransCmp cmp]
    (p : Diagnostic → Bool) (ds : List Diagnostic) :
    (Diagnostic.sortBy cmp ds).filter p = Diagnostic.sortBy cmp (ds.filter p) :=
  Sorting.filter_mergeSort p ds

theorem inReportOrder_finish (settings : Settings) (ds : List Diagnostic) :
    InReportOrder (finish settings ds) := by
  refine inReportOrder_of_sorted ?_ (nodup_map_firstsBy key _)
  exact (Sorting.pairwise_isLE_mergeSort _).sublist (firstsBy_sublist key _)

theorem inReportOrder_analyze (signature : Signature) (docstring : Option (List Field))
    (settings : Settings) : InReportOrder (analyze signature docstring settings) := by
  rw [analyze_eq_finish]
  exact inReportOrder_finish settings _

/-- An analysis is sorted already. -/
theorem sortBy_analyze (signature : Signature) (docstring : Option (List Field))
    (settings : Settings) : sortBy compareWithin (analyze signature docstring settings)
      = analyze signature docstring settings := by
  refine List.mergeSort_of_pairwise
    ((inReportOrder_analyze signature docstring settings).increasing.imp fun h => ?_)
  rw [h]
  rfl

/-- Sorting diagnostics with different keys puts them in strict report order. -/
theorem inReportOrder_sortBy {ds : List Diagnostic} (hkeys : (ds.map key).Nodup) :
    InReportOrder (sortBy compareWithin ds) := by
  refine inReportOrder_of_sorted (Sorting.pairwise_isLE_mergeSort ds) ?_
  exact (((List.mergeSort_perm ds _).map key).nodup_iff).mpr hkeys

namespace Definition

/-- The diagnostic about a broken line, if there is a broken line and the settings report it. -/
def brokenLineDiagnostics (settings : Settings) (d : Definition) : List Diagnostic :=
  (d.brokenLine?.toList.map d.brokenLineDiagnostic).filter fun x => settings.reports x.category

theorem mem_brokenLineDiagnostics {settings : Settings} {d : Definition} {x : Diagnostic}
    (h : x ∈ d.brokenLineDiagnostics settings) : ∃ line, x = d.brokenLineDiagnostic line := by
  obtain ⟨line, -, rfl⟩ := List.mem_map.mp (List.mem_filter.mp h).1
  exact ⟨line, rfl⟩

/-- **A check sorts what its analysis reports together with the broken line.**  Where there is none
to report, sorting changes nothing. -/
theorem check_eq_sortBy (settings : Settings) (d : Definition) :
    d.check settings
      = if d.suppressed then [] else
          sortBy compareWithin
            (analyze d.signature d.fields settings ++ d.brokenLineDiagnostics settings) := by
  have hsorted := sortBy_analyze d.signature d.fields settings
  have hcategory : ∀ line, (d.brokenLineDiagnostic line).category = .invalidRest := fun _ => rfl
  unfold check brokenLineDiagnostics
  split
  · rfl
  rcases d.brokenLine? with _ | line
  · simp [hsorted]
  by_cases h : settings.reports .invalidRest = true
  · simp [h, hcategory]
  · simp [h, hcategory, hsorted]

/-- The diagnostic about a broken line repeats nothing that the analysis reports. -/
theorem keys_nodup_brokenLine (settings : Settings) (d : Definition) :
    ((analyze d.signature d.fields settings
      ++ d.brokenLineDiagnostics settings).map key).Nodup := by
  have hbroken : ((d.brokenLineDiagnostics settings).map key).Nodup := by
    refine List.Sublist.nodup (List.filter_sublist.map key) ?_
    rcases d.brokenLine? with _ | line <;> simp
  rw [List.map_append, List.nodup_append]
  refine ⟨(inReportOrder_analyze d.signature d.fields settings).keys_nodup, hbroken, ?_⟩
  intro k hk k' hk' heq
  obtain ⟨a, ha, rfl⟩ := List.mem_map.mp hk
  obtain ⟨b, hb, rfl⟩ := List.mem_map.mp hk'
  obtain ⟨line, rfl⟩ := mem_brokenLineDiagnostics hb
  exact category_ne_invalidRest_of_mem_analyze ha (congrArg Prod.fst heq)

theorem inReportOrder_check (settings : Settings) (d : Definition) :
    InReportOrder (d.check settings) := by
  rw [check_eq_sortBy]
  split
  · exact ⟨.nil, .nil, .nil⟩
  · exact inReportOrder_sortBy (d.keys_nodup_brokenLine settings)

/-- A check reports in its own function only. -/
theorem function_and_location_of_mem_check {settings : Settings} {d : Definition} {x : Diagnostic}
    (h : x ∈ d.check settings) :
    x.function = d.signature.qualifiedName ∧ x.location = d.signature.location := by
  rw [check_eq_sortBy] at h
  split at h
  · exact absurd h List.not_mem_nil
  rw [sortBy, List.mem_mergeSort, List.mem_append] at h
  rcases h with h | h
  · obtain ⟨r, -, rfl⟩ := mem_analyze h
    obtain ⟨severity, hr⟩ := r.diagnostic_eq d.signature settings
    rw [hr]
    exact ⟨rfl, rfl⟩
  · obtain ⟨line, rfl⟩ := mem_brokenLineDiagnostics h
    exact ⟨rfl, rfl⟩

end Definition

/-- **The diagnostics of one function stand in strict report order**, whatever its signature, its
docstring and the settings. -/
theorem check_inReportOrder (settings : Settings) :
    (∀ (signature : Signature) (docstring : Option (List Field)),
      InReportOrder (analyze signature docstring settings)) ∧
    ∀ d : Definition, InReportOrder (d.check settings) :=
  ⟨fun signature docstring => inReportOrder_analyze signature docstring settings,
    Definition.inReportOrder_check settings⟩

end DocAudit
