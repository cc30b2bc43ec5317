import DocAudit.Proofs.PathOrder
import DocAudit.Proofs.Sorting
import DocAudit.Report.Basic

/-!
# Proofs/ComparatorLaws — the two report orders as total preorders, and what sorting does

The order within a function and the order of a report compare by up to eight keys in turn.  Each key
has a comparison that is a total preorder, so both orders are (`isTotalPreorder_of_transCmp` reads
the laws off the instances of `Proofs/ReportOrder`), and their ties are the ties of all keys
together.  Sorting by such an order gives the same diagnostics, never decreasing, and leaves a
sorted report alone.
-/

namespace DocAudit

open Diagnostic Std

/-- **The laws of a comparison that may have ties**: everything ties with itself, turning the
question around turns the answer around, and what does not decrease twice does not decrease. -/
structure IsTotalPreorder {α : Type} (cmp : α → α → Ordering) : Prop where
  refl : ∀ a, cmp a a = .eq
  swap : ∀ a b, cmp a b = (cmp b a).swap
  trans : ∀ a b c, (cmp a b).isLE → (cmp b c).isLE → (cmp a c).isLE

theorem isTotalPreorder_of_transCmp {α : Type} (cmp : α → α → Ordering) [TransCmp cmp] :
    IsTotalPreorder cmp where
  refl _ := ReflCmp.compare_self
  swap _ _ := OrientedCmp.eq_swap
  trans _ _ _ := TransCmp.isLE_trans

namespace Report

/-- What sorting makes of a report. -/
structure IsSortOf (sorted r : Report) : Prop where
  perm : sorted.diagnostics.Perm r.diagnostics
  increasing : sorted.diagnostics.Pairwise fun a b => (compareReport a b).isLE
  rest : { sorted with diagnostics := r.diagnostics } = r

theorem isSortOf_sort (r : Report) : r.sort.IsSortOf r where
  perm := List.mergeSort_perm _ _
  increasing := Sorting.pairwise_isLE_mergeSort _
  rest := rfl

/-- **A sorted report is left alone.** -/
theorem sort_sort (r : Report) : r.sort.sort = r.sort := by
  have hsorted : sortBy compareReport r.sort.diagnostics = r.sort.diagnostics :=
    List.mergeSort_of_pairwise (isSortOf_sort r).increasing
  rw [sort, hsorted]

end Report

/-- **Both report orders are total preorders with known ties**, paths compare by their steps, and so
sorting a report is idempotent and gives its diagnostics in order. -/
theorem report_orders_lawful :
    IsTotalPreorder compareWithin ∧ IsTotalPreorder compareReport ∧
    (∀ a b, compareWithin a b = .eq ↔ a.position = b.position ∧ a.key = b.key) ∧
    (∀ a b, compareReport a b = .eq ↔
      compareWithin a b = .eq ∧ a.function = b.function ∧ a.location.line = b.location.line ∧
        a.location.file.components = b.location.file.components) ∧
    Path.OrderedBySteps ∧
    ∀ r : Report, r.sort.IsSortOf r ∧ r.sort.sort = r.sort := by
  refine ⟨isTotalPreorder_of_transCmp _, isTotalPreorder_of_transCmp _,
    fun _ _ => compareWithin_eq_iff, fun a b => ?_, Path.orderedBySteps,
    fun r => ⟨r.isSortOf_sort, r.sort_sort⟩⟩
  rw [compareReport_eq_iff, compareWithin_eq_iff]
  constructor
  · rintro ⟨⟨hfile, hline⟩, hfunction, hties⟩
    exact ⟨hties, hfunction, hline, hfile⟩
  · rintro ⟨hties, hfunction, hline, hfile⟩
    exact ⟨⟨hfile, hline⟩, hfunction, hties⟩

end DocAudit
