/-!
# Proofs/Sorting — stable sorting by a comparison

Diagnostics and paths are put in order by `mergeSort` with the test `(cmp a b).isLE`, for a
comparison `cmp` that is a total preorder.  Three facts carry the theory of reports:

* `filter_mergeSort` — dropping elements before or after sorting is the same.  Ties do not matter,
  because the sort is stable.
* `pairwise_lt_mergeSort` — where no two elements tie, the sorted list increases strictly.
* `mergeSort_eq_of_perm` — where no two elements tie, the sorted list depends on the elements alone
  and not on the order they came in.

The engine is `List.mergeSort_cons`: a new head is put in front of all elements it is not greater
than.
-/

namespace DocAudit.Sorting

open Std

variable {α : Type} {cmp : α → α → Ordering}

/-! ## The test behind the sort -/

theorem isLE_trans [TransCmp cmp] (a b c : α) (hab : (cmp a b).isLE) (hbc : (cmp b c).isLE) :
    (cmp a c).isLE :=
  TransCmp.isLE_trans hab hbc

theorem isLE_total [OrientedCmp cmp] (a b : α) : (cmp a b).isLE || (cmp b a).isLE := by
  have hswap : cmp b a = (cmp a b).swap := OrientedCmp.eq_swap
  rw [hswap]
  cases cmp a b <;> rfl

theorem lt_of_isLE_of_ne {o : Ordering} (h : o.isLE) (hne : o ≠ .eq) : o = .lt := by
  cases o <;> simp_all

/-- The sorted list never decreases. -/
theorem pairwise_isLE_mergeSort [TransCmp cmp] (l : List α) :
    (l.mergeSort fun a b => (cmp a b).isLE).Pairwise fun a b => (cmp a b).isLE :=
  List.pairwise_mergeSort isLE_trans isLE_total l

/-! ## Sorting and dropping elements -/

/-- A list is cut in one way only into a part that fails a test and a part that passes it. -/
theorem append_inj_of_test {q : α → Bool} {u v u' v' : List α} (h : u ++ v = u' ++ v')
    (hu : ∀ b ∈ u, !q b) (hv : ∀ b ∈ v, q b) (hu' : ∀ b ∈ u', !q b) (hv' : ∀ b ∈ v', q b) :
    u = u' ∧ v = v' := by
  have hfail : ∀ {s t : List α}, (∀ b ∈ s, !q b) → (∀ b ∈ t, q b) →
      (s ++ t).filter (fun b => !q b) = s := fun {s t} hs ht => by
    rw [List.filter_append, List.filter_eq_self.mpr hs,
      List.filter_eq_nil_iff.mpr fun b hb => by simp [ht b hb], List.append_nil]
  have huu : u = u' := by rw [← hfail hu hv, h, hfail hu' hv']
  subst huu
  exact ⟨rfl, List.append_cancel_left h⟩

/-- A new head is put in front of exactly the elements that it is not greater than. -/
theorem mergeSort_cons_cut (cmp : α → α → Ordering) [TransCmp cmp] (a : α) (l : List α) : ∃ l₁ l₂,
    ((a :: l).mergeSort fun a b => (cmp a b).isLE) = l₁ ++ a :: l₂ ∧
      (l.mergeSort fun a b => (cmp a b).isLE) = l₁ ++ l₂ ∧
      (∀ b ∈ l₁, !(cmp a b).isLE) ∧ ∀ b ∈ l₂, (cmp a b).isLE := by
  obtain ⟨l₁, l₂, h, hl, hlt⟩ := List.mergeSort_cons (@isLE_trans α cmp _) isLE_total a l
  refine ⟨l₁, l₂, h, hl, hlt, ?_⟩
  have hs : (l₁ ++ a :: l₂).Pairwise fun a b => (cmp a b).isLE :=
    h ▸ pairwise_isLE_mergeSort (a :: l)
  exact (List.pairwise_cons.mp (List.pairwise_append.mp hs).2.1).1

/-- **Sorting commutes with dropping elements** — the rest keep their order, ties included. -/
theorem filter_mergeSort [TransCmp cmp] (p : α → Bool) (l : List α) :
    (l.mergeSort fun a b => (cmp a b).isLE).filter p
      = (l.filter p).mergeSort fun a b => (cmp a b).isLE := by
  induction l with
  | nil => simp
  | cons a l ih =>
    obtain ⟨l₁, l₂, h, hl, hlt, hge⟩ := mergeSort_cons_cut cmp a l
    rw [hl, List.filter_append] at ih
    by_cases ha : p a = true
    · obtain ⟨m₁, m₂, hm, hml, hmlt, hmge⟩ := mergeSort_cons_cut cmp a (l.filter p)
      -- Both sorts cut the rest in front of the first element that `a` is not greater than.
      obtain ⟨h₁, h₂⟩ := append_inj_of_test (ih.trans hml)
        (fun b hb => hlt b (List.mem_filter.mp hb).1)
        (fun b hb => hge b (List.mem_filter.mp hb).1) hmlt hmge
      rw [h, List.filter_append, List.filter_cons_of_pos ha, List.filter_cons_of_pos ha, hm, h₁,
        h₂]
    · rw [h, List.filter_append, List.filter_cons_of_neg ha, List.filter_cons_of_neg ha, ih]

/-! ## Lists without ties -/

/-- **Where no two elements tie, the sorted list increases strictly.** -/
theorem pairwise_lt_mergeSort [TransCmp cmp] {l : List α}
    (hne : l.Pairwise fun a b => cmp a b ≠ .eq) :
    (l.mergeSort fun a b => (cmp a b).isLE).Pairwise fun a b => cmp a b = .lt := by
  have hsymm : ∀ {a b : α}, cmp a b ≠ .eq → cmp b a ≠ .eq := fun {a b} h h' =>
    h (OrientedCmp.eq_comm.mp h')
  have hne' := (List.mergeSort_perm l fun a b => (cmp a b).isLE).symm.pairwise hne hsymm
  exact ((pairwise_isLE_mergeSort l).and hne').imp fun h => lt_of_isLE_of_ne h.1 h.2

/-- A list that increases strictly is the only one with its elements that does. -/
theorem eq_of_perm_of_pairwise_lt [OrientedCmp cmp] {l l' : List α} (h : l.Perm l')
    (hl : l.Pairwise fun a b => cmp a b = .lt) (hl' : l'.Pairwise fun a b => cmp a b = .lt) :
    l = l' := by
  refine h.eq_of_pairwise (fun a b _ _ hab hba => ?_) hl hl'
  rw [OrientedCmp.gt_of_lt hab] at hba
  cases hba

/-- **Where no two elements tie, the order they came in does not show in the sorted list.** -/
theorem mergeSort_eq_of_perm [TransCmp cmp] {l l' : List α} (h : l.Perm l')
    (hne : l.Pairwise fun a b => cmp a b ≠ .eq) :
    (l.mergeSort fun a b => (cmp a b).isLE) = l'.mergeSort fun a b => (cmp a b).isLE := by
  have hne' : l'.Pairwise fun a b => cmp a b ≠ .eq :=
    h.pairwise hne fun hab hba => hab (OrientedCmp.eq_comm.mp hba)
  refine eq_of_perm_of_pairwise_lt ?_ (pairwise_lt_mergeSort hne) (pairwise_lt_mergeSort hne')
  exact (List.mergeSort_perm l _).trans (h.trans (List.mergeSort_perm l' _).symm)

end DocAudit.Sorting
