import DocAudit.Diagnostic.Basic

/-!
# Proofs/ReportOrder — the laws of the report order

`Diagnostic.compareWithin` and `Diagnostic.compareReport` are total preorders (the two `TransCmp`
instances), and their ties are known exactly:

* `compareWithin_eq_iff` — two diagnostics tie within a function iff they have the same position and
  the same key.  The group adds nothing, since the category decides it.
* `compareReport_eq_iff` — they tie in a report iff moreover the function, the line and the steps of
  the two paths agree.

Each law is read off the keys that the comparisons are composed of.
-/

namespace DocAudit

open Std

/-! ## Comparing by a key -/

/-- Comparing by a key inherits the laws of the comparison of keys. -/
theorem transCmp_on {α β : Type} (f : α → β) (cmp : β → β → Ordering) [TransCmp cmp] :
    TransCmp fun a b => cmp (f a) (f b) where
  eq_swap := OrientedCmp.eq_swap
  isLE_trans hab hbc := TransCmp.isLE_trans hab hbc

/-- Comparing by a key that tells all values apart has no ties. -/
theorem lawfulEqCmp_on {α β : Type} {f : α → β} (hf : ∀ {a b}, f a = f b → a = b)
    (cmp : β → β → Ordering) [LawfulEqCmp cmp] : LawfulEqCmp fun a b => cmp (f a) (f b) where
  compare_self := ReflCmp.compare_self
  eq_of_compare h := hf (LawfulEqCmp.eq_of_compare h)

theorem Category.rank_injective {a b : Category} (h : a.rank = b.rank) : a = b := by
  cases a <;> cases b <;> first | rfl | cases h

theorem FieldKind.rank_injective {a b : FieldKind} (h : a.rank = b.rank) : a = b := by
  cases a <;> cases b <;> first | rfl | cases h

instance : TransOrd Category := transCmp_on Category.rank compare

instance : LawfulEqOrd Category := lawfulEqCmp_on Category.rank_injective compare

instance : TransOrd FieldKind := transCmp_on FieldKind.rank compare

instance : LawfulEqOrd FieldKind := lawfulEqCmp_on FieldKind.rank_injective compare

/-! ## Paths and locations -/

namespace Path

instance : TransOrd Component :=
  inferInstanceAs (TransCmp (compareLex (compareOn Component.rank) (compareOn Component.label)))

/-- A step is its kind together with its name. -/
theorem Component.eq_of_rank_of_label {a b : Component} (hrank : a.rank = b.rank)
    (hlabel : a.label = b.label) : a = b := by
  cases a <;> cases b <;> simp_all [Component.rank, Component.label]

instance : LawfulEqOrd Component where
  compare_self := ReflCmp.compare_self
  eq_of_compare {a b} h := by
    obtain ⟨hrank, hlabel⟩ := compareLex_eq_eq.mp h
    exact Component.eq_of_rank_of_label (Std.compare_eq_iff_eq.mp hrank)
      (Std.compare_eq_iff_eq.mp hlabel)

instance : TransOrd Path := transCmp_on components compare

/-- Two paths tie iff they take the same steps; their spelling does not matter. -/
theorem compare_eq_iff {p q : Path} : compare p q = .eq ↔ p.components = q.components :=
  Std.compare_eq_iff_eq (α := List Component)

end Path

instance : TransOrd Location :=
  inferInstanceAs (TransCmp (compareLex (compareOn Location.file) (compareOn Location.line)))

theorem Location.compare_eq_iff {a b : Location} :
    compare a b = .eq ↔ a.file.components = b.file.components ∧ a.line = b.line := by
  refine compareLex_eq_eq.trans (and_congr Path.compare_eq_iff ?_)
  exact Std.compare_eq_iff_eq (α := Nat)

/-! ## Optional keys -/

namespace Diagnostic

instance : TransCmp comparePosition where
  eq_swap {a b} := by
    rcases a with _ | a <;> rcases b with _ | b <;> first | rfl | exact OrientedOrd.eq_swap
  isLE_trans {a b c} hab hbc := by
    -- Only three positions need a law of numbers; no position is behind all of them.
    rcases c with _ | c
    · rcases a with _ | a <;> rfl
    rcases b with _ | b
    · exact absurd hbc (by simp [comparePosition])
    rcases a with _ | a
    · exact absurd hab (by simp [comparePosition])
    exact TransOrd.isLE_trans hab hbc

theorem comparePosition_eq_iff {a b : Option Nat} : comparePosition a b = .eq ↔ a = b := by
  rcases a with _ | a <;> rcases b with _ | b <;> simp [comparePosition]

variable {α : Type} [Ord α]

instance [TransOrd α] : TransCmp (compareOption (α := α)) where
  eq_swap {a b} := by
    rcases a with _ | a <;> rcases b with _ | b <;> first | rfl | exact OrientedOrd.eq_swap
  isLE_trans {a b c} hab hbc := by
    rcases a with _ | a
    · rcases c with _ | c <;> rfl
    rcases b with _ | b
    · exact absurd hab (by simp [compareOption])
    rcases c with _ | c
    · exact absurd hbc (by simp [compareOption])
    exact TransOrd.isLE_trans hab hbc

theorem compareOption_eq_iff [LawfulEqOrd α] {a b : Option α} :
    compareOption a b = .eq ↔ a = b := by
  rcases a with _ | a <;> rcases b with _ | b <;> simp [compareOption]

/-! ## Diagnostics -/

instance : TransCmp compareWithin := by
  have hposition := transCmp_on position comparePosition
  have hsubject := transCmp_on (fun d : Diagnostic => d.finding.subject) compareOption
  have hfield := transCmp_on (fun d : Diagnostic => d.finding.field) compareOption
  exact inferInstanceAs (TransCmp (compareLex _ (compareLex _ (compareLex _ (compareLex _ _)))))

/-- **The ties within a function** — same position and same key. -/
theorem compareWithin_eq_iff {a b : Diagnostic} :
    compareWithin a b = .eq ↔ a.position = b.position ∧ a.key = b.key := by
  simp only [compareWithin, compareLex_eq_eq, comparePosition_eq_iff, compareOption_eq_iff,
    compareOn, Std.compare_eq_iff_eq, key, Prod.mk.injEq]
  constructor
  · rintro ⟨-, hposition, hsubject, hcategory, hfield⟩
    exact ⟨hposition, hcategory, hfield, hsubject⟩
  · rintro ⟨hposition, hcategory, hfield, hsubject⟩
    exact ⟨by rw [hcategory], hposition, hsubject, hcategory, hfield⟩

instance : TransCmp compareReport :=
  inferInstanceAs (TransCmp (compareLex _ (compareLex _ _)))

/-- **The ties in a report** — same place, same function, and a tie within it. -/
theorem compareReport_eq_iff {a b : Diagnostic} :
    compareReport a b = .eq ↔
      (a.location.file.components = b.location.file.components ∧
        a.location.line = b.location.line) ∧
      a.function = b.function ∧ a.position = b.position ∧ a.key = b.key := by
  simp only [compareReport, compareLex_eq_eq, compareWithin_eq_iff, compareOn,
    Location.compare_eq_iff, Std.compare_eq_iff_eq]

end Diagnostic

end DocAudit
