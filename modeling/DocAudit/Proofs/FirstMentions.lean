import DocAudit.Firsts

/-!
# Proofs/FirstMentions — what stays when repeated keys are dropped

`firstsBy key l` is a part of `l` in the same order (`firstsBy_sublist`) in which every key occurs
(`mem_map_firstsBy`) and none occurs twice (`nodup_map_firstsBy`).  A test that looks at the key
alone may be applied before or after (`firstsBy_filter`), and so may a renaming that keeps the keys
apart (`firstsBy_map`).  What is read off the elements of a longer list stands in the order of the
places where it is first read (`pairwise_findIdx_firstsBy`).
-/

namespace DocAudit

variable {α κ : Type} [DecidableEq κ]

/-- The first mentions stand in the order of the list. -/
theorem firstsBy_sublist (key : α → κ) (l : List α) : (firstsBy key l).Sublist l := by
  induction l with
  | nil => exact .slnil
  | cons a l ih =>
    rw [firstsBy]
    exact (List.filter_sublist.trans ih).cons_cons a

/-- **No key occurs twice among the first mentions.** -/
theorem nodup_map_firstsBy (key : α → κ) (l : List α) : ((firstsBy key l).map key).Nodup := by
  induction l with
  | nil => exact .nil
  | cons a l ih =>
    rw [firstsBy, List.map_cons, List.nodup_cons]
    refine ⟨?_, ih.sublist (List.filter_sublist.map key)⟩
    intro hmem
    obtain ⟨b, hb, hkey⟩ := List.mem_map.mp hmem
    exact absurd hkey (by simpa using (List.mem_filter.mp hb).2)

/-- Every key keeps a mention. -/
theorem mem_map_firstsBy (key : α → κ) {k : κ} {l : List α} :
    k ∈ (firstsBy key l).map key ↔ k ∈ l.map key := by
  induction l with
  | nil => rfl
  | cons a l ih =>
    rw [firstsBy, List.map_cons, List.map_cons, List.mem_cons, List.mem_cons, ← ih]
    by_cases hk : k = key a
    · simp [hk]
    · refine or_congr_right ⟨fun h => ?_, fun h => ?_⟩
      · exact (List.filter_sublist.map key).subset h
      · obtain ⟨b, hb, rfl⟩ := List.mem_map.mp h
        exact List.mem_map_of_mem (List.mem_filter.mpr ⟨hb, by simpa using hk⟩)

/-- A list without repeated keys stays as it is. -/
theorem firstsBy_eq_self (key : α → κ) {l : List α} (h : (l.map key).Nodup) :
    firstsBy key l = l := by
  induction l with
  | nil => rfl
  | cons a l ih =>
    obtain ⟨ha, hl⟩ := List.nodup_cons.mp h
    rw [firstsBy, ih hl, List.filter_eq_self.mpr]
    intro b hb
    have hne : key b ≠ key a := fun hkey => ha (hkey ▸ List.mem_map_of_mem hb)
    simpa using hne

/-- **A test of the key may be applied before or after**: it keeps all mentions of a key or none. -/
theorem firstsBy_filter (key : α → κ) (p : κ → Bool) (l : List α) :
    firstsBy key (l.filter fun a => p (key a)) = (firstsBy key l).filter fun a => p (key a) := by
  induction l with
  | nil => rfl
  | cons a l ih =>
    by_cases ha : p (key a) = true
    · simp only [List.filter_cons, ha, if_true, firstsBy, ih, List.filter_filter, Bool.and_comm]
    · simp only [List.filter_cons, ha, Bool.false_eq_true, if_false, firstsBy, ih,
        List.filter_filter]
      refine List.filter_congr fun b _ => ?_
      by_cases hb : p (key b) = true
      · have hne : key b ≠ key a := fun hkey => ha (hkey ▸ hb)
        simp [hb, hne]
      · simp [hb]

/-- **First mentions may be renamed before or after**, if the new keys tell apart what the old ones
do. -/
theorem firstsBy_map {β κ' : Type} [DecidableEq κ'] (f : α → β) {key : α → κ} {key' : β → κ'}
    (h : ∀ a b, key' (f a) = key' (f b) ↔ key a = key b) (l : List α) :
    firstsBy key' (l.map f) = (firstsBy key l).map f := by
  induction l with
  | nil => rfl
  | cons a l ih =>
    rw [List.map_cons, firstsBy, firstsBy, ih, List.map_cons, List.filter_map]
    simp only [Function.comp_def, ne_eq, h]

/-- **First mentions stand in the order of their places**, the place of a value being the first
element of the list that it is read off. -/
theorem pairwise_findIdx_firstsBy {β : Type} [BEq α] [LawfulBEq α] (key : α → κ) (g : β → Option α)
    (l : List β) : (firstsBy key (l.filterMap g)).Pairwise fun a b =>
      (l.findIdx fun x => g x == some a) < l.findIdx fun x => g x == some b := by
  induction l with
  | nil => exact .nil
  | cons x l ih =>
    -- An element that mentions something else is one place more for all values.
    have hskip : ∀ a, g x ≠ some a →
        (x :: l).findIdx (fun y => g y == some a) = (l.findIdx fun y => g y == some a) + 1 := by
      intro a ha
      rw [List.findIdx_cons, beq_eq_false_iff_ne.mpr ha, cond_false]
    match hx : g x with
    | none =>
      rw [List.filterMap_cons_none hx]
      refine ih.imp fun {a b} hlt => ?_
      rw [hskip a (by simp [hx]), hskip b (by simp [hx])]
      exact Nat.succ_lt_succ hlt
    | some c =>
      have hlater : ∀ b ∈ (firstsBy key (l.filterMap g)).filter (fun b => key b ≠ key c),
          g x ≠ some b := by
        intro b hb hxb
        obtain rfl : c = b := Option.some.inj (hx.symm.trans hxb)
        exact absurd rfl (of_decide_eq_true (List.mem_filter.mp hb).2)
      rw [List.filterMap_cons_some hx, firstsBy, List.pairwise_cons]
      refine ⟨fun b hb => ?_, (ih.sublist List.filter_sublist).imp_of_mem fun {a b} ha hb hlt => ?_⟩
      · rw [hskip b (hlater b hb), List.findIdx_cons, hx, beq_self_eq_true, cond_true]
        exact Nat.zero_lt_succ _
      · rw [hskip a (hlater a ha), hskip b (hlater b hb)]
        exact Nat.succ_lt_succ hlt

end DocAudit
