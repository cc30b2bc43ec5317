import DocAudit.Proofs.Brackets

/-!
# Proofs/TypeForms — the forms of a type and what becomes of them

A text in normal form is a list of alternatives, an `Optional`, a `Union` or a plain type, and
`ofNormal_of_alternatives`, `ofNormal_of_optional` and `ofNormal_of_not_optional` say what each
denotes.  Reading a type drops brackets and never adds one (`count_base_le`), so of a text without
alternatives the base is the text itself exactly where it is neither an `Optional` nor a `Union`
(`base_ofNormal_eq_iff`).
-/

namespace DocAudit.TypeExpr

open DocAudit.Text

/-! ## The forms of a type -/

theorem jointWeight_bar : jointWeight '|' = 0 := by decide

theorem jointWeight_comma : jointWeight ',' = 0 := by decide

theorem length_members_pos {sep : Char} (hsep : jointWeight sep = 0) (s : List Char) :
    0 < (members sep s).length := by
  rw [members, List.length_map]
  exact List.length_pos_iff.mpr (splitOutside_ne_nil hsep 0 s)

section Forms

variable {s inner : List Char}

theorem ofNormal_of_alternatives (h : 1 < (members '|' s).length) :
    ofNormal s = ofMembers (members '|' s) := by
  rw [ofNormal]
  exact if_pos h

theorem ofNormal_of_optional (h : (members '|' s).length = 1) (ho : optional? s = some inner) :
    ofNormal s = { ofNormal inner with nullable := true } := by
  rw [ofNormal]
  simp only [h, Nat.lt_irrefl, if_false]
  split
  · rename_i t ht
    rw [ho] at ht
    cases ht
    rfl
  · rename_i ht
    rw [ho] at ht
    cases ht

theorem ofNormal_of_not_optional (h : (members '|' s).length = 1) (ho : optional? s = none) :
    ofNormal s = match union? s with
      | some inner => ofMembers (members ',' inner)
      | none => ⟨String.ofList s, false⟩ := by
  rw [ofNormal]
  simp only [h, Nat.lt_irrefl, if_false]
  split
  · rename_i t ht
    rw [ho] at ht
    cases ht
  · rfl

end Forms

/-! ## Unions -/

theorem ofMembers_of_forall {ms : List (List Char)} (h : ∀ m ∈ ms, m = noneText) :
    ofMembers ms = ⟨"None", false⟩ := by
  have hrest : (ms.filter fun m => m ≠ noneText) = [] :=
    List.filter_eq_nil_iff.mpr fun m hm => by simp [h m hm]
  rw [ofMembers, if_pos (by rw [hrest]; rfl)]

theorem ofMembers_of_exists {ms : List (List Char)} (h : ∃ m ∈ ms, m ≠ noneText) :
    ofMembers ms = ⟨String.ofList (" | ".toList.intercalate (ms.filter fun m => m ≠ noneText)),
      ms.any fun m => m == noneText⟩ := by
  obtain ⟨m, hm, hne⟩ := h
  have hrest : (ms.filter fun m => m ≠ noneText) ≠ [] :=
    List.ne_nil_of_mem (List.mem_filter.mpr ⟨hm, by simpa using hne⟩)
  rw [ofMembers, if_neg (by simpa using hrest)]

theorem ofMembers_singleton {m : List Char} (h : m ≠ noneText) :
    ofMembers [m] = ⟨String.ofList m, false⟩ := by
  rw [ofMembers_of_exists ⟨m, List.mem_singleton_self m, h⟩]
  simp [List.intercalate, h]

/-- `None` beside other members makes the type nullable and leaves the rest as it is. -/
theorem ofMembers_append_none {ms : List (List Char)} (h : ∃ m ∈ ms, m ≠ noneText) :
    ofMembers (ms ++ [noneText]) = { ofMembers ms with nullable := true } := by
  have h' : ∃ m ∈ ms ++ [noneText], m ≠ noneText :=
    h.imp fun m hm => ⟨List.mem_append_left _ hm.1, hm.2⟩
  rw [ofMembers_of_exists h, ofMembers_of_exists h']
  simp

/-! ## The brackets of the base -/

theorem count_intercalate {c : Char} {sep : List Char} (hc : c ∉ sep) (l : List (List Char)) :
    (sep.intercalate l).count c = l.flatten.count c := by
  induction l with
  | nil => rfl
  | cons s l ih =>
    rcases l with _ | ⟨t, l⟩
    · simp [List.intercalate]
    · rw [List.intercalate_cons_cons, List.count_append, List.count_append,
        List.count_eq_zero.mpr hc, ih, List.flatten_cons (l := s), List.count_append, Nat.add_zero]

theorem count_base_ofMembers_le (ms : List (List Char)) :
    (ofMembers ms).base.toList.count '[' ≤ ms.flatten.count '[' := by
  by_cases h : ∃ m ∈ ms, m ≠ noneText
  · rw [ofMembers_of_exists h, String.toList_ofList, count_intercalate (by decide)]
    exact (List.Sublist.flatten List.filter_sublist).count_le _
  · rw [ofMembers_of_forall (by simpa using h)]
    exact Nat.zero_le _

theorem count_base_members_le {sep : Char} (hsep : jointWeight sep = 0) (s : List Char) :
    (ofMembers (members sep s)).base.toList.count '[' ≤ s.count '[' :=
  Nat.le_trans (count_base_ofMembers_le _) ((flatten_members_sublist hsep s).count_le _)

theorem generic?_eq_some {head s inner : List Char} (h : generic? head s = some inner) :
    s = head ++ (inner ++ [']']) := by
  rw [generic?] at h
  split at h
  · rename_i hprefix
    rw [← enclosed_eq_some h]
    exact (List.prefix_iff_eq_append.mp (List.isPrefixOf_iff_prefix.mp hprefix)).symm
  · cases h

/-- An argument whose square brackets balance is found. -/
theorem generic?_append_close (head : List Char) {s : List Char} (hs : Balanced squareWeight s) :
    generic? head (head ++ (s ++ [']'])) = some s := by
  rw [generic?, if_pos (by simp), List.drop_left]
  exact enclosed_append_close (fun u hu => by simpa using hs.nonneg u hu)
    (by simpa using hs.closed)

/-- The argument of `Optional` or `Union` has a bracket less than the type. -/
theorem count_argument_lt {s inner : List Char}
    (h : optional? s = some inner ∨ union? s = some inner) : inner.count '[' < s.count '[' := by
  have hgeneric : ∀ {head : List Char}, 0 < head.count '[' → generic? head s = some inner →
      inner.count '[' < s.count '[' := by
    intro head hhead hs
    rw [generic?_eq_some hs, List.count_append, List.count_append]
    omega
  rcases h with h | h <;> rcases Option.or_eq_some_iff.mp h with h | ⟨-, h⟩
  all_goals exact hgeneric (by decide) h

/-- **The base of a type has at most the brackets of its text.** -/
theorem count_base_le (s : List Char) : (ofNormal s).base.toList.count '[' ≤ s.count '[' := by
  fun_induction ofNormal s with
  | case1 s alternatives h => exact count_base_members_le jointWeight_bar s
  | case2 s alternatives h inner ho hlt type ih =>
    exact Nat.le_trans ih (Nat.le_of_lt (count_argument_lt (.inl ho)))
  | case3 s alternatives h ho inner hu =>
    exact Nat.le_trans (count_base_members_le jointWeight_comma inner)
      (Nat.le_of_lt (count_argument_lt (.inr hu)))
  | case4 s alternatives h ho hu => rw [String.toList_ofList]

/-- Of a text without alternatives, the base is the text itself unless it is the whole of an
`Optional` or a `Union`. -/
theorem base_ofNormal_eq_iff {s : List Char} (h : (members '|' s).length = 1) :
    (ofNormal s).base = String.ofList s ↔ optional? s = none ∧ union? s = none := by
  have hfewer : ∀ {t : TypeExpr}, t.base.toList.count '[' < s.count '[' →
      t.base ≠ String.ofList s := by
    intro t ht heq
    rw [heq, String.toList_ofList] at ht
    exact Nat.lt_irrefl _ ht
  rcases ho : optional? s with _ | inner
  · rw [ofNormal_of_not_optional h ho]
    rcases hu : union? s with _ | inner
    · simp
    · have hlt := Nat.lt_of_le_of_lt (count_base_members_le jointWeight_comma inner)
        (count_argument_lt (.inr hu))
      simpa using hfewer hlt
  · have hlt := Nat.lt_of_le_of_lt (count_base_le inner) (count_argument_lt (.inl ho))
    rw [ofNormal_of_optional h ho]
    simpa using hfewer hlt

end DocAudit.TypeExpr
