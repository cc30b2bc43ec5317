import DocAudit.Proofs.Trimming
import Mathlib.Data.List.TakeWhile
import Mathlib.Tactic.Conv

/-!
# Proofs/VisibleText — what of a text shows, whatever happens to its white space

`visible` are the characters of a text that are not white.  Trimming keeps them, so does cutting the
text into lines and joining it again (`visible_lines`, `visible_unlines`), and a text is blank
exactly if nothing of it shows.  Of a text that is not blank, the indentation depends neither on
what follows nor on the line end (`indentation_append_right`, `indentation_dropReturn`), and its
front part of that length is white.
-/

namespace DocAudit.Text

/-! ## White space at the ends -/

theorem not_isWhite_of_head?_trimStart (s : List Char) :
    ∀ c ∈ (trimStart s).head?, isWhite c = false := by
  intro c hc
  have hhead := List.head?_dropWhile_not isWhite s
  rw [← trimStart, Option.mem_def.mp hc] at hhead
  simpa using hhead

theorem exists_trimEnd_append (s : List Char) : ∃ v, isBlank v = true ∧ s = trimEnd s ++ v := by
  refine ⟨(s.reverse.takeWhile isWhite).reverse, ?_, ?_⟩
  · rw [isBlank, List.all_reverse]
    exact isBlank_takeWhile _
  · rw [trimEnd, ← List.reverse_append, List.takeWhile_append_dropWhile, List.reverse_reverse]

theorem isBlank_trimEnd (s : List Char) : isBlank (trimEnd s) = isBlank s := by
  obtain ⟨v, hv, hs⟩ := exists_trimEnd_append s
  rw [Bool.eq_iff_iff]
  constructor
  · intro h
    rw [hs, isBlank_append]
    exact ⟨h, hv⟩
  · intro h
    rw [hs, isBlank_append] at h
    exact h.1

theorem trimEnd_of_isBlank {s : List Char} (h : isBlank s = true) : trimEnd s = [] := by
  simpa [trimEnd] using trimEnd_append_right [] h

/-- What shows at the end protects all in front of it. -/
theorem trimEnd_append_left (s : List Char) {t : List Char} (ht : isBlank t = false) :
    trimEnd (s ++ t) = s ++ trimEnd t := by
  have hne : ¬ (t.reverse.dropWhile isWhite).isEmpty = true := by
    intro hnil
    rw [← isBlank_trimEnd, trimEnd, List.isEmpty_iff.mp hnil] at ht
    cases ht
  rw [trimEnd, List.reverse_append, List.dropWhile_append, if_neg hne, List.reverse_append,
    List.reverse_reverse, trimEnd]

/-- A trimmed text that is not blank ends in a character that shows. -/
theorem exists_getLast?_trimEnd {s : List Char} (h : isBlank s = false) :
    ∃ c ∈ (trimEnd s).getLast?, isWhite c = false := by
  have hne : s.reverse.dropWhile isWhite ≠ [] := by
    intro hnil
    rw [← isBlank_trimEnd, trimEnd, hnil] at h
    cases h
  obtain ⟨c, t, ht⟩ := List.exists_cons_of_ne_nil hne
  have hwhite := List.head?_dropWhile_not isWhite s.reverse
  rw [ht] at hwhite
  refine ⟨c, ?_, by simpa using hwhite⟩
  rw [trimEnd, ht]
  simp

/-! ## Indentation -/

theorem indentation_append_left {u : List Char} (hu : isBlank u = true) (s : List Char) :
    indentation (u ++ s) = u.length + indentation s := by
  rw [indentation, List.takeWhile_append_of_pos (isBlank_iff.mp hu), List.length_append,
    indentation]

theorem indentation_append_right {s : List Char} (hs : isBlank s = false) (v : List Char) :
    indentation (s ++ v) = indentation s := by
  have hne : ¬ (s.takeWhile isWhite).length = s.length := by
    intro heq
    have hall : s.takeWhile isWhite = s := (List.takeWhile_sublist isWhite).eq_of_length heq
    rw [← hall, isBlank_takeWhile] at hs
    cases hs
  rw [indentation, List.takeWhile_append, if_neg hne, indentation]

theorem isBlank_take_indentation {s : List Char} {m : Nat} (h : m ≤ indentation s) :
    isBlank (s.take m) = true := by
  have hfront : s.take m = (s.takeWhile isWhite).take m := by
    conv_lhs => rw [← List.takeWhile_append_dropWhile (p := isWhite) (l := s)]
    exact List.take_append_of_le_length h
  rw [hfront, isBlank_iff]
  intro c hc
  exact isBlank_iff.mp (isBlank_takeWhile s) c (List.mem_of_mem_take hc)

theorem indentation_le_length (s : List Char) : indentation s ≤ s.length :=
  (List.takeWhile_sublist isWhite).length_le

theorem isBlank_drop {s : List Char} {m : Nat} (h : m ≤ indentation s) :
    isBlank (s.drop m) = isBlank s := by
  have hfront := isBlank_take_indentation h
  rw [Bool.eq_iff_iff]
  conv_rhs => rw [← List.take_append_drop m s, isBlank_append]
  exact (and_iff_right hfront).symm

/-! ## Line ends -/

theorem trimEnd_dropReturn (s : List Char) : trimEnd (dropReturn s) = trimEnd s := by
  unfold dropReturn
  split
  · rename_i h
    obtain ⟨t, rfl⟩ := List.getLast?_eq_some_iff.mp h
    rw [List.dropLast_concat, trimEnd_append_right t (by decide)]
  · rfl

theorem trimStart_dropReturn (s : List Char) :
    trimStart (dropReturn s) = dropReturn (trimStart s) := by
  by_cases hs : s.getLast? = some '\r'
  · obtain ⟨t, rfl⟩ := List.getLast?_eq_some_iff.mp hs
    rw [dropReturn, if_pos hs, List.dropLast_concat, trimStart, trimStart, List.dropWhile_append]
    split
    · rename_i hnil
      rw [List.isEmpty_iff.mp hnil]
      rfl
    · rw [dropReturn, if_pos List.getLast?_concat, List.dropLast_concat]
  · have hkeep : dropReturn (trimStart s) = trimStart s := by
      refine if_neg fun hlast => hs ?_
      obtain ⟨t, ht⟩ := List.getLast?_eq_some_iff.mp hlast
      rw [← List.takeWhile_append_dropWhile (p := isWhite) (l := s), ← trimStart, ht,
        ← List.append_assoc, List.getLast?_concat]
    rw [hkeep, dropReturn, if_neg hs]

theorem dropReturn_inj {s t : List Char} (h : s.getLast? = some '\r' ↔ t.getLast? = some '\r') :
    dropReturn s = dropReturn t ↔ s = t := by
  refine ⟨fun heq => ?_, congrArg dropReturn⟩
  unfold dropReturn at heq
  by_cases hs : s.getLast? = some '\r'
  · have ht := h.mp hs
    rw [if_pos hs, if_pos ht] at heq
    obtain ⟨s', rfl⟩ := List.getLast?_eq_some_iff.mp hs
    obtain ⟨t', rfl⟩ := List.getLast?_eq_some_iff.mp ht
    rw [List.dropLast_concat, List.dropLast_concat] at heq
    rw [heq]
  · rwa [if_neg hs, if_neg (mt h.mpr hs)] at heq

theorem isBlank_dropReturn (l : List Char) : isBlank (dropReturn l) = isBlank l := by
  rw [← isBlank_trimEnd, trimEnd_dropReturn, isBlank_trimEnd]

theorem exists_dropReturn_append (l : List Char) :
    ∃ v, isBlank v = true ∧ l = dropReturn l ++ v := by
  unfold dropReturn
  split
  · rename_i h
    obtain ⟨t, rfl⟩ := List.getLast?_eq_some_iff.mp h
    exact ⟨['\r'], by decide, by rw [List.dropLast_concat]⟩
  · exact ⟨[], rfl, (List.append_nil l).symm⟩

theorem indentation_dropReturn {l : List Char} (h : isBlank l = false) :
    indentation (dropReturn l) = indentation l := by
  obtain ⟨v, -, hl⟩ := exists_dropReturn_append l
  conv_rhs => rw [hl, indentation_append_right (by rw [isBlank_dropReturn, h])]

/-! ## The characters that show -/

/-- The characters of a text that are not white, in order. -/
def visible (s : List Char) : List Char :=
  s.filter fun c => !isWhite c

theorem visible_append (s t : List Char) : visible (s ++ t) = visible s ++ visible t :=
  List.filter_append s t

theorem visible_eq_nil_iff {s : List Char} : visible s = [] ↔ isBlank s = true := by
  simp [visible, isBlank, List.filter_eq_nil_iff]

theorem visible_blank_append {u : List Char} (hu : isBlank u = true) (s : List Char) :
    visible (u ++ s) = visible s := by
  rw [visible_append, visible_eq_nil_iff.mpr hu, List.nil_append]

theorem visible_append_blank (s : List Char) {v : List Char} (hv : isBlank v = true) :
    visible (s ++ v) = visible s := by
  rw [visible_append, visible_eq_nil_iff.mpr hv, List.append_nil]

theorem visible_trimStart (s : List Char) : visible (trimStart s) = visible s := by
  conv_rhs => rw [← List.takeWhile_append_dropWhile (p := isWhite) (l := s)]
  exact (visible_blank_append (isBlank_takeWhile s) _).symm

theorem isBlank_trimStart (s : List Char) : isBlank (trimStart s) = isBlank s := by
  rw [Bool.eq_iff_iff, ← visible_eq_nil_iff, ← visible_eq_nil_iff, visible_trimStart]

theorem visible_trimEnd (s : List Char) : visible (trimEnd s) = visible s := by
  obtain ⟨v, hv, hs⟩ := exists_trimEnd_append s
  conv_rhs => rw [hs, visible_append_blank _ hv]

theorem visible_dropReturn (s : List Char) : visible (dropReturn s) = visible s := by
  rw [← visible_trimEnd, trimEnd_dropReturn, visible_trimEnd]

/-- Line ends do not show. -/
theorem visible_unlines (ls : List (List Char)) : visible (unlines ls) = ls.flatMap visible := by
  induction ls with
  | nil => rfl
  | cons l ls ih =>
    by_cases hne : ls = []
    · subst hne
      simp [unlines]
    · rw [unlines, List.intercalate_cons_of_ne_nil hne, visible_append, visible_append,
        visible_eq_nil_iff.mpr (by decide : isBlank ['\n'] = true), List.append_nil,
        List.flatMap_cons, ← ih, unlines]

theorem visible_closedLines (ls : List (List Char)) :
    (closedLines ls).flatMap visible = ls.flatMap visible := by
  fun_induction closedLines ls with
  | case1 => rfl
  | case2 rest h =>
    rw [List.isEmpty_iff.mp h]
    rfl
  | case3 rest h => rfl
  | case4 piece pieces hne ih =>
    rw [List.flatMap_cons, List.flatMap_cons, visible_dropReturn, ih]

theorem visible_lines (s : List Char) : (lines s).flatMap visible = visible s := by
  rw [lines, visible_closedLines, ← visible_unlines, unlines, List.intercalate_splitOn]

theorem newline_notMem_of_mem_splitOn {s piece : List Char} (h : piece ∈ s.splitOn '\n') :
    '\n' ∉ piece := by
  rw [List.splitOn_eq_splitOnP] at h
  intro hmem
  exact absurd (not_of_mem_splitOnP h '\n' hmem) (by decide)

end DocAudit.Text
