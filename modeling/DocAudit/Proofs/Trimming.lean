import DocAudit.Text.Line
import DocAudit.Text.White
import DocAudit.Text.Word

/-!
# Proofs/Trimming — white space at the ends, words and line ends

Trimming takes blank ends off and nothing else: `exists_blank_ends` writes a text as its trimmed
text between two blanks, and `trim_append_left`, `trim_append_right` say that blanks put there go
again.  So whatever ignores blank ends may be computed on the trimmed text.

Words are cut at white space, and a word character is never white (`not_isWhite_of_isWord`), so a
name is one word.
-/

namespace DocAudit.Text

/-! ## Blank ends -/

theorem isBlank_iff {s : List Char} : isBlank s = true ↔ ∀ c ∈ s, isWhite c = true :=
  List.all_eq_true

theorem isBlank_append {s t : List Char} :
    isBlank (s ++ t) = true ↔ isBlank s = true ∧ isBlank t = true := by
  simp [isBlank]

theorem trimStart_append_left {u : List Char} (hu : isBlank u = true) (s : List Char) :
    trimStart (u ++ s) = trimStart s :=
  List.dropWhile_append_of_pos (isBlank_iff.mp hu)

theorem trimStart_of_isBlank {s : List Char} (h : isBlank s = true) : trimStart s = [] := by
  simpa [trimStart] using trimStart_append_left h []

theorem trimEnd_append_right (s : List Char) {v : List Char} (hv : isBlank v = true) :
    trimEnd (s ++ v) = trimEnd s := by
  have hrev : ∀ c ∈ v.reverse, isWhite c = true := fun c hc =>
    isBlank_iff.mp hv c (List.mem_reverse.mp hc)
  rw [trimEnd, trimEnd, List.reverse_append, List.dropWhile_append_of_pos hrev]

/-- A blank in front goes. -/
theorem trim_append_left {u : List Char} (hu : isBlank u = true) (s : List Char) :
    trim (u ++ s) = trim s := by
  rw [trim, trim, trimStart_append_left hu]

/-- A blank at the end goes. -/
theorem trim_append_right (s : List Char) {v : List Char} (hv : isBlank v = true) :
    trim (s ++ v) = trim s := by
  unfold trim
  by_cases hs : trimStart s = []
  · have happend : trimStart (s ++ v) = [] := by
      unfold trimStart at hs ⊢
      rw [List.dropWhile_append, hs]
      exact trimStart_of_isBlank hv
    rw [happend, hs]
  · have happend : trimStart (s ++ v) = trimStart s ++ v := by
      unfold trimStart at hs ⊢
      rw [List.dropWhile_append, if_neg (by simpa using hs)]
    rw [happend, trimEnd_append_right _ hv]

theorem isBlank_takeWhile (s : List Char) : isBlank (s.takeWhile isWhite) = true :=
  List.all_takeWhile

/-- **A text is its trimmed text between two blanks.** -/
theorem exists_blank_ends (s : List Char) :
    ∃ u v, isBlank u = true ∧ isBlank v = true ∧ s = u ++ trim s ++ v := by
  refine ⟨s.takeWhile isWhite, ((trimStart s).reverse.takeWhile isWhite).reverse,
    isBlank_takeWhile s, ?_, ?_⟩
  · rw [isBlank, List.all_reverse]
    exact isBlank_takeWhile _
  · have hend : trim s ++ ((trimStart s).reverse.takeWhile isWhite).reverse = trimStart s := by
      rw [trim, trimEnd, ← List.reverse_append, List.takeWhile_append_dropWhile,
        List.reverse_reverse]
    rw [List.append_assoc, hend, trimStart, List.takeWhile_append_dropWhile]

theorem trim_sublist (s : List Char) : (trim s).Sublist s := by
  obtain ⟨u, v, -, -, hs⟩ := exists_blank_ends s
  have hpart : (trim s).Sublist (u ++ trim s ++ v) :=
    (List.sublist_append_right u _).trans (List.sublist_append_left _ v)
  rwa [← hs] at hpart

/-- Trimming leaves something of every text that is not blank. -/
@[simp] theorem isBlank_trim (s : List Char) : isBlank (trim s) = isBlank s := by
  obtain ⟨u, v, hu, hv, hs⟩ := exists_blank_ends s
  rw [Bool.eq_iff_iff]
  constructor
  · intro h
    rw [hs, isBlank_append, isBlank_append]
    exact ⟨⟨hu, h⟩, hv⟩
  · intro h
    rw [hs, isBlank_append, isBlank_append] at h
    exact h.1.2

/-- A text is trimmed away exactly where it is blank. -/
theorem trim_eq_nil_iff {s : List Char} : trim s = [] ↔ isBlank s = true := by
  constructor
  · intro h
    rw [← isBlank_trim, h]
    rfl
  · intro h
    rw [trim, trimStart_of_isBlank h]
    rfl

theorem trim_trim (s : List Char) : trim (trim s) = trim s := by
  obtain ⟨u, v, hu, hv, hs⟩ := exists_blank_ends s
  calc trim (trim s) = trim (u ++ trim s ++ v) := by
        rw [trim_append_right _ hv, trim_append_left hu]
    _ = trim s := congrArg trim hs.symm

theorem not_isWhite_of_head?_trim {s : List Char} {c : Char} (h : (trim s).head? = some c) :
    isWhite c = false := by
  obtain ⟨t, ht⟩ := List.head?_eq_some_iff.mp h
  rw [Bool.eq_false_iff]
  intro hc
  have hshort : trim t = c :: t := by
    rw [← ht, ← trim_trim s, ht]
    exact (trim_append_left (u := [c]) (by simp [isBlank, hc]) t).symm
  have hlength := (trim_sublist t).length_le
  rw [hshort, List.length_cons] at hlength
  omega

theorem not_isWhite_of_getLast?_trim {s : List Char} {c : Char}
    (h : (trim s).getLast? = some c) : isWhite c = false := by
  obtain ⟨t, ht⟩ := List.getLast?_eq_some_iff.mp h
  rw [Bool.eq_false_iff]
  intro hc
  have hshort : trim t = t ++ [c] := by
    rw [← ht, ← trim_trim s, ht, trim_append_right t (by simp [isBlank, hc])]
  have hlength := (trim_sublist t).length_le
  rw [hshort, List.length_append, List.length_singleton] at hlength
  omega

/-- The carriage return of a line end is white space. -/
theorem trim_dropReturn (s : List Char) : trim (dropReturn s) = trim s := by
  unfold dropReturn
  split
  · rename_i h
    obtain ⟨t, rfl⟩ := List.getLast?_eq_some_iff.mp h
    rw [List.dropLast_concat, trim_append_right t (by decide)]
  · rfl

/-! ## Words -/

/-- No piece of a cut text has a character that it was cut at. -/
theorem not_of_mem_splitOnP {p : Char → Bool} {s piece : List Char} (h : piece ∈ s.splitOnP p) :
    ∀ c ∈ piece, p c = false := by
  induction s generalizing piece with
  | nil =>
    rw [List.splitOnP_nil, List.mem_singleton] at h
    simp [h]
  | cons c s ih =>
    obtain ⟨front, rest, hpieces⟩ := List.exists_cons_of_ne_nil (List.splitOnP_ne_nil p s)
    rw [hpieces] at ih
    rw [List.splitOnP_cons_eq_if_modifyHead, hpieces] at h
    split at h
    · rcases List.mem_cons.mp h with rfl | h
      · exact fun _ hc => absurd hc List.not_mem_nil
      · exact ih h
    · rename_i hc
      rcases List.mem_cons.mp h with rfl | h
      · exact List.forall_mem_cons.mpr ⟨by simpa using hc, ih List.mem_cons_self⟩
      · exact ih (List.mem_cons_of_mem front h)

theorem words_append_cons (s t : List Char) {c : Char} (hc : isWhite c = true) :
    words (s ++ c :: t) = words s ++ words t := by
  rw [words, words, words, List.splitOnP_append_cons s t hc, List.filter_append]

/-- A text without white space is one word. -/
theorem words_eq_singleton {w : List Char} (hne : w ≠ []) (hw : ∀ c ∈ w, isWhite c = false) :
    words w = [w] := by
  rw [words, List.splitOnP_eq_singleton hw, List.filter_cons_of_pos (by simpa using hne)]
  rfl

theorem words_cons_ne_nil {c : Char} (hc : isWhite c = false) (s : List Char) :
    words (c :: s) ≠ [] := by
  obtain ⟨w, ws, hws⟩ := List.exists_cons_of_ne_nil (List.splitOnP_ne_nil isWhite s)
  rw [words, List.splitOnP_cons_eq_if_modifyHead, if_neg (by simp [hc]), hws]
  simp

/-- A text has no word exactly where it is blank. -/
theorem words_eq_nil_iff {s : List Char} : words s = [] ↔ isBlank s = true := by
  induction s with
  | nil => decide
  | cons c s ih =>
    by_cases hc : isWhite c = true
    · have hskip : words (c :: s) = words s := words_append_cons [] s hc
      rw [hskip, ih]
      simp [isBlank, hc]
    · rw [Bool.not_eq_true] at hc
      simp [words_cons_ne_nil hc s, isBlank, hc]

/-! ## Word characters -/

/-- The code points of white space. -/
def whitePoints : List Nat :=
  [9, 10, 11, 12, 13, 0x20, 0x85, 0xa0, 0x1680, 0x2000, 0x2001, 0x2002, 0x2003, 0x2004, 0x2005,
    0x2006, 0x2007, 0x2008, 0x2009, 0x200a, 0x2028, 0x2029, 0x202f, 0x205f, 0x3000]

theorem toNat_mem_whitePoints {c : Char} (h : isWhite c = true) : c.toNat ∈ whitePoints := by
  simp only [isWhite, Bool.or_eq_true, Bool.and_eq_true, decide_eq_true_eq, beq_iff_eq] at h
  simp only [whitePoints, List.mem_cons, List.not_mem_nil, or_false]
  omega

/-- What holds at every code point of white space holds of all white space. -/
theorem forall_isWhite {P : Char → Prop} (h : ∀ n ∈ whitePoints, P (Char.ofNat n)) {c : Char}
    (hc : isWhite c = true) : P c := by
  have hpoint := h _ (toNat_mem_whitePoints hc)
  rwa [Char.ofNat_toNat] at hpoint

theorem isWord_of_mem_whitePoints : ∀ n ∈ whitePoints, isWord (Char.ofNat n) = false := by
  decide +kernel

/-- **A word character is never white.** -/
theorem not_isWhite_of_isWord {c : Char} (h : isWord c = true) : isWhite c = false := by
  rw [Bool.eq_false_iff]
  intro hwhite
  have hno := forall_isWhite (P := fun c => isWord c = false) isWord_of_mem_whitePoints hwhite
  exact absurd h (by simp [hno])

end DocAudit.Text
