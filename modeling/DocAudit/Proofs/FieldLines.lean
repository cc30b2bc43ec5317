import DocAudit.FieldList
import DocAudit.Proofs.Trimming

/-!
# Proofs/FieldLines — texts written as a summary and one line for each field

`fieldLine marker body` is the line `:marker: body`.  A text whose lines are a summary followed by
field lines reads as the fields of those lines, one after the other (`parse_unlines`): the summary
carries no field, each line opens a field of its own and none of them continues another.  Line ends
make no difference, because a carriage return at the end of a body is trimmed with it
(`fields_dropReturn`).
-/

namespace DocAudit.FieldList

open DocAudit.Text

/-! ## Blocks -/

theorem blocks_append_left {summary : List (List Char)}
    (h : ∀ l ∈ summary, opensField l = false) (ls : List (List Char)) :
    blocks (summary ++ ls) = blocks ls := by
  induction summary with
  | nil => rfl
  | cons line summary ih =>
    rw [List.cons_append, blocks, if_neg (by simp [h line List.mem_cons_self])]
    exact ih fun l hl => h l (List.mem_cons_of_mem line hl)

theorem blocks_eq_nil {ls : List (List Char)} (h : ∀ l ∈ ls, opensField l = false) :
    blocks ls = [] := by
  rw [← List.append_nil ls, blocks_append_left h]
  rfl

/-- Lines that all open a field continue nothing. -/
theorem blocks_of_opensField {ls : List (List Char)} (h : ∀ l ∈ ls, opensField l = true) :
    blocks ls = ls.map fun l => ⟨l, []⟩ := by
  induction ls with
  | nil => rfl
  | cons line ls ih =>
    have hnext : (ls.takeWhile fun l => !opensField l) = [] := by
      rcases ls with _ | ⟨next, ls⟩
      · rfl
      · exact List.takeWhile_cons_of_neg (by simp [h next (by simp)])
    rw [blocks, if_pos (h line List.mem_cons_self), hnext,
      ih fun l hl => h l (List.mem_cons_of_mem line hl), List.map_cons]

/-! ## Line ends -/

/-- The first character of a line is no line end, so it still opens a field or not. -/
@[simp] theorem opensField_dropReturn (l : List Char) :
    opensField (dropReturn l) = opensField l := by
  unfold dropReturn
  split
  · rename_i h
    obtain ⟨t, rfl⟩ := List.getLast?_eq_some_iff.mp h
    rw [List.dropLast_concat]
    rcases t with _ | ⟨c, t⟩ <;> rfl
  · rfl

theorem closedLines_append (summary : List (List Char)) {ls : List (List Char)} (hne : ls ≠ []) :
    closedLines (summary ++ ls) = summary.map dropReturn ++ closedLines ls := by
  induction summary with
  | nil => rfl
  | cons line summary ih =>
    rcases hrest : summary ++ ls with _ | ⟨next, rest⟩
    · exact absurd (List.append_eq_nil_iff.mp hrest).2 hne
    · rw [List.cons_append, hrest, closedLines, ← hrest, ih, List.map_cons, List.cons_append]
      nofun

/-- A line of a text is a piece of it, perhaps without its carriage return. -/
theorem mem_closedLines {l : List Char} : ∀ {ls : List (List Char)}, l ∈ closedLines ls →
    ∃ piece ∈ ls, l = piece ∨ l = dropReturn piece
  | [], h => absurd h List.not_mem_nil
  | [rest], h => by
      rw [closedLines] at h
      split at h
      · exact absurd h List.not_mem_nil
      · exact ⟨rest, List.mem_singleton_self rest, Or.inl (List.mem_singleton.mp h)⟩
  | piece :: next :: pieces, h => by
      rw [closedLines] at h
      · rcases List.mem_cons.mp h with rfl | h
        · exact ⟨piece, List.mem_cons_self, Or.inr rfl⟩
        · obtain ⟨p, hp, hl⟩ := mem_closedLines h
          exact ⟨p, List.mem_cons_of_mem piece hp, hl⟩
      · nofun

/-! ## One field on one line -/

/-- The line `:marker: body`. -/
def fieldLine (marker body : List Char) : List Char :=
  ':' :: marker ++ ':' :: ' ' :: body

/-- The marker ends at the first colon behind the one that opens the line. -/
theorem marker?_append {marker : List Char} (hm : ':' ∉ marker) (body : List Char) :
    marker? (':' :: marker ++ ':' :: body) = some (marker, body) := by
  have hpass : ∀ c ∈ marker, (c != ':') = true := fun c hc => by
    rw [bne_iff_ne]
    rintro rfl
    exact hm hc
  have hinner : (':' :: marker ++ ':' :: body).drop 1 = marker ++ ':' :: body := rfl
  simp only [marker?, hinner]
  rw [List.dropWhile_append_of_pos hpass, List.takeWhile_append_of_pos hpass]
  simp

theorem marker?_fieldLine {marker : List Char} (hm : ':' ∉ marker) (body : List Char) :
    marker? (fieldLine marker body) = some (marker, ' ' :: body) :=
  marker?_append hm (' ' :: body)

/-- A body that stands on the opening line alone is what follows the marker, trimmed. -/
theorem joinBody_singleton (body : List Char) : joinBody [' ' :: body] = trim body := by
  have hblank : trim (' ' :: body) = trim body := trim_append_left (u := [' ']) (by decide) body
  by_cases h : trim body = []
  · simp [joinBody, unwords, hblank, h]
  · simp [joinBody, unwords, hblank, h]

/-- **The fields of a field line** are what the words of its marker say. -/
theorem fields_fieldLine {marker name : List Char} {args : List (List Char)} (hm : ':' ∉ marker)
    (hw : words marker = name :: args) (body : List Char) :
    Block.fields ⟨fieldLine marker body, []⟩
      = Block.fieldsOf (.ofName (String.ofList name)) args [' ' :: body] := by
  simp only [Block.fields, marker?_fieldLine hm, hw]

/-- The line has the form `:marker: body`, and its marker is not blank. -/
def IsFieldLine (line : List Char) : Prop :=
  ∃ marker body, line = fieldLine marker body ∧ ':' ∉ marker ∧ words marker ≠ []

theorem opensField_of_isFieldLine {line : List Char} (h : IsFieldLine line) :
    opensField line = true := by
  obtain ⟨marker, body, rfl, -⟩ := h
  rfl

theorem dropReturn_fieldLine (marker body : List Char) :
    dropReturn (fieldLine marker body) = fieldLine marker (dropReturn body) := by
  have hsplit : ∀ b, fieldLine marker b = (':' :: marker ++ [':']) ++ [' '] ++ b := fun b => by
    simp [fieldLine]
  unfold dropReturn
  by_cases h : body.getLast? = some '\r'
  · obtain ⟨t, rfl⟩ := List.getLast?_eq_some_iff.mp h
    rw [if_pos h, hsplit, hsplit, ← List.append_assoc, if_pos List.getLast?_concat,
      List.dropLast_concat, List.dropLast_concat]
  · have hlast : (fieldLine marker body).getLast? ≠ some '\r' := by
      rw [hsplit, List.getLast?_append, List.getLast?_concat]
      rcases hbody : body.getLast? with _ | c
      · decide
      · rw [hbody] at h
        exact h
    rw [if_neg h, if_neg hlast]

/-- **A carriage return makes no difference to a field line.** -/
theorem fields_dropReturn {line : List Char} (h : IsFieldLine line) :
    Block.fields ⟨dropReturn line, []⟩ = Block.fields ⟨line, []⟩ := by
  obtain ⟨marker, body, rfl, hm, hwords⟩ := h
  obtain ⟨name, args, hw⟩ := List.exists_cons_of_ne_nil hwords
  rw [dropReturn_fieldLine, fields_fieldLine hm hw, fields_fieldLine hm hw]
  simp only [Block.fieldsOf, joinBody_singleton, trim_dropReturn]

/-! ## The text as a whole -/

theorem flatMap_fields_closedLines : ∀ {ls : List (List Char)}, (∀ l ∈ ls, IsFieldLine l) →
    (closedLines ls).flatMap (fun l => Block.fields ⟨l, []⟩)
      = ls.flatMap fun l => Block.fields ⟨l, []⟩
  | [], _ => rfl
  | [line], h => by
      have hne : line.isEmpty = false := by
        obtain ⟨marker, body, rfl, -⟩ := h line List.mem_cons_self
        rfl
      rw [closedLines, hne]
      rfl
  | line :: next :: ls, h => by
      have ih := flatMap_fields_closedLines fun l hl => h l (List.mem_cons_of_mem line hl)
      rw [closedLines, List.flatMap_cons, List.flatMap_cons, ih,
        fields_dropReturn (h line List.mem_cons_self)]
      nofun

/-- The blocks of a summary followed by field lines are those field lines, each by itself. -/
theorem flatMap_fields_blocks {summary ls : List (List Char)}
    (hsummary : ∀ l ∈ summary, opensField l = false) (hls : ∀ l ∈ ls, IsFieldLine l) :
    (blocks (closedLines (summary ++ ls))).flatMap Block.fields
      = ls.flatMap fun l => Block.fields ⟨l, []⟩ := by
  by_cases hne : ls = []
  · subst hne
    have hnone : ∀ l ∈ closedLines (summary ++ []), opensField l = false := fun l hl => by
      obtain ⟨piece, hpiece, rfl | rfl⟩ := mem_closedLines hl
      · exact hsummary l (by simpa using hpiece)
      · rw [opensField_dropReturn]
        exact hsummary piece (by simpa using hpiece)
    rw [blocks_eq_nil hnone]
    rfl
  · have hopen : ∀ l ∈ closedLines ls, opensField l = true := fun l hl => by
      obtain ⟨piece, hpiece, rfl | rfl⟩ := mem_closedLines hl
      · exact opensField_of_isFieldLine (hls l hpiece)
      · rw [opensField_dropReturn]
        exact opensField_of_isFieldLine (hls piece hpiece)
    have hclosed : ∀ l ∈ summary.map dropReturn, opensField l = false := fun l hl => by
      obtain ⟨piece, hpiece, rfl⟩ := List.mem_map.mp hl
      rw [opensField_dropReturn]
      exact hsummary piece hpiece
    rw [closedLines_append summary hne, blocks_append_left hclosed, blocks_of_opensField hopen,
      List.flatMap_map, flatMap_fields_closedLines hls]

/-- **A summary followed by field lines reads as the fields of those lines.** -/
theorem parse_unlines {summary ls : List String} (hlines : ∀ l ∈ summary ++ ls, '\n' ∉ l.toList)
    (hsummary : ∀ l ∈ summary, opensField l.toList = false)
    (hls : ∀ l ∈ ls, IsFieldLine l.toList) :
    parse ("\n".intercalate (summary ++ ls))
      = ls.flatMap fun l => Block.fields ⟨l.toList, []⟩ := by
  have htext : lines ("\n".intercalate (summary ++ ls)).toList
      = closedLines (summary.map String.toList ++ ls.map String.toList) := by
    rw [lines, String.toList_intercalate, ← List.map_append]
    by_cases hne : summary ++ ls = []
    · rw [hne]
      rfl
    · refine congrArg closedLines (List.splitOn_intercalate '\n' ?_ (by simpa using hne))
      intro l hl
      obtain ⟨line, hline, rfl⟩ := List.mem_map.mp hl
      exact hlines line hline
  have hsummary' : ∀ l ∈ summary.map String.toList, opensField l = false := fun l hl => by
    obtain ⟨line, hline, rfl⟩ := List.mem_map.mp hl
    exact hsummary line hline
  have hls' : ∀ l ∈ ls.map String.toList, IsFieldLine l := fun l hl => by
    obtain ⟨line, hline, rfl⟩ := List.mem_map.mp hl
    exact hls line hline
  rw [parse, htext, flatMap_fields_blocks hsummary' hls', List.flatMap_map]

end DocAudit.FieldList
