import DocAudit.Python.Lexeme
import Mathlib.Data.List.TakeWhile

/-!
# Proofs/Lexemes — what the kind of a lexeme says about its text

Every way of cutting the next lexeme off a text answers with a kind, and only two kinds say
something about the text in front: the end of a line is a line feed, and a word is the longest run
of characters that may stand in a name (`fits_cut`).  No other kind has to be looked at, which is
why the cuts of strings, numbers and formats only need a lemma that they are of another kind.  Text
that starts with an `@` is an operator unless it is inside a formatted string (`kind_cut_at`).

`Lexeme.Sound` collects that for a lexeme of a source; together the lexemes are the source.
-/

namespace DocAudit.Python

/-! ## The kinds of cuts -/

/-- The kinds that neither end a line nor name anything. -/
def LexemeKind.isOther (kind : LexemeKind) : Bool :=
  kind != .lineEnd && kind != .word

theorem isOther_stringCut? {modes : List Mode} {s : List Char} {next : Cut}
    (h : stringCut? modes s = some next) : next.kind.isOther = true := by
  obtain ⟨quote, -, rfl⟩ := Option.map_eq_some_iff.mp h
  dsimp only
  split
  · rfl
  · split <;> rfl

theorem isOther_operatorCut (modes : List Mode) (s : List Char) :
    (operatorCut modes s).kind.isOther = true := by
  unfold operatorCut
  split
  any_goals rfl
  split <;> rfl

/-- What the kind of the lexeme in front of code says about the text. -/
def Cut.Fits (next : Cut) (s : List Char) : Prop :=
  (next.kind = .lineEnd ∧ s.head? = some '\n') ∨
    (next.kind = .word ∧ next.length = (s.takeWhile continuesName).length ∧
      ∃ c ∈ s.head?, startsName c = true) ∨
    next.kind.isOther = true

theorem fits_codeCut (modes : List Mode) (s : List Char) : (codeCut modes s).Fits s := by
  unfold codeCut
  split
  · exact .inr (.inr rfl)
  · rcases modes with _ | ⟨mode, modes⟩
    · exact .inl ⟨rfl, rfl⟩
    · exact .inr (.inr rfl)
  · exact .inr (.inr rfl)
  · exact .inr (.inr rfl)
  · exact .inr (.inr rfl)
  · rename_i c t _ _ _ _
    split
    · exact .inr (.inr rfl)
    · split
      · rename_i next hnext
        exact .inr (.inr (isOther_stringCut? hnext))
      · split
        · exact .inr (.inr rfl)
        · split
          · rename_i hstarts
            exact .inr (.inl ⟨rfl, rfl, c, rfl, hstarts⟩)
          · exact .inr (.inr (isOther_operatorCut modes (c :: t)))

theorem isOther_formatCut (quote : List Char) (raw : Bool) (outer modes : List Mode)
    (s : List Char) :
    (formatCut quote raw outer modes s).kind.isOther = true := by
  unfold formatCut
  repeat' split
  all_goals rfl

theorem isOther_specCut (outer modes : List Mode) (s : List Char) :
    (specCut outer modes s).kind.isOther = true := by
  unfold specCut
  split <;> rfl

theorem fits_fieldCut (modes : List Mode) (s : List Char) : (fieldCut modes s).Fits s := by
  unfold fieldCut
  split
  · exact .inr (.inr rfl)
  · exact .inr (.inr rfl)
  · exact .inr (.inr rfl)
  · exact fits_codeCut modes s

theorem fits_cut (modes : List Mode) (s : List Char) : (cut modes s).Fits s := by
  unfold cut
  split
  · exact .inr (.inr (isOther_formatCut _ _ _ _ _))
  · exact fits_fieldCut _ s
  · exact .inr (.inr (isOther_specCut _ _ _))
  · exact fits_codeCut _ s

/-! ## Where an `@` stands -/

theorem operatorLength_at (t : List Char) : operatorLength ('@' :: t) ≠ 0 := by
  unfold operatorLength
  split
  · rename_i o ho
    exact (by decide : ∀ o ∈ operators, o.length ≠ 0) o (List.mem_of_find?_eq_some ho)
  · rename_i hnone
    have hat := List.find?_eq_none.mp hnone "@" (by decide)
    simp at hat

theorem kind_codeCut_at (modes : List Mode) (t : List Char) :
    (codeCut modes ('@' :: t)).kind = .operator := by
  have hstring : stringCut? modes ('@' :: t) = none := by
    simp [stringCut?, isStringLetter, quote?]
  have hname : startsName '@' = false := by decide
  have hoperator : (operatorCut modes ('@' :: t)).kind = .operator := by
    unfold operatorCut
    split
    any_goals rfl
    split
    · rename_i hzero
      exact absurd hzero (operatorLength_at t)
    · rfl
  simp [codeCut, isLineBlank, hstring, startsNumber, hname, hoperator]

theorem kind_cut_at (modes : List Mode) (t : List Char) :
    (cut modes ('@' :: t)).kind ∈ [LexemeKind.operator, .formatText, .formatEnd] := by
  unfold cut
  split
  · rename_i quote raw outer
    simp only [formatCut]
    split
    · simp
    · simp
  · simp [fieldCut, kind_codeCut_at]
  · simp [specCut]
  · simp [kind_codeCut_at]

/-! ## The texts of lexemes -/

theorem continuesName_of_startsName {c : Char} (h : startsName c = true) :
    continuesName c = true := by
  unfold startsName at h
  split at h
  · rename_i hascii
    rw [continuesName, if_pos hascii]
    exact (Bool.and_eq_true_iff.mp h).1
  · exact (Bool.and_eq_true_iff.mp h).1

/-- What later stages rely on in a lexeme. -/
structure Lexeme.Sound (x : Lexeme) : Prop where
  nonempty : x.text ≠ []
  lineEnd : x.kind = .lineEnd → '\n' ∈ x.text
  word : x.kind = .word → ∀ c ∈ x.text, continuesName c = true
  marked : x.text.head? = some '@' → x.kind ∈ [LexemeKind.operator, .formatText, .formatEnd]

theorem take_length_takeWhile (p : Char → Bool) (s : List Char) :
    s.take (s.takeWhile p).length = s.takeWhile p := by
  have hsplit := List.takeWhile_append_dropWhile (p := p) (l := s)
  calc s.take (s.takeWhile p).length
      = (s.takeWhile p ++ s.dropWhile p).take (s.takeWhile p).length := by rw [hsplit]
    _ = s.takeWhile p := List.take_left' rfl

theorem sound_cut (modes : List Mode) (c : Char) (t : List Char) :
    Lexeme.Sound ⟨(cut modes (c :: t)).kind, c :: t.take ((cut modes (c :: t)).length - 1)⟩ := by
  have hfits := fits_cut modes (c :: t)
  refine ⟨List.cons_ne_nil c _, fun hkind => ?_, fun hkind => ?_, fun hat => ?_⟩
  · obtain ⟨-, hhead⟩ | ⟨hword, -⟩ | hother := hfits
    · simp [Option.some.inj hhead]
    · exact absurd (hword.symm.trans hkind) (by decide)
    · rw [show (cut modes (c :: t)).kind = .lineEnd from hkind] at hother
      cases hother
  · obtain ⟨hline, -⟩ | ⟨-, hlength, c', hc', hstarts⟩ | hother := hfits
    · exact absurd (hline.symm.trans hkind) (by decide)
    · obtain rfl := Option.some.inj hc'
      have hc := continuesName_of_startsName hstarts
      have htake : t.take ((cut modes (c :: t)).length - 1) = t.takeWhile continuesName := by
        rw [hlength, List.takeWhile_cons_of_pos hc, List.length_cons, Nat.add_sub_cancel]
        exact take_length_takeWhile continuesName t
      intro d hd
      simp only [htake] at hd
      rcases List.mem_cons.mp hd with rfl | hd
      · exact hc
      · exact List.mem_takeWhile_imp hd
    · rw [show (cut modes (c :: t)).kind = .word from hkind] at hother
      cases hother
  · obtain rfl := Option.some.inj hat
    exact kind_cut_at modes t

theorem sound_of_mem_lexemesFrom {modes : List Mode} {s : List Char} {x : Lexeme}
    (h : x ∈ lexemesFrom modes s) : x.Sound := by
  fun_induction lexemesFrom modes s with
  | case1 => cases h
  | case2 modes c t next n ih =>
    rcases List.mem_cons.mp h with rfl | h
    · exact sound_cut modes c t
    · exact ih h

/-- **The lexemes of a source put together are the source.** -/
theorem flatMap_text_lexemesFrom (modes : List Mode) (s : List Char) :
    (lexemesFrom modes s).flatMap Lexeme.text = s := by
  fun_induction lexemesFrom modes s with
  | case1 => rfl
  | case2 modes c t next n ih =>
    rw [List.flatMap_cons, ih, List.cons_append, List.take_append_drop]

theorem sound_of_mem_lexemes {source : List Char} {x : Lexeme} (h : x ∈ lexemes source) : x.Sound :=
  sound_of_mem_lexemesFrom h

theorem flatMap_text_lexemes (source : List Char) :
    (lexemes source).flatMap Lexeme.text = source :=
  flatMap_text_lexemesFrom [] source

end DocAudit.Python
