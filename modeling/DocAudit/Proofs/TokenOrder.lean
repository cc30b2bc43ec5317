import DocAudit.Python.Token
import DocAudit.Proofs.Lexemes
import Mathlib.Data.List.Chain

/-!
# Proofs/TokenOrder — the tokens of a source, in the order of their places

A layout is `Placed` if nothing it remembers lies behind the place it has reached, and if a line
that has ended lies on an earlier line.  Each lexeme keeps that, and from a placed layout every
token to come stands behind what the layout has seen (`isBehind_of_mem_tokensFrom`).  Hence the
tokens of a source are pairwise `Before` each other: their lines and ends never decrease, and a word
behind the end of a line stands on a later line (`pairwise_before_tokens`).

Two more facts say how tokens lie in the source: a word holds characters of names only
(`continuesName_of_mem_tokens`), and an `@` is one character after which a second one begins the
next token (`isChain_tokens`).
-/

namespace DocAudit.Python

/-! ## Kinds -/

theorem tokenKind_ne_newline (kind : LexemeKind) : kind.token?.getD .invalid ≠ .newline := by
  cases kind <;> decide

theorem eq_word_of_tokenKind {kind : LexemeKind} (h : kind.token?.getD .invalid = .word) :
    kind = .word := by
  cases kind <;> first | rfl | cases h

/-! ## Places -/

namespace Token

/-- What the places of two tokens have in common if the first stands in front of the second; a word
behind the end of a line stands on a later line. -/
structure Before (t u : Token) : Prop where
  line : t.line ≤ u.line
  stop : t.stop ≤ u.stop
  nextLine : t.kind = .newline → u.kind = .word → t.line < u.line

end Token

namespace Layout

/-- Neither the last token nor the end of its line lies behind the place that has been reached. -/
structure Placed (l : Layout) : Prop where
  line : ∀ last ∈ l.last, last.line ≤ l.line
  ended : ∀ last ∈ l.last, l.ended = true → last.line < l.line
  stop : l.lineStop ≤ l.offset

/-- The marks that the end of a line leaves in front of a token: none, or one for the end of the
line and others where the token stands. -/
inductive Marks (l : Layout) : List Token → Prop
  | none : Marks l []
  | lineEnd {last newline : Token} {marks : List Token} (hlast : last ∈ l.last)
      (hended : l.ended = true) (hkind : newline.kind = .newline) (hline : newline.line = last.line)
      (hstop : newline.stop = l.lineStop)
      (hmarks : ∀ m ∈ marks, (m.kind = .indent ∨ m.kind = .dedent) ∧ m.line = l.line ∧
        m.stop = l.offset) : Marks l (newline :: marks)

theorem marksBefore_eq {l l' : Layout} {column : Nat} {marks : List Token}
    (h : l.marksBefore column = (marks, l')) :
    l.Marks marks ∧ l'.line = l.line ∧ l'.offset = l.offset := by
  unfold marksBefore at h
  split at h
  · obtain ⟨rfl, rfl⟩ := Prod.mk.inj h
    exact ⟨.none, rfl, rfl⟩
  · rename_i last hlast
    split at h
    · obtain ⟨rfl, rfl⟩ := Prod.mk.inj h
      exact ⟨.none, rfl, rfl⟩
    · rename_i hended
      have hended' : l.ended = true := by
        rw [Bool.or_eq_true, not_or] at hended
        simpa using hended.1
      dsimp only at h
      split at h
      · obtain ⟨rfl, rfl⟩ := Prod.mk.inj h
        refine ⟨.lineEnd hlast hended' rfl rfl rfl fun m hm => ?_, rfl, rfl⟩
        rw [List.mem_singleton.mp hm]
        exact ⟨.inl rfl, rfl, rfl⟩
      · obtain ⟨rfl, rfl⟩ := Prod.mk.inj h
        refine ⟨.lineEnd hlast hended' rfl rfl rfl fun m hm => ?_, rfl, rfl⟩
        rw [List.eq_of_mem_replicate hm]
        exact ⟨.inr rfl, rfl, rfl⟩

theorem Placed.of_le {l l' : Layout} (hl : l.Placed) (hlast : l'.last = l.last)
    (hline : l.line ≤ l'.line) (hended : l'.ended = true → l.ended = true ∨ l.line < l'.line)
    (hstop : l'.lineStop ≤ l'.offset) : l'.Placed := by
  refine ⟨fun last hmem => ?_, fun last hmem h => ?_, hstop⟩ <;> rw [hlast] at hmem
  · exact (hl.line last hmem).trans hline
  · rcases hended h with h | h
    · exact (hl.ended last hmem h).trans_le hline
    · exact (hl.line last hmem).trans_lt h

theorem Placed.blank {l : Layout} (hl : l.Placed) (text : List Char) (column : Nat) :
    Placed { l.advance text with column := column } :=
  hl.of_le rfl (Nat.le_add_right _ _) .inl (hl.stop.trans (Nat.le_add_right _ _))

theorem Placed.lineEnd {l : Layout} (hl : l.Placed) {text : List Char} (h : '\n' ∈ text) :
    Placed { l.advance text with column := 0, ended := l.last.isSome } :=
  hl.of_le rfl (Nat.le_add_right _ _)
    (fun _ => .inr (Nat.lt_add_of_pos_right (List.count_pos_iff.mpr h)))
    (hl.stop.trans (Nat.le_add_right _ _))

theorem Placed.comment {l : Layout} (hl : l.Placed) (text : List Char) (comments : List Comment) :
    Placed { l.advance text with
      comments := comments
      lineStop := if l.ended then l.lineStop else (l.advance text).offset } := by
  refine hl.of_le rfl (Nat.le_add_right _ _) .inl ?_
  dsimp only
  split
  · exact hl.stop.trans (Nat.le_add_right _ _)
  · exact Nat.le_refl _

/-- The layout behind a token is placed whatever stood in front of it. -/
theorem placed_behind {l : Layout} {t : Token} (hline : t.line ≤ l.line) (text : List Char)
    (blocks : List Nat) (beforeLast : Option Token) :
    Placed { l.advance text with
      blocks := blocks, last := some t, beforeLast := beforeLast, ended := false
      lineStop := (l.advance text).offset, comments := [] } := by
  refine ⟨fun last hmem => ?_, fun last _ h => absurd h (by simp), Nat.le_refl _⟩
  exact Option.some.inj hmem ▸ hline.trans (Nat.le_add_right _ _)

/-- The token stands behind all that the layout has seen. -/
structure IsBehind (l : Layout) (u : Token) : Prop where
  line : ∀ last ∈ l.last, last.line ≤ u.line
  stop : l.lineStop ≤ u.stop
  word : u.kind = .word → l.line ≤ u.line

theorem IsBehind.of_le {l l' : Layout} {u : Token} (h : l'.IsBehind u) (hlast : l'.last = l.last)
    (hline : l.line ≤ l'.line) (hstop : l.lineStop ≤ l'.lineStop) : l.IsBehind u :=
  ⟨fun last hmem => h.line last (hlast ▸ hmem), hstop.trans h.stop, fun hword =>
    hline.trans (h.word hword)⟩

theorem isBehind_of_mem_marks {l : Layout} (hl : l.Placed) {marks : List Token} (h : l.Marks marks)
    {m : Token} (hm : m ∈ marks) : l.IsBehind m := by
  cases h with
  | none => cases hm
  | @lineEnd last newline marks hlast hended hkind hline hstop hmarks =>
    rcases List.mem_cons.mp hm with rfl | hm
    · refine ⟨fun last' hlast' => ?_, hstop.ge, fun hword => ?_⟩
      · rw [hline, Option.some.inj (hlast.symm.trans hlast')]
      · exact absurd (hkind.symm.trans hword) (by decide)
    · obtain ⟨hkind, hline, hstop⟩ := hmarks m hm
      refine ⟨fun last' hlast' => hline ▸ hl.line last' hlast', hstop ▸ hl.stop, fun hword => ?_⟩
      exact hline.ge

theorem isBehind_of_mem_marksAtEnd {l : Layout} (hl : l.Placed) {m : Token}
    (hm : m ∈ l.marksAtEnd) : l.IsBehind m := by
  unfold marksAtEnd at hm
  split at hm
  · rename_i hnone
    rw [List.mem_singleton.mp hm]
    exact ⟨by simp [hnone], hl.stop, nofun⟩
  · rename_i last hlast
    have hline : ∀ last' ∈ l.last, last'.line ≤ last.line := fun last' hlast' =>
      (congrArg Token.line (Option.some.inj (hlast'.symm.trans hlast))).le
    simp only [List.mem_cons, List.mem_append, List.mem_replicate, List.not_mem_nil, or_false] at hm
    rcases hm with rfl | ⟨-, rfl⟩ | rfl
    · exact ⟨hline, Nat.le_refl _, nofun⟩
    · exact ⟨hline, hl.stop, nofun⟩
    · exact ⟨hline, hl.stop, nofun⟩

theorem isBehind_of_mem_tokensFrom {l : Layout} {xs : List Lexeme} (hl : l.Placed)
    (hxs : ∀ x ∈ xs, x.Sound) {u : Token} (hu : u ∈ l.tokensFrom xs) : l.IsBehind u := by
  fun_induction tokensFrom l xs with
  | case1 l => exact isBehind_of_mem_marksAtEnd hl hu
  | case2 l text rest next ih =>
    rw [List.forall_mem_cons] at hxs
    exact (ih (hl.blank text _) hxs.2 hu).of_le rfl (Nat.le_add_right _ _) (Nat.le_refl _)
  | case3 l text rest next ih =>
    rw [List.forall_mem_cons] at hxs
    have hbehind := ih (hl.lineEnd (hxs.1.lineEnd rfl)) hxs.2 hu
    exact hbehind.of_le rfl (Nat.le_add_right _ _) (Nat.le_refl _)
  | case4 l text rest next comment ih =>
    rw [List.forall_mem_cons] at hxs
    refine (ih (hl.comment text _) hxs.2 hu).of_le rfl (Nat.le_add_right _ _) ?_
    dsimp only
    split
    · exact Nat.le_refl _
    · exact hl.stop.trans (Nat.le_add_right _ _)
  | case5 l text rest next kind _ _ _ marks l' hmarks token ih =>
    rw [List.forall_mem_cons] at hxs
    obtain ⟨hmarks, hline, hoffset⟩ := marksBefore_eq hmarks
    rcases List.mem_append.mp hu with hu | hu
    · exact isBehind_of_mem_marks hl hmarks hu
    · have htoken : l.IsBehind token :=
        ⟨fun last hlast => (hl.line last hlast).trans hline.ge,
          hl.stop.trans (Nat.le_add_right _ _), fun _ => hline.ge⟩
      rcases List.mem_cons.mp hu with rfl | hu
      · exact htoken
      · have hbehind := ih (placed_behind hline.le text _ _) hxs.2 hu
        exact ⟨fun last hlast => (htoken.line last hlast).trans (hbehind.line token rfl),
          htoken.stop.trans hbehind.stop,
          fun hword => (Nat.le_add_right _ _).trans (hbehind.word hword)⟩

/-- The mark for the end of a line and marks behind it that stand in one place are in order. -/
theorem pairwise_before_marks {newline : Token} {marks : List Token} (line place : Nat)
    (hline : newline.line ≤ line) (hstop : newline.stop ≤ place)
    (hmarks : ∀ m ∈ marks, m.kind ≠ .newline ∧ m.kind ≠ .word ∧ m.line = line ∧ m.stop = place) :
    (newline :: marks).Pairwise Token.Before := by
  refine List.pairwise_cons.mpr ⟨fun m hm => ?_, List.pairwise_of_forall_mem_list ?_⟩
  · obtain ⟨-, hword, rfl, rfl⟩ := hmarks m hm
    exact ⟨hline, hstop, fun _ h => absurd h hword⟩
  · intro m hm m' hm'
    obtain ⟨hkind, -, hmline, hmstop⟩ := hmarks m hm
    obtain ⟨-, -, hmline', hmstop'⟩ := hmarks m' hm'
    exact ⟨(hmline.trans hmline'.symm).le, (hmstop.trans hmstop'.symm).le, fun h => absurd h hkind⟩

theorem pairwise_before_marksAtEnd {l : Layout} (hl : l.Placed) :
    l.marksAtEnd.Pairwise Token.Before := by
  unfold marksAtEnd
  split
  · exact List.pairwise_singleton _ _
  · refine pairwise_before_marks _ _ (Nat.le_refl _) hl.stop fun m hm => ?_
    simp only [List.mem_append, List.mem_replicate, List.mem_singleton] at hm
    rcases hm with ⟨-, rfl⟩ | rfl <;> exact ⟨nofun, nofun, rfl, rfl⟩

theorem pairwise_before_of_marks {l : Layout} (hl : l.Placed) {marks : List Token}
    (h : l.Marks marks) : marks.Pairwise Token.Before := by
  cases h with
  | none => exact .nil
  | @lineEnd last newline marks hlast hended hkind hline hstop hmarks =>
    refine pairwise_before_marks l.line l.offset ?_ ?_ fun m hm => ?_
    · exact hline.le.trans (hl.line last hlast)
    · exact hstop.le.trans hl.stop
    · obtain ⟨hkind | hkind, hmline, hmstop⟩ := hmarks m hm <;>
        exact ⟨by simp [hkind], by simp [hkind], hmline, hmstop⟩

theorem before_of_mem_marks {l : Layout} (hl : l.Placed) {marks : List Token} (h : l.Marks marks)
    {m u : Token} (hm : m ∈ marks) (hline : l.line ≤ u.line) (hstop : l.offset ≤ u.stop) :
    m.Before u := by
  cases h with
  | none => cases hm
  | @lineEnd last newline marks hlast hended hkind hnewline hnewstop hmarks =>
    rcases List.mem_cons.mp hm with rfl | hm
    · have hlt : m.line < u.line := hnewline ▸ (hl.ended last hlast hended).trans_le hline
      exact ⟨hlt.le, hnewstop.le.trans (hl.stop.trans hstop), fun _ _ => hlt⟩
    · obtain ⟨hmkind, hmline, hmstop⟩ := hmarks m hm
      refine ⟨hmline.le.trans hline, hmstop.le.trans hstop, fun hkind => ?_⟩
      rcases hmkind with hmkind | hmkind <;> exact absurd (hmkind.symm.trans hkind) (by decide)

/-- **The tokens of a source stand in the order of their places.** -/
theorem pairwise_before_tokensFrom {l : Layout} {xs : List Lexeme} (hl : l.Placed)
    (hxs : ∀ x ∈ xs, x.Sound) : (l.tokensFrom xs).Pairwise Token.Before := by
  fun_induction tokensFrom l xs with
  | case1 l => exact pairwise_before_marksAtEnd hl
  | case2 l text rest next ih =>
    rw [List.forall_mem_cons] at hxs
    exact ih (hl.blank text _) hxs.2
  | case3 l text rest next ih =>
    rw [List.forall_mem_cons] at hxs
    exact ih (hl.lineEnd (hxs.1.lineEnd rfl)) hxs.2
  | case4 l text rest next comment ih =>
    rw [List.forall_mem_cons] at hxs
    exact ih (hl.comment text _) hxs.2
  | case5 l text rest next kind _ _ _ marks l' hmarks token ih =>
    rw [List.forall_mem_cons] at hxs
    obtain ⟨hmarks, hline, hoffset⟩ := marksBefore_eq hmarks
    have hplaced := placed_behind (t := token) hline.le text l'.blocks l'.last
    have hkind : token.kind ≠ .newline := tokenKind_ne_newline kind
    have hrest : ∀ u ∈ tokensFrom _ rest, token.Before u := fun u hu => by
      have hbehind := isBehind_of_mem_tokensFrom hplaced hxs.2 hu
      exact ⟨hbehind.line token rfl, hbehind.stop, fun h => absurd h hkind⟩
    -- the marks end the line of the last token, which lies above this one
    refine List.pairwise_append.mpr ⟨pairwise_before_of_marks hl hmarks,
      List.pairwise_cons.mpr ⟨hrest, ih hplaced hxs.2⟩, fun m hm u hu => ?_⟩
    have htoken : l.line ≤ token.line ∧ l.offset ≤ token.stop := ⟨hline.ge, Nat.le_add_right _ _⟩
    rcases List.mem_cons.mp hu with rfl | hu
    · exact before_of_mem_marks hl hmarks hm htoken.1 htoken.2
    · have hbefore := hrest u hu
      exact before_of_mem_marks hl hmarks hm (htoken.1.trans hbefore.line)
        (htoken.2.trans hbefore.stop)

theorem kind_of_mem_marks {l : Layout} {marks : List Token} (h : l.Marks marks) {m : Token}
    (hm : m ∈ marks) : m.kind ∈ [TokenKind.newline, .indent, .dedent] := by
  cases h with
  | none => cases hm
  | @lineEnd last newline marks hlast hended hkind hline hstop hmarks =>
    rcases List.mem_cons.mp hm with rfl | hm
    · simp [hkind]
    · rcases (hmarks m hm).1 with hkind | hkind <;> simp [hkind]

theorem kind_of_mem_marksAtEnd {l : Layout} {m : Token} (hm : m ∈ l.marksAtEnd) :
    m.kind ∈ [TokenKind.newline, .dedent, .endOfFile] := by
  unfold marksAtEnd at hm
  split at hm
  · rw [List.mem_singleton.mp hm]
    simp [mark]
  · simp only [List.mem_cons, List.mem_append, List.mem_replicate, List.not_mem_nil, or_false] at hm
    rcases hm with rfl | ⟨-, rfl⟩ | rfl <;> simp [mark]

/-- A word of a source is a lexeme of it. -/
theorem exists_lexeme_of_word {l : Layout} {xs : List Lexeme} {u : Token} (hu : u ∈ l.tokensFrom xs)
    (hkind : u.kind = .word) : ∃ x ∈ xs, x.kind = .word ∧ u.text.toList = x.text := by
  fun_induction tokensFrom l xs with
  | case1 l =>
    have hmark := kind_of_mem_marksAtEnd hu
    rw [hkind] at hmark
    exact absurd hmark (by decide)
  | case2 l text rest next ih | case3 l text rest next ih | case4 l text rest next comment ih =>
    obtain ⟨x, hx, hword, htext⟩ := ih hu
    exact ⟨x, List.mem_cons_of_mem _ hx, hword, htext⟩
  | case5 l text rest next kind _ _ _ marks l' hmarks token ih =>
    obtain ⟨hmarks, -⟩ := marksBefore_eq hmarks
    rcases List.mem_append.mp hu with hu | hu
    · have hmark := kind_of_mem_marks hmarks hu
      rw [hkind] at hmark
      exact absurd hmark (by decide)
    · rcases List.mem_cons.mp hu with rfl | hu
      · exact ⟨_, List.mem_cons_self, eq_word_of_tokenKind hkind, String.toList_ofList⟩
      · obtain ⟨x, hx, hword, htext⟩ := ih hu
        exact ⟨x, List.mem_cons_of_mem _ hx, hword, htext⟩

/-! ## The mark of a decorator -/

theorem head_tokensFrom {l : Layout} (hended : l.ended = false) {x : Lexeme}
    (hx : x.kind ∈ [LexemeKind.operator, .formatText, .formatEnd]) (rest : List Lexeme) :
    ∃ u us, l.tokensFrom (x :: rest) = u :: us ∧ u.kind = x.kind.token?.getD .invalid ∧
      u.text = String.ofList x.text := by
  obtain ⟨kind, text⟩ := x
  have hmarks : (l.marksBefore l.column).1 = [] := by
    unfold marksBefore
    split <;> simp [hended]
  simp only [List.mem_cons, List.not_mem_nil, or_false] at hx
  rcases hx with rfl | rfl | rfl <;> simp [tokensFrom, hmarks]

/-- The token `t` of the source, if it is an `@`, is one character long, and where a second `@`
follows it the next token `u` begins with that. -/
def MarkedOff (source : List Char) (t u : Token) : Prop :=
  t.kind = .operator → t.text = "@" → t.stop = t.start + 1 ∧
    ∃ rest, source.drop t.start = '@' :: rest ∧ (rest.head? = some '@' →
      u.kind ∈ [TokenKind.operator, .formatText, .formatEnd] ∧ u.text.toList.head? = some '@')

theorem isChain_of_forall_ne_operator {source : List Char} {ts : List Token}
    (h : ∀ t ∈ ts, t.kind ≠ .operator) : ts.IsChain (MarkedOff source) :=
  (List.pairwise_of_forall_mem_list fun t ht _ _ hkind => absurd hkind (h t ht)).isChain

theorem isChain_markedOff {source : List Char} {l : Layout} {xs : List Lexeme}
    (hxs : ∀ x ∈ xs, x.Sound) (hsource : source.drop l.offset = xs.flatMap Lexeme.text) :
    (l.tokensFrom xs).IsChain (MarkedOff source) := by
  have hstep : ∀ {text : List Char} {rest : List Lexeme} {offset : Nat},
      source.drop offset = text ++ rest.flatMap Lexeme.text →
      source.drop (offset + text.length) = rest.flatMap Lexeme.text := fun h => by
    rw [← List.drop_drop, h, List.drop_left]
  fun_induction tokensFrom l xs with
  | case1 l =>
    refine isChain_of_forall_ne_operator fun t ht hkind => ?_
    have hmark := kind_of_mem_marksAtEnd ht
    rw [hkind] at hmark
    exact absurd hmark (by decide)
  | case2 l text rest next ih | case3 l text rest next ih | case4 l text rest next comment ih =>
    rw [List.forall_mem_cons] at hxs
    exact ih hxs.2 (hstep hsource)
  | case5 l text rest next kind _ _ _ marks l' hmarks token ih =>
    rw [List.forall_mem_cons] at hxs
    obtain ⟨hmarks, hline, hoffset⟩ := marksBefore_eq hmarks
    have hmark : ∀ m ∈ marks, m.kind ≠ .operator := fun m hm hkind => by
      have hmark := kind_of_mem_marks hmarks hm
      rw [hkind] at hmark
      exact absurd hmark (by decide)
    refine List.isChain_append.mpr ⟨isChain_of_forall_ne_operator hmark,
      List.isChain_cons.mpr ⟨fun u hu _ htext => ?_, ih hxs.2 (hstep hsource)⟩,
      fun m hm _ _ hkind => absurd hkind (hmark m (List.mem_of_getLast? hm))⟩
    have htext' : text = ['@'] := by
      have := congrArg String.toList htext
      rwa [String.toList_ofList] at this
    subst htext'
    have hstart : token.start = l.offset := hoffset
    refine ⟨by rw [hstart]; rfl, rest.flatMap Lexeme.text, by rw [hstart]; exact hsource, ?_⟩
    intro hat
    rcases rest with _ | ⟨x, rest⟩
    · cases hat
    · rw [List.forall_mem_cons] at hxs
      have hx : x.text.head? = some '@' := by
        obtain ⟨c, t, hct⟩ := List.exists_cons_of_ne_nil hxs.2.1.nonempty
        rw [List.flatMap_cons, hct] at hat
        rwa [hct]
      have hkind := hxs.2.1.marked hx
      obtain ⟨v, vs, hhead, hvkind, hvtext⟩ := head_tokensFrom (l := { next with
        blocks := l'.blocks, last := some token, beforeLast := l'.last, ended := false
        lineStop := next.offset, comments := [] }) rfl hkind rest
      rw [hhead] at hu
      obtain rfl := Option.some.inj hu
      refine ⟨?_, by rw [hvtext, String.toList_ofList, hx]⟩
      rw [hvkind]
      simp only [List.mem_cons, List.not_mem_nil, or_false] at hkind
      rcases hkind with hkind | hkind | hkind <;> rw [hkind] <;> decide

theorem placed_start : Placed {} :=
  ⟨nofun, nofun, Nat.le_refl _⟩

end Layout

/-! ## The tokens of a source -/

theorem pairwise_before_tokens (source : List Char) : (tokens source).Pairwise Token.Before := by
  have hfirst :
      ((Layout.tokensFrom {} (lexemes source)).zipIdx.map Prod.fst).Pairwise Token.Before := by
    rw [List.zipIdx_map_fst]
    exact Layout.pairwise_before_tokensFrom Layout.placed_start fun _ => sound_of_mem_lexemes
  rw [List.pairwise_map] at hfirst
  exact List.pairwise_map.mpr (hfirst.imp fun h => ⟨h.line, h.stop, h.nextLine⟩)

theorem isChain_tokens (source : List Char) :
    (tokens source).IsChain (Layout.MarkedOff source) := by
  have hfirst : ((Layout.tokensFrom {} (lexemes source)).zipIdx.map Prod.fst).IsChain
      (Layout.MarkedOff source) := by
    rw [List.zipIdx_map_fst]
    exact Layout.isChain_markedOff (fun _ => sound_of_mem_lexemes)
      (flatMap_text_lexemes source).symm
  rw [List.isChain_map] at hfirst
  exact (List.isChain_map _).mpr (hfirst.imp fun _ _ h => h)

theorem continuesName_of_mem_tokens {source : List Char} {t : Token} (h : t ∈ tokens source)
    (hkind : t.kind = .word) : ∀ c ∈ t.text.toList, continuesName c = true := by
  obtain ⟨⟨u, i⟩, hu, rfl⟩ := List.mem_map.mp h
  obtain ⟨x, hx, hword, htext⟩ :=
    Layout.exists_lexeme_of_word (List.fst_mem_of_mem_zipIdx hu) hkind
  intro c hc
  exact (sound_of_mem_lexemes hx).word hword c (htext ▸ hc)

end DocAudit.Python
