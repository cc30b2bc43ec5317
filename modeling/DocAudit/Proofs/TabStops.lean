import DocAudit.FieldList
import DocAudit.Proofs.CleanText

/-!
# Proofs/TabStops — eight blanks for each tab, and tabs that lead to the next stop

At a tab stop, a column divisible by eight, a tab is eight blanks wide; between stops it is
narrower, so its width depends on what stands in front of it in its line (`expandStops`).  Cleaning
puts eight blanks for every tab.  Both are `expandFrom` for some width, and for any width an
expanded line without its margin is cut where the line itself is: what is left of the expanded
indentation, then the expanded text (`outdent_expandFrom`).

Eight blanks are never too few.  So no excess at one tab is made up for by another, and the two
expansions are equal only if every tab stands at a stop (`expandTabs_eq_iff`).  Of what cleaning
leaves less is asked: tabs in front of the first line, behind the text of any other and in blank
lines leave no trace, and tabs in front of the text count against the margin only.  `StopsAgree`
says what remains, and since blank lines at the ends are the same for both expansions, no difference
is lost with them (`dropBlankEnds_inj`).
-/

namespace DocAudit.Docstring

open DocAudit.Text

/-! ## Columns -/

/-- The column behind a character that stands at `column`; a line end starts the count again. -/
def nextColumn (width : Nat → Nat) (column : Nat) (c : Char) : Nat :=
  if c = '\t' then column + width column
  else if c = '\n' ∨ c = '\r' then 0
  else column + 1

/-- The column behind a text that starts at `column`. -/
def columnAfter (width : Nat → Nat) (column : Nat) (s : List Char) : Nat :=
  s.foldl (nextColumn width) column

/-- The text, starting at `column`, with blanks for each tab, as many as its column asks for. -/
def expandFrom (width : Nat → Nat) (column : Nat) : List Char → List Char
  | [] => []
  | c :: s => (if c = '\t' then List.replicate (width column) ' ' else [c])
      ++ expandFrom width (nextColumn width column c) s

/-- The blanks up to the next column divisible by eight. -/
def toStop (column : Nat) : Nat :=
  8 - column % 8

/-- The text with blanks up to the next column divisible by eight for each tab. -/
def expandStops (raw : List Char) : List Char :=
  expandFrom toStop 0 raw

/-- Every tab of the text, which starts at `column`, stands at a column divisible by eight. -/
def TabsAtStops (column : Nat) (s : List Char) : Prop :=
  ∀ before after, s = before ++ '\t' :: after → 8 ∣ columnAfter toStop column before

variable {width : Nat → Nat}

theorem expandFrom_append (column : Nat) (s t : List Char) :
    expandFrom width column (s ++ t)
      = expandFrom width column s ++ expandFrom width (columnAfter width column s) t := by
  induction s generalizing column with
  | nil => rfl
  | cons c s ih =>
    rw [List.cons_append, expandFrom, expandFrom, ih, List.append_assoc, columnAfter, columnAfter,
      List.foldl_cons]

theorem expandFrom_singleton {c : Char} (hc : c ≠ '\t') (column : Nat) :
    expandFrom width column [c] = [c] := by
  rw [expandFrom, if_neg hc, expandFrom, List.append_nil]

theorem expandTabs_eq_expandFrom (column : Nat) (s : List Char) :
    expandTabs s = expandFrom (fun _ => 8) column s := by
  induction s generalizing column with
  | nil => rfl
  | cons c s ih => rw [expandTabs, List.flatMap_cons, ← expandTabs, ih, expandFrom]

theorem visible_expandFrom (column : Nat) (s : List Char) :
    visible (expandFrom width column s) = visible s := by
  induction s generalizing column with
  | nil => rfl
  | cons c s ih =>
    rw [expandFrom, visible_append, ih]
    by_cases hc : c = '\t'
    · subst hc
      rw [if_pos rfl, visible_eq_nil_iff.mpr (isBlank_replicate _)]
      rfl
    · rw [if_neg hc, ← visible_append]
      rfl

theorem isBlank_expandFrom (column : Nat) (s : List Char) :
    isBlank (expandFrom width column s) = isBlank s := by
  rw [Bool.eq_iff_iff, ← visible_eq_nil_iff, ← visible_eq_nil_iff, visible_expandFrom]

/-- A character of the expanded text is one of the text, or a blank for one of its tabs. -/
theorem mem_of_mem_expandFrom {column : Nat} {s : List Char} {c : Char}
    (h : c ∈ expandFrom width column s) : c = ' ' ∨ c ∈ s ∧ c ≠ '\t' := by
  induction s generalizing column with
  | nil => cases h
  | cons d s ih =>
    rw [expandFrom, List.mem_append] at h
    rcases h with h | h
    · split at h
      · exact .inl (List.eq_of_mem_replicate h)
      · rename_i hd
        rw [List.mem_singleton.mp h]
        exact .inr ⟨List.mem_cons_self, hd⟩
    · exact (ih h).imp_right fun ⟨hmem, hne⟩ => ⟨List.mem_cons_of_mem d hmem, hne⟩

theorem expandTabs_expandFrom (column : Nat) (s : List Char) :
    expandTabs (expandFrom width column s) = expandFrom width column s := by
  refine expandTabs_of_notMem fun hmem => ?_
  rcases mem_of_mem_expandFrom hmem with hblank | ⟨-, hne⟩
  · exact absurd hblank (by decide)
  · exact hne rfl

theorem splitOn_expandStops (s : List Char) :
    (expandStops s).splitOn '\n' = (s.splitOn '\n').map expandStops := by
  refine splitOn_of_append (fun l t => ?_) (fun l hl hmem => ?_) s
  · rw [expandStops, expandFrom_append]
    rfl
  · rcases mem_of_mem_expandFrom hmem with hblank | ⟨hin, -⟩
    · exact absurd hblank (by decide)
    · exact hl hin

/-! ## Tabs at stops -/

theorem length_expandFrom_le (column : Nat) (s : List Char) :
    (expandFrom toStop column s).length ≤ (expandTabs s).length := by
  induction s generalizing column with
  | nil => exact Nat.le_refl 0
  | cons c s ih =>
    have hrest := ih (nextColumn toStop column c)
    rw [expandTabs, List.flatMap_cons, ← expandTabs, expandFrom, List.length_append,
      List.length_append]
    by_cases hc : c = '\t'
    · rw [if_pos hc, if_pos hc, List.length_replicate, List.length_replicate, toStop]
      omega
    · rw [if_neg hc, if_neg hc]
      omega

theorem tabsAtStops_cons {column : Nat} {c : Char} {s : List Char} :
    TabsAtStops column (c :: s) ↔
      (c = '\t' → 8 ∣ column) ∧ TabsAtStops (nextColumn toStop column c) s := by
  constructor
  · intro h
    refine ⟨fun hc => h [] s (by rw [hc]; rfl), fun before after hs => ?_⟩
    exact h (c :: before) after (by rw [hs]; rfl)
  · rintro ⟨hc, hs⟩ before after hsplit
    rcases before with _ | ⟨d, before⟩
    · exact hc (List.cons.inj hsplit).1
    · obtain ⟨rfl, hrest⟩ := List.cons.inj hsplit
      exact hs before after hrest

/-- **Eight blanks are right for a tab at a stop, and too many for any other.** -/
theorem expandTabs_eq_iff (column : Nat) (s : List Char) :
    expandTabs s = expandFrom toStop column s ↔ TabsAtStops column s := by
  induction s generalizing column with
  | nil => exact iff_of_true rfl fun before after h => by simp at h
  | cons c s ih =>
    rw [tabsAtStops_cons, ← ih, expandTabs, List.flatMap_cons, ← expandTabs, expandFrom]
    by_cases hc : c = '\t'
    · rw [if_pos hc, if_pos hc]
      by_cases hstop : 8 ∣ column
      · have hwidth : toStop column = 8 := by
          rw [toStop, Nat.mod_eq_zero_of_dvd hstop]
        rw [hwidth, List.append_cancel_left_eq, and_iff_right fun _ => hstop]
      · -- the blanks in excess have no place in the shorter expansion of what follows
        refine iff_of_false (fun heq => ?_) fun h => hstop (h.1 hc)
        have hlength := congrArg List.length heq
        have hle := length_expandFrom_le (nextColumn toStop column c) s
        rw [List.length_append, List.length_append, List.length_replicate, List.length_replicate,
          toStop] at hlength
        omega
    · rw [if_neg hc, if_neg hc, List.append_cancel_left_eq, and_iff_right fun h => absurd h hc]

/-! ## What is left of an expanded line -/

theorem ne_tab_of_not_isWhite {c : Char} (h : isWhite c = false) : c ≠ '\t' := by
  rintro rfl
  exact absurd h (by decide)

theorem trimStart_expandFrom_of_head {s : List Char} (h : ∀ c ∈ s.head?, isWhite c = false)
    (column : Nat) : trimStart (expandFrom width column s) = expandFrom width column s := by
  rcases s with _ | ⟨c, s⟩
  · rfl
  · have hwhite : isWhite c = false := h c rfl
    rw [expandFrom, if_neg (ne_tab_of_not_isWhite hwhite), List.singleton_append, trimStart,
      List.dropWhile_cons_of_neg (by simp [hwhite])]

/-- The expanded line, cut where its text begins. -/
theorem expandFrom_eq_append (column : Nat) (s : List Char) :
    expandFrom width column s = expandFrom width column (s.takeWhile isWhite)
      ++ expandFrom width (columnAfter width column (s.takeWhile isWhite)) (trimStart s) := by
  conv_lhs => rw [← List.takeWhile_append_dropWhile (p := isWhite) (l := s), expandFrom_append]
  rfl

theorem trimStart_expandFrom (column : Nat) (s : List Char) :
    trimStart (expandFrom width column s)
      = expandFrom width (columnAfter width column (s.takeWhile isWhite)) (trimStart s) := by
  rw [expandFrom_eq_append, trimStart_append_left (by rw [isBlank_expandFrom, isBlank_takeWhile]),
    trimStart_expandFrom_of_head (not_isWhite_of_head?_trimStart s)]

theorem trimEnd_expandFrom (column : Nat) (s : List Char) :
    trimEnd (expandFrom width column s) = expandFrom width column (trimEnd s) := by
  rcases hs : isBlank s with _ | _
  · obtain ⟨v, hv, hsplit⟩ := exists_trimEnd_append s
    obtain ⟨c, hc, hwhite⟩ := exists_getLast?_trimEnd hs
    obtain ⟨t, ht⟩ := List.getLast?_eq_some_iff.mp hc
    have hbare : trimEnd [c] = [c] := by simp [trimEnd, hwhite]
    conv_lhs => rw [hsplit, expandFrom_append,
      trimEnd_append_right _ (by rw [isBlank_expandFrom, hv])]
    rw [ht, expandFrom_append, expandFrom_singleton (ne_tab_of_not_isWhite hwhite),
      trimEnd_append_left _ (by simp [isBlank, hwhite]), hbare]
  · rw [trimEnd_of_isBlank (by rw [isBlank_expandFrom, hs]), trimEnd_of_isBlank hs, expandFrom]

theorem indentation_expandFrom (column : Nat) (s : List Char) :
    indentation (expandFrom width column s)
      = (expandFrom width column (s.takeWhile isWhite)).length := by
  have hcut : (expandFrom width column s).length = _ :=
    congrArg List.length (expandFrom_eq_append column s)
  have hown := congrArg List.length
    (List.takeWhile_append_dropWhile (p := isWhite) (l := expandFrom width column s))
  rw [List.length_append, ← indentation, ← trimStart, trimStart_expandFrom] at hown
  rw [List.length_append] at hcut
  omega

/-- Without its margin and the white space at its end, an expanded line is what is left of its
expanded indentation and its expanded text. -/
theorem outdent_expandFrom {m : Nat} {l : List Char} (hl : isBlank l = false)
    (hm : m ≤ indentation (expandFrom width 0 l)) :
    outdent m (expandFrom width 0 l) = (expandFrom width 0 (l.takeWhile isWhite)).drop m
      ++ expandFrom width (columnAfter width 0 (l.takeWhile isWhite)) (trim l) := by
  have hbody : isBlank (expandFrom width (columnAfter width 0 (l.takeWhile isWhite)) (trimStart l))
      = false := by
    rw [isBlank_expandFrom, isBlank_trimStart, hl]
  rw [indentation_expandFrom] at hm
  rw [outdent, expandFrom_eq_append, List.drop_append_of_le_length hm,
    trimEnd_append_left _ hbody, trimEnd_expandFrom, trim]

/-- White space in front of two texts that start with a character that shows. -/
theorem append_inj_of_isBlank {u u' s s' : List Char} (hu : isBlank u = true)
    (hu' : isBlank u' = true) (hs : trimStart s = s) (hs' : trimStart s' = s') :
    u ++ s = u' ++ s' ↔ u = u' ∧ s = s' := by
  refine ⟨fun h => ?_, fun ⟨hu, hs⟩ => by rw [hu, hs]⟩
  have htext : s = s' := by
    calc s = trimStart (u ++ s) := by rw [trimStart_append_left hu, hs]
      _ = trimStart (u' ++ s') := congrArg trimStart h
      _ = s' := by rw [trimStart_append_left hu', hs']
  rw [htext, List.append_cancel_right_eq] at h
  exact ⟨h, htext⟩

theorem outdent_expandTabs_eq_iff {m m' : Nat} {l : List Char} (hl : isBlank l = false)
    (hm : m ≤ indentation (expandTabs l)) (hm' : m' ≤ indentation (expandStops l)) :
    outdent m (expandTabs l) = outdent m' (expandStops l) ↔
      (expandTabs (l.takeWhile isWhite)).drop m = (expandStops (l.takeWhile isWhite)).drop m' ∧
      TabsAtStops (columnAfter toStop 0 (l.takeWhile isWhite)) (trim l) := by
  have hblank : ∀ (w : Nat → Nat) (n : Nat),
      isBlank ((expandFrom w 0 (l.takeWhile isWhite)).drop n) = true := fun w n => by
    have hlead : isBlank (expandFrom w 0 (l.takeWhile isWhite)) = true := by
      rw [isBlank_expandFrom, isBlank_takeWhile]
    exact isBlank_iff.mpr fun c hc => isBlank_iff.mp hlead c (List.mem_of_mem_drop hc)
  have htrim : ∀ c ∈ (trim l).head?, isWhite c = false := fun c => not_isWhite_of_head?_trim
  rw [expandTabs_eq_expandFrom 0] at hm
  rw [expandTabs_eq_expandFrom 0 l, outdent_expandFrom hl hm, expandStops,
    outdent_expandFrom hl hm', append_inj_of_isBlank (hblank _ _) (hblank _ _)
      (trimStart_expandFrom_of_head htrim _) (trimStart_expandFrom_of_head htrim _),
    ← expandTabs_eq_expandFrom, ← expandTabs_eq_expandFrom, expandTabs_eq_iff, expandStops]

/-! ## The first line -/

theorem getLast?_expandFrom_eq_return_iff (hwidth : ∀ n, 0 < width n) (column : Nat)
    (s : List Char) :
    (expandFrom width column s).getLast? = some '\r' ↔ s.getLast? = some '\r' := by
  rcases s.eq_nil_or_concat' with rfl | ⟨t, c, rfl⟩
  · rfl
  · rw [List.getLast?_concat, expandFrom_append]
    by_cases hc : c = '\t'
    · subst hc
      have hpos := (hwidth (columnAfter width column t)).ne'
      simp [expandFrom, List.getLast?_append, List.getLast?_replicate, hpos]
    · rw [expandFrom_singleton hc, List.getLast?_concat]

theorem trimStart_expandTabs_eq_iff (l : List Char) :
    trimStart (expandTabs l) = trimStart (expandStops l) ↔
      TabsAtStops (columnAfter toStop 0 (l.takeWhile isWhite)) (trimStart l) := by
  rw [expandTabs_eq_expandFrom 0, expandStops, trimStart_expandFrom, trimStart_expandFrom,
    ← expandTabs_eq_expandFrom, expandTabs_eq_iff]

theorem trimStart_dropReturn_expandTabs_eq_iff (l : List Char) :
    trimStart (dropReturn (expandTabs l)) = trimStart (dropReturn (expandStops l)) ↔
      TabsAtStops (columnAfter toStop 0 (l.takeWhile isWhite)) (trimStart l) := by
  have hpos : ∀ n, 0 < toStop n := fun n => by
    rw [toStop]
    omega
  rw [← trimStart_expandTabs_eq_iff, trimStart_dropReturn, trimStart_dropReturn, dropReturn_inj]
  rw [expandTabs_eq_expandFrom 0, expandStops, trimStart_expandFrom, trimStart_expandFrom,
    getLast?_expandFrom_eq_return_iff (fun _ => by decide),
    getLast?_expandFrom_eq_return_iff hpos]

/-! ## Blank lines at the ends -/

/-- Lines that show something alike, and are equal where they do not. -/
def SameBlank (l l' : List Char) : Prop :=
  isBlank l = isBlank l' ∧ (isBlank l = true → l = l')

theorem sameBlank_trimStart {s t : List Char} (h : isBlank s = isBlank t) :
    SameBlank (trimStart s) (trimStart t) := by
  refine ⟨by rw [isBlank_trimStart, isBlank_trimStart, h], fun hblank => ?_⟩
  rw [isBlank_trimStart] at hblank
  rw [trimStart_of_isBlank hblank, trimStart_of_isBlank (h ▸ hblank)]

theorem sameBlank_outdent {m m' : Nat} {s t : List Char}
    (hm : isBlank s = false → m ≤ indentation s) (hm' : isBlank t = false → m' ≤ indentation t)
    (h : isBlank s = isBlank t) : SameBlank (outdent m s) (outdent m' t) := by
  have hs : isBlank (outdent m s) = isBlank s := isBlank_of_outdented (outdented_outdent hm 0)
  have ht : isBlank (outdent m' t) = isBlank t := isBlank_of_outdented (outdented_outdent hm' 0)
  refine ⟨by rw [hs, ht, h], fun hblank => ?_⟩
  rw [hs] at hblank
  rw [outdent_of_isBlank m hblank, outdent_of_isBlank m' (h ▸ hblank)]

theorem dropWhile_of_sameBlank {ls ls' : List (List Char)} (h : List.Forall₂ SameBlank ls ls') :
    List.Forall₂ SameBlank (ls.dropWhile isBlank) (ls'.dropWhile isBlank) ∧
      (ls.dropWhile isBlank = ls'.dropWhile isBlank ↔ ls = ls') := by
  induction h with
  | nil => exact ⟨.nil, Iff.rfl⟩
  | @cons l l' ls ls' hl hls ih =>
    obtain ⟨hsame, hequal⟩ := hl
    rcases hblank : isBlank l with _ | _
    · rw [List.dropWhile_cons_of_neg (by simp [hblank]),
        List.dropWhile_cons_of_neg (by simp [← hsame, hblank])]
      exact ⟨.cons ⟨hsame, hequal⟩ hls, Iff.rfl⟩
    · rw [List.dropWhile_cons_of_pos hblank, List.dropWhile_cons_of_pos (by rw [← hsame, hblank]),
        hequal hblank, List.cons.injEq, and_iff_right rfl]
      exact ih

/-- Dropping blank lines at the ends loses no difference between such lines. -/
theorem dropBlankEnds_inj {ls ls' : List (List Char)} (h : List.Forall₂ SameBlank ls ls') :
    dropBlankEnds ls = dropBlankEnds ls' ↔ ls = ls' := by
  obtain ⟨hfront, hiff⟩ := dropWhile_of_sameBlank h
  obtain ⟨-, hiff'⟩ := dropWhile_of_sameBlank (List.forall₂_reverse_iff.mpr hfront)
  rw [dropBlankEnds, dropBlankEnds, List.reverse_inj, hiff', List.reverse_inj, hiff]

/-! ## The docstring -/

/-- Both expansions of the pieces of a text clean alike: the tabs that cleaning leaves are at stops,
and in front of each line that is not blank, the same is left of the indentation, where each
expansion has a margin of its own. -/
structure StopsAgree (first : List Char) (rest : List (List Char)) : Prop where
  opening : TabsAtStops (columnAfter toStop 0 (first.takeWhile isWhite)) (trimStart first)
  indent : ∀ l ∈ rest, isBlank l = false →
    (expandTabs (l.takeWhile isWhite)).drop (margin (rest.map expandTabs)) =
      (expandStops (l.takeWhile isWhite)).drop (margin (rest.map expandStops))
  text : ∀ l ∈ rest, isBlank l = false →
    TabsAtStops (columnAfter toStop 0 (l.takeWhile isWhite)) (trim l)

/-- What is left of the pieces of a text whose tabs are expanded in the given way. -/
def outdentPieces (expand : List Char → List Char) (first : List Char) (rest : List (List Char)) :
    List (List Char) :=
  trimStart (if rest = [] then expand first else dropReturn (expand first)) ::
    rest.map fun l => outdent (margin (rest.map expand)) (expand l)

theorem margin_le_indentation (expand : List Char → List Char) {rest : List (List Char)}
    {l : List Char} (hl : l ∈ rest) (hblank : isBlank (expand l) = false) :
    margin (rest.map expand) ≤ indentation (expand l) :=
  (isMargin_margin _).le _ (List.mem_map_of_mem hl) hblank

theorem sameBlank_outdentPieces (first : List Char) (rest : List (List Char)) :
    List.Forall₂ SameBlank (outdentPieces expandTabs first rest)
      (outdentPieces expandStops first rest) := by
  have hblank : ∀ l, isBlank (expandTabs l) = isBlank (expandStops l) := fun l => by
    rw [isBlank_expandTabs, expandStops, isBlank_expandFrom]
  refine .cons (sameBlank_trimStart ?_) (List.forall₂_map_left_iff.mpr
    (List.forall₂_map_right_iff.mpr (List.forall₂_same.mpr fun l hl => ?_)))
  · split
    · exact hblank first
    · rw [isBlank_dropReturn, isBlank_dropReturn, hblank]
  · exact sameBlank_outdent (margin_le_indentation expandTabs hl)
      (margin_le_indentation expandStops hl) (hblank l)

theorem outdentPieces_eq_iff (first : List Char) (rest : List (List Char)) :
    outdentPieces expandTabs first rest = outdentPieces expandStops first rest ↔
      StopsAgree first rest := by
  have hfirst : trimStart (if rest = [] then expandTabs first else dropReturn (expandTabs first))
      = trimStart (if rest = [] then expandStops first else dropReturn (expandStops first)) ↔
      TabsAtStops (columnAfter toStop 0 (first.takeWhile isWhite)) (trimStart first) := by
    split
    · exact trimStart_expandTabs_eq_iff first
    · exact trimStart_dropReturn_expandTabs_eq_iff first
  have hline : ∀ l ∈ rest, isBlank l = false →
      (outdent (margin (rest.map expandTabs)) (expandTabs l)
        = outdent (margin (rest.map expandStops)) (expandStops l) ↔ _) := fun l hl hblank =>
    outdent_expandTabs_eq_iff hblank
      (margin_le_indentation expandTabs hl (by rw [isBlank_expandTabs, hblank]))
      (margin_le_indentation expandStops hl (by rw [expandStops, isBlank_expandFrom, hblank]))
  rw [outdentPieces, outdentPieces, List.cons.injEq, List.map_inj_left, hfirst]
  constructor
  · rintro ⟨hopening, hrest⟩
    exact ⟨hopening, fun l hl hblank => ((hline l hl hblank).mp (hrest l hl)).1,
      fun l hl hblank => ((hline l hl hblank).mp (hrest l hl)).2⟩
  · intro h
    refine ⟨h.opening, fun l hl => ?_⟩
    rcases hblank : isBlank l with _ | _
    · exact (hline l hl hblank).mpr ⟨h.indent l hl hblank, h.text l hl hblank⟩
    · rw [outdent_of_isBlank _ (by rw [isBlank_expandTabs, hblank]),
        outdent_of_isBlank _ (by rw [expandStops, isBlank_expandFrom, hblank])]

theorem clean_eq_clean_expandStops_iff {raw first : List Char} {rest : List (List Char)}
    (hraw : raw.splitOn '\n' = first :: rest) :
    clean raw = clean (expandStops raw) ↔ StopsAgree first rest := by
  have hself : ∀ s, expandTabs (expandStops s) = expandStops s := expandTabs_expandFrom 0
  have htabs : dropBlankEnds (dedent (lines (expandTabs raw)))
      = dropBlankEnds (outdentPieces expandTabs first rest) := by
    rw [dropBlankEnds_dedent hraw, List.map_map]
    rfl
  have hstops : dropBlankEnds (dedent (lines (expandTabs (expandStops raw))))
      = dropBlankEnds (outdentPieces expandStops first rest) := by
    rw [dropBlankEnds_dedent (by rw [splitOn_expandStops, hraw, List.map_cons])]
    simp [hself, outdentPieces, List.map_map, Function.comp_def]
  rw [clean_inj, htabs, hstops, dropBlankEnds_inj (sameBlank_outdentPieces first rest),
    outdentPieces_eq_iff]

/-- **Where eight blanks for a tab are as good as tab stops.** -/
theorem tab_stops_exact (raw : List Char) :
    (expandTabs raw = expandStops raw ↔ TabsAtStops 0 raw) ∧
    ∃ first rest, raw.splitOn '\n' = first :: rest ∧
      (clean raw = clean (expandStops raw) ↔ StopsAgree first rest) := by
  obtain ⟨first, rest, hraw⟩ := List.exists_cons_of_ne_nil (List.splitOn_ne_nil '\n' raw)
  exact ⟨expandTabs_eq_iff 0 raw, first, rest, hraw, clean_eq_clean_expandStops_iff hraw⟩

/-- Two fields with their markers at column eight, the second one behind four blanks and a tab. -/
def mixedIndentation : List Char :=
  "Doc.\n\n        :param x: v.\n    \t:type x: int\n    ".toList

/-- Behind four blanks a tab is four blanks wide.  Taken for eight, it moves the line that it stands
in behind the margin, and the line opens no field. -/
theorem tab_behind_blanks_indents :
    clean mixedIndentation ≠ clean (expandStops mixedIndentation) ∧
    (lines (clean mixedIndentation)).map FieldList.opensField = [false, false, true, false] ∧
    (lines (clean (expandStops mixedIndentation))).map FieldList.opensField
      = [false, false, true, true] := by
  decide +kernel

end DocAudit.Docstring
