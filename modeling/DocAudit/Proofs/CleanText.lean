import DocAudit.Docstring
import DocAudit.Proofs.FieldLines
import DocAudit.Proofs.VisibleText
import Mathlib.Data.List.Forall2

/-!
# Proofs/CleanText — cleaning a docstring takes indentation away and nothing else

Cleaning drops, cuts and joins, but every line of its result is what is left of one line of the
text. `Outdented m` says what may be left of a line in its place: of the first line everything but
the white space in front, of a blank line nothing, of any other line what stands between its first
`m` characters, which are white, and the white space at its end.  `outdented_dedent` finds the lines
of a text in that relation to those of the result, with `m` the margin; blank lines at the ends go,
and the result, cut at line feeds, gives the others back (`shows_clean`).

From the relation alone follows that no character that shows is lost (`visible_clean`).  It does not
say that the margin is forgotten: for that, `clean_of_splitOn` computes the result from the pieces
between line feeds, where a deeper text differs by blanks in front (`Deeper`), which the deeper
margin takes away again (`map_outdent_of_deeper`).
-/

namespace DocAudit.Docstring

open DocAudit.Text

/-! ## Tabs -/

theorem expandTabs_append (s t : List Char) : expandTabs (s ++ t) = expandTabs s ++ expandTabs t :=
  List.flatMap_append

theorem expandTabs_of_notMem {s : List Char} (h : '\t' ∉ s) : expandTabs s = s := by
  induction s with
  | nil => rfl
  | cons c s ih =>
    have hc : c ≠ '\t' := by
      rintro rfl
      exact h List.mem_cons_self
    rw [expandTabs, List.flatMap_cons, if_neg hc, ← expandTabs,
      ih fun hmem => h (List.mem_cons_of_mem c hmem), List.singleton_append]

theorem visible_expandTabs (s : List Char) : visible (expandTabs s) = visible s := by
  induction s with
  | nil => rfl
  | cons c s ih =>
    rw [expandTabs, List.flatMap_cons, visible_append, ← expandTabs, ih]
    by_cases hc : c = '\t'
    · subst hc
      rfl
    · rw [if_neg hc, ← visible_append]
      rfl

/-! ## The margin -/

/-- The least indentation of the lines that are not blank; zero if all are blank. -/
structure IsMargin (ls : List (List Char)) (m : Nat) : Prop where
  le : ∀ l ∈ ls, isBlank l = false → m ≤ indentation l
  attained : (∃ l ∈ ls, isBlank l = false ∧ indentation l = m) ∨
    m = 0 ∧ ∀ l ∈ ls, isBlank l = true

theorem isMargin_margin (ls : List (List Char)) : IsMargin ls (margin ls) := by
  have hmem : ∀ n, n ∈ (ls.filter fun l => !isBlank l).map indentation ↔
      ∃ l ∈ ls, isBlank l = false ∧ indentation l = n := fun n => by
    simp [and_assoc]
  rcases hmin : ((ls.filter fun l => !isBlank l).map indentation).min? with _ | m
  · have hblank : ∀ l ∈ ls, isBlank l = true := by
      simpa using List.min?_eq_none_iff.mp hmin
    refine ⟨fun l hl hne => ?_, .inr ⟨by rw [margin, hmin]; rfl, hblank⟩⟩
    rw [hblank l hl] at hne
    cases hne
  · obtain ⟨hattained, hle⟩ := List.min?_eq_some_iff.mp hmin
    rw [margin, hmin]
    exact ⟨fun l hl hne => hle _ ((hmem _).mpr ⟨l, hl, hne, rfl⟩), .inl ((hmem m).mp hattained)⟩

theorem IsMargin.unique {ls : List (List Char)} {m m' : Nat} (h : IsMargin ls m)
    (h' : IsMargin ls m') : m = m' := by
  rcases h.attained with ⟨l, hl, hne, rfl⟩ | ⟨rfl, hblank⟩
  · rcases h'.attained with ⟨l', hl', hne', rfl⟩ | ⟨-, hblank⟩
    · exact Nat.le_antisymm (h.le l' hl' hne') (h'.le l hl hne)
    · rw [hblank l hl] at hne
      cases hne
  · rcases h'.attained with ⟨l', hl', hne', -⟩ | ⟨rfl, -⟩
    · rw [hblank l' hl'] at hne'
      cases hne'
    · rfl

/-! ## What is left of a line -/

/-- The line without its first `m` characters and without the white space at its end. -/
def outdent (m : Nat) (l : List Char) : List Char :=
  trimEnd (l.drop m)

theorem outdent_of_isBlank (m : Nat) {l : List Char} (h : isBlank l = true) : outdent m l = [] :=
  trimEnd_of_isBlank (isBlank_iff.mpr fun c hc => isBlank_iff.mp h c (List.mem_of_mem_drop hc))

/-- A line, numbered from zero, becomes a line of the result: of the first line goes the white space
in front, and of every other line the margin and the white space at its end. -/
inductive Outdented (m : Nat) : List Char × Nat → List Char → Prop
  | first (l : List Char) : Outdented m (l, 0) (trimStart l)
  | blank {l : List Char} {i : Nat} (h : isBlank l = true) : Outdented m (l, i + 1) []
  | text {indent shown trailing : List Char} {i : Nat} (hlength : indent.length = m)
      (hindent : isBlank indent = true) (htrailing : isBlank trailing = true)
      (hend : ∃ c ∈ shown.getLast?, isWhite c = false) :
      Outdented m (indent ++ shown ++ trailing, i + 1) shown

theorem outdented_outdent {m : Nat} {l : List Char} (h : isBlank l = false → m ≤ indentation l)
    (i : Nat) : Outdented m (l, i + 1) (outdent m l) := by
  rcases hl : isBlank l with _ | _
  · have hm := h hl
    obtain ⟨v, hv, hdrop⟩ := exists_trimEnd_append (l.drop m)
    have hsplit : l = l.take m ++ outdent m l ++ v := by
      conv_lhs => rw [← List.take_append_drop m l, hdrop]
      rw [outdent, List.append_assoc]
    have hlength : (l.take m).length = m :=
      List.length_take_of_le (Nat.le_trans hm (indentation_le_length l))
    have hend := exists_getLast?_trimEnd ((isBlank_drop hm).trans hl)
    have htext := Outdented.text (i := i) hlength (isBlank_take_indentation hm) hv hend
    rwa [← outdent, ← hsplit] at htext
  · rw [outdent_of_isBlank m hl]
    exact .blank hl

theorem visible_of_outdented {m : Nat} {line : List Char × Nat} {shown : List Char}
    (h : Outdented m line shown) : visible shown = visible line.1 := by
  cases h with
  | first l => exact visible_trimStart l
  | blank hl => exact (visible_eq_nil_iff.mpr hl).symm
  | text hlength hindent htrailing hend =>
    rw [visible_append_blank _ htrailing, visible_blank_append hindent]

/-- A line shows something exactly if what is left of it does. -/
theorem isBlank_of_outdented {m : Nat} {line : List Char × Nat} {shown : List Char}
    (h : Outdented m line shown) : isBlank shown = isBlank line.1 := by
  rw [Bool.eq_iff_iff, ← visible_eq_nil_iff, ← visible_eq_nil_iff, visible_of_outdented h]

theorem outdented_dedent (ls : List (List Char)) :
    List.Forall₂ (Outdented (margin ls.tail)) ls.zipIdx (dedent ls) := by
  rcases ls with _ | ⟨first, rest⟩
  · exact .nil
  · have hrest : ∀ i, ∀ ls : List (List Char), (∀ l ∈ ls, l ∈ rest) →
        List.Forall₂ (Outdented (margin rest)) (ls.zipIdx (i + 1))
          (ls.map (outdent (margin rest))) := by
      intro i ls
      induction ls generalizing i with
      | nil => exact fun _ => .nil
      | cons l ls ih =>
        intro hls
        refine .cons (outdented_outdent ?_ i) (ih (i + 1) fun l' hl' => hls l' (by simp [hl']))
        exact (isMargin_margin rest).le l (hls l (by simp))
    exact .cons (.first first) (hrest 0 rest fun _ => id)

/-! ## Blank lines at the ends -/

theorem exists_dropBlankEnds (ls : List (List Char)) :
    ∃ above below, (∀ l ∈ above, isBlank l = true) ∧ (∀ l ∈ below, isBlank l = true) ∧
      ls = above ++ dropBlankEnds ls ++ below := by
  refine ⟨ls.takeWhile isBlank, ((ls.dropWhile isBlank).reverse.takeWhile isBlank).reverse,
    fun l hl => List.mem_takeWhile_imp hl, fun l hl => ?_, ?_⟩
  · exact List.mem_takeWhile_imp (List.mem_reverse.mp hl)
  · rw [dropBlankEnds, List.append_assoc, ← List.reverse_append, List.takeWhile_append_dropWhile,
      List.reverse_reverse, List.takeWhile_append_dropWhile]

theorem dropBlankEnds_of_forall {ls : List (List Char)} (h : ∀ l ∈ ls, isBlank l = true) :
    dropBlankEnds ls = [] := by
  rw [dropBlankEnds, List.dropWhile_eq_nil_iff.mpr h]
  rfl

theorem head?_dropBlankEnds {ls : List (List Char)} (h : dropBlankEnds ls ≠ []) :
    ∃ l ∈ (dropBlankEnds ls).head?, isBlank l = false := by
  obtain ⟨l, rest, hcons⟩ := List.exists_cons_of_ne_nil h
  obtain ⟨below, hbelow⟩ : dropBlankEnds ls <+: ls.dropWhile isBlank :=
    List.reverse_suffix.mp (by simpa [dropBlankEnds] using List.dropWhile_suffix isBlank)
  have hhead := List.head?_dropWhile_not isBlank ls
  rw [← hbelow, hcons] at hhead
  exact ⟨l, by rw [hcons]; rfl, by simpa using hhead⟩

theorem getLast?_dropBlankEnds {ls : List (List Char)} (h : dropBlankEnds ls ≠ []) :
    ∃ l ∈ (dropBlankEnds ls).getLast?, isBlank l = false := by
  have hne : (ls.dropWhile isBlank).reverse.dropWhile isBlank ≠ [] := fun hnil =>
    h (by rw [dropBlankEnds, hnil]; rfl)
  obtain ⟨l, rest, hcons⟩ := List.exists_cons_of_ne_nil hne
  have hhead := List.head?_dropWhile_not isBlank (ls.dropWhile isBlank).reverse
  rw [hcons] at hhead
  exact ⟨l, by simp [dropBlankEnds, hcons], by simpa using hhead⟩

/-! ## The result as a whole -/

theorem newline_notMem_of_mem_lines {s l : List Char} (h : l ∈ lines s) : '\n' ∉ l := by
  obtain ⟨piece, hpiece, rfl | rfl⟩ := FieldList.mem_closedLines h
  · exact newline_notMem_of_mem_splitOn hpiece
  · intro hmem
    unfold dropReturn at hmem
    split at hmem
    · exact newline_notMem_of_mem_splitOn hpiece (List.dropLast_subset _ hmem)
    · exact newline_notMem_of_mem_splitOn hpiece hmem

theorem newline_notMem_of_mem_dedent {s l : List Char} (h : l ∈ dedent (lines s)) :
    '\n' ∉ l := by
  have hlines : ∀ l ∈ lines s, '\n' ∉ l := fun l => newline_notMem_of_mem_lines
  rcases hls : lines s with _ | ⟨first, rest⟩ <;> rw [hls] at h hlines
  · exact absurd h List.not_mem_nil
  · rcases List.mem_cons.mp h with rfl | h
    · intro hmem
      exact hlines first List.mem_cons_self ((List.dropWhile_suffix isWhite).subset hmem)
    · obtain ⟨line, hline, rfl⟩ := List.mem_map.mp h
      intro hmem
      obtain ⟨v, -, hdrop⟩ := exists_trimEnd_append (line.drop (margin rest))
      have hin : '\n' ∈ line.drop (margin rest) := by
        rw [hdrop]
        exact List.mem_append_left v hmem
      exact hlines line (List.mem_cons_of_mem first hline) (List.mem_of_mem_drop hin)

theorem flatMap_visible_of_outdented {m : Nat} {ls : List (List Char × Nat)}
    {shown : List (List Char)} (h : List.Forall₂ (Outdented m) ls shown) :
    shown.flatMap visible = (ls.map Prod.fst).flatMap visible := by
  induction h with
  | nil => rfl
  | cons hline _ ih =>
    rw [List.map_cons, List.flatMap_cons, List.flatMap_cons, ih, visible_of_outdented hline]

theorem visible_dedent (ls : List (List Char)) :
    (dedent ls).flatMap visible = ls.flatMap visible := by
  rw [flatMap_visible_of_outdented (outdented_dedent ls), List.zipIdx_map_fst]

theorem visible_dropBlankEnds (ls : List (List Char)) :
    (dropBlankEnds ls).flatMap visible = ls.flatMap visible := by
  obtain ⟨above, below, habove, hbelow, hls⟩ := exists_dropBlankEnds ls
  have hnone : ∀ {blank : List (List Char)}, (∀ l ∈ blank, isBlank l = true) →
      blank.flatMap visible = [] := fun h =>
    List.flatMap_eq_nil_iff.mpr fun l hl => visible_eq_nil_iff.mpr (h l hl)
  conv_rhs => rw [hls, List.flatMap_append, List.flatMap_append, hnone habove, hnone hbelow]
  simp

/-- **Cleaning changes no character that shows.** -/
theorem visible_clean (raw : List Char) : visible (clean raw) = visible raw := by
  rw [clean, visible_unlines, visible_dropBlankEnds, visible_dedent, visible_lines,
    visible_expandTabs]

theorem clean_eq_nil_iff {raw : List Char} : clean raw = [] ↔ isBlank raw = true := by
  rw [← visible_eq_nil_iff]
  constructor
  · intro h
    rw [← visible_clean, h]
    rfl
  · intro h
    have hblank : ∀ l ∈ dedent (lines (expandTabs raw)), isBlank l = true := by
      rw [← visible_expandTabs, ← visible_lines, ← visible_dedent, List.flatMap_eq_nil_iff] at h
      exact fun l hl => visible_eq_nil_iff.mp (h l hl)
    rw [clean, dropBlankEnds_of_forall hblank]
    rfl

theorem exists_append_of_forall₂ {α β : Type} {R : α → β → Prop} {as : List α} {bs cs : List β}
    (h : List.Forall₂ R as (bs ++ cs)) :
    ∃ front back, as = front ++ back ∧ List.Forall₂ R front bs ∧ List.Forall₂ R back cs :=
  ⟨as.take bs.length, as.drop bs.length, (List.take_append_drop bs.length as).symm,
    List.forall₂_take_append as bs cs h, List.forall₂_drop_append as bs cs h⟩

theorem exists_related {α β : Type} {R : α → β → Prop} {as : List α} {bs : List β}
    (h : List.Forall₂ R as bs) {a : α} (ha : a ∈ as) : ∃ b ∈ bs, R a b := by
  induction h with
  | nil => cases ha
  | @cons a' b as bs hab _ ih =>
    rcases List.mem_cons.mp ha with rfl | ha
    · exact ⟨b, List.mem_cons_self, hab⟩
    · obtain ⟨b', hb', hrel⟩ := ih ha
      exact ⟨b', List.mem_cons_of_mem b hb', hrel⟩

theorem isBlank_of_forall₂ {m : Nat} {ls : List (List Char × Nat)} {shown : List (List Char)}
    (h : List.Forall₂ (Outdented m) ls shown) (hshown : ∀ l ∈ shown, isBlank l = true) :
    ∀ line ∈ ls, isBlank line.1 = true := by
  intro line hline
  obtain ⟨l, hl, houtdented⟩ := exists_related h hline
  rw [← isBlank_of_outdented houtdented, hshown l hl]

theorem splitOn_clean {raw : List Char}
    (hne : dropBlankEnds (dedent (lines (expandTabs raw))) ≠ []) :
    (clean raw).splitOn '\n' = dropBlankEnds (dedent (lines (expandTabs raw))) := by
  refine List.splitOn_intercalate '\n' (fun l hl => ?_) hne
  refine newline_notMem_of_mem_dedent (s := expandTabs raw) ?_
  obtain ⟨above, below, -, -, hparts⟩ := exists_dropBlankEnds (dedent (lines (expandTabs raw)))
  rw [hparts]
  simp [hl]

theorem dropBlankEnds_dedent_eq_nil_iff {raw : List Char} :
    dropBlankEnds (dedent (lines (expandTabs raw))) = [] ↔ clean raw = [] := by
  refine ⟨fun h => by rw [clean, h]; rfl, fun h => ?_⟩
  by_contra hne
  obtain ⟨l, hl, hshows⟩ := head?_dropBlankEnds hne
  rw [← splitOn_clean hne, h] at hl
  cases hl
  cases hshows

/-- The result determines the lines that are kept. -/
theorem clean_inj {raw raw' : List Char} :
    clean raw = clean raw' ↔ dropBlankEnds (dedent (lines (expandTabs raw)))
      = dropBlankEnds (dedent (lines (expandTabs raw'))) := by
  refine ⟨fun h => ?_, congrArg unlines⟩
  by_cases hnil : clean raw = []
  · rw [dropBlankEnds_dedent_eq_nil_iff.mpr hnil,
      dropBlankEnds_dedent_eq_nil_iff.mpr (h.symm.trans hnil)]
  · have hne := mt dropBlankEnds_dedent_eq_nil_iff.mp hnil
    have hne' := mt dropBlankEnds_dedent_eq_nil_iff.mp (h ▸ hnil)
    rw [← splitOn_clean hne, ← splitOn_clean hne', h]

/-- The lines `shown` are what is left of the numbered lines: blank lines at either end are gone,
and each line between them has become the line of `shown` in its place. -/
structure Shows (m : Nat) (ls : List (List Char × Nat)) (shown : List (List Char)) : Prop where
  lines : ∃ above kept below, ls = above ++ kept ++ below ∧
    (∀ line ∈ above ++ below, isBlank line.1 = true) ∧ List.Forall₂ (Outdented m) kept shown
  head : ∃ l ∈ shown.head?, isBlank l = false
  last : ∃ l ∈ shown.getLast?, isBlank l = false

/-- The lines of the result are what is left of the lines between the first and the last one that is
not blank. -/
theorem shows_clean {raw : List Char} (h : isBlank raw = false) :
    Shows (margin (lines (expandTabs raw)).tail) (lines (expandTabs raw)).zipIdx
      ((clean raw).splitOn '\n') := by
  generalize hls : lines (expandTabs raw) = ls
  have hne : dropBlankEnds (dedent ls) ≠ [] := by
    rw [← hls, Ne, dropBlankEnds_dedent_eq_nil_iff, clean_eq_nil_iff, h]
    exact Bool.false_ne_true
  obtain ⟨above, below, habove, hbelow, hparts⟩ := exists_dropBlankEnds (dedent ls)
  have hshown : (clean raw).splitOn '\n' = dropBlankEnds (dedent ls) := by
    rw [← hls]
    exact splitOn_clean (by rwa [hls])
  have hforall := outdented_dedent ls
  rw [hparts] at hforall
  obtain ⟨front, below', hlines, hfront, hbelow'⟩ := exists_append_of_forall₂ hforall
  obtain ⟨above', kept, rfl, habove', hkept⟩ := exists_append_of_forall₂ hfront
  rw [hshown]
  refine ⟨⟨above', kept, below', hlines, fun line hline => ?_, hkept⟩,
    head?_dropBlankEnds hne, getLast?_dropBlankEnds hne⟩
  rcases List.mem_append.mp hline with hline | hline
  · exact isBlank_of_forall₂ habove' habove line hline
  · exact isBlank_of_forall₂ hbelow' hbelow line hline

/-! ## Depth -/

/-- A line after the first of two texts, where the code around the second one stands `k` blanks
deeper: blanks come in front of a line with text, and what is in a blank line does not matter. -/
inductive Deeper (k : Nat) : List Char → List Char → Prop
  | text {l : List Char} (h : isBlank l = false) : Deeper k l (List.replicate k ' ' ++ l)
  | blank {l l' : List Char} (h : isBlank l = true) (h' : isBlank l' = true) : Deeper k l l'

/-- What rewrites a text line by line rewrites the pieces between its line feeds. -/
theorem splitOn_of_append {f : List Char → List Char}
    (happend : ∀ l t, f (l ++ '\n' :: t) = f l ++ '\n' :: f t)
    (hfree : ∀ l, '\n' ∉ l → '\n' ∉ f l) (s : List Char) :
    (f s).splitOn '\n' = (s.splitOn '\n').map f := by
  have hunlines : ∀ ls : List (List Char), ls ≠ [] → f (unlines ls) = unlines (ls.map f) :=
    fun ls => by
      induction ls with
      | nil => exact fun h => absurd rfl h
      | cons l ls ih =>
        intro _
        by_cases hne : ls = []
        · subst hne
          simp [unlines]
        · rw [unlines, List.intercalate_cons_of_ne_nil hne, ← unlines, List.append_assoc,
            List.singleton_append, happend, ih hne, List.map_cons, unlines, unlines,
            List.intercalate_cons_of_ne_nil (by simpa using hne), List.append_assoc,
            List.singleton_append]
  have hs : unlines (s.splitOn '\n') = s := List.intercalate_splitOn '\n'
  conv_lhs => rw [← hs, hunlines _ (List.splitOn_ne_nil '\n' s), unlines]
  refine List.splitOn_intercalate '\n' (fun l hl => ?_) (by simp)
  obtain ⟨piece, hpiece, rfl⟩ := List.mem_map.mp hl
  exact hfree piece (newline_notMem_of_mem_splitOn hpiece)

theorem splitOn_expandTabs (s : List Char) :
    (expandTabs s).splitOn '\n' = (s.splitOn '\n').map expandTabs := by
  refine splitOn_of_append (fun l t => ?_) (fun l hl hmem => ?_) s
  · rw [expandTabs_append]
    rfl
  · obtain ⟨c, hc, hin⟩ := List.mem_flatMap.mp hmem
    split at hin
    · exact absurd (List.eq_of_mem_replicate hin) (by decide)
    · rw [← List.mem_singleton.mp hin] at hc
      exact hl hc

theorem isBlank_expandTabs (s : List Char) : isBlank (expandTabs s) = isBlank s := by
  rw [Bool.eq_iff_iff, ← visible_eq_nil_iff, ← visible_eq_nil_iff, visible_expandTabs]

theorem isBlank_replicate (k : Nat) : isBlank (List.replicate k ' ') = true :=
  isBlank_iff.mpr fun _ hc => List.eq_of_mem_replicate hc ▸ rfl

theorem deeper_expandTabs {k : Nat} {l l' : List Char} (h : Deeper k l l') :
    Deeper k (expandTabs l) (expandTabs l') := by
  cases h with
  | text h =>
    have hblanks : expandTabs (List.replicate k ' ') = List.replicate k ' ' :=
      expandTabs_of_notMem fun hmem => absurd (List.eq_of_mem_replicate hmem) (by decide)
    rw [expandTabs_append, hblanks]
    exact .text (by rw [isBlank_expandTabs, h])
  | blank h h' => exact .blank (by rw [isBlank_expandTabs, h]) (by rw [isBlank_expandTabs, h'])

theorem isBlank_of_deeper {k : Nat} {l l' : List Char} (h : Deeper k l l') :
    isBlank l' = isBlank l := by
  cases h with
  | text h =>
    rw [Bool.eq_iff_iff, isBlank_append, and_iff_right (isBlank_replicate k)]
  | blank h h' => rw [h, h']

theorem indentation_of_deeper {k : Nat} {l l' : List Char} (h : Deeper k l l')
    (hl : isBlank l = false) : indentation l' = indentation l + k := by
  cases h with
  | text =>
    rw [indentation_append_left (isBlank_replicate k), List.length_replicate, Nat.add_comm]
  | blank h =>
    rw [h] at hl
    cases hl

theorem outdent_of_deeper {k m : Nat} {l l' : List Char} (h : Deeper k l l') :
    outdent (m + k) l' = outdent m l := by
  cases h with
  | text => rw [outdent, outdent, List.drop_append, List.length_replicate]; simp
  | blank h h' => rw [outdent_of_isBlank _ h, outdent_of_isBlank _ h']

theorem isMargin_of_deeper {k m : Nat} {ls ls' : List (List Char)}
    (h : List.Forall₂ (Deeper k) ls ls') (hm : IsMargin ls m)
    (hne : ∃ l ∈ ls, isBlank l = false) : IsMargin ls' (m + k) := by
  constructor
  · intro l' hl' hblank
    obtain ⟨l, hl, hdeeper⟩ := exists_related h.flip hl'
    rw [isBlank_of_deeper hdeeper] at hblank
    rw [indentation_of_deeper hdeeper hblank]
    exact Nat.add_le_add_right (hm.le l hl hblank) k
  · rcases hm.attained with ⟨l, hl, hblank, rfl⟩ | ⟨-, hall⟩
    · obtain ⟨l', hl', hdeeper⟩ := exists_related h hl
      exact .inl ⟨l', hl', by rw [isBlank_of_deeper hdeeper, hblank],
        indentation_of_deeper hdeeper hblank⟩
    · obtain ⟨l, hl, hblank⟩ := hne
      rw [hall l hl] at hblank
      cases hblank

/-- Nothing is left of the depth at which the code around the lines stands. -/
theorem map_outdent_of_deeper {k : Nat} {ls ls' : List (List Char)}
    (h : List.Forall₂ (Deeper k) ls ls') :
    ls'.map (outdent (margin ls')) = ls.map (outdent (margin ls)) := by
  have hsame :
      List.Forall₂ (fun l l' => outdent (margin ls) l = outdent (margin ls') l') ls ls' := by
    by_cases hne : ∃ l ∈ ls, isBlank l = false
    · have hmargin : margin ls' = margin ls + k :=
        (isMargin_margin ls').unique (isMargin_of_deeper h (isMargin_margin ls) hne)
      rw [hmargin]
      exact h.imp fun l l' hdeeper => (outdent_of_deeper hdeeper).symm
    · have hblank : ∀ l ∈ ls, isBlank l = true := by simpa using hne
      refine ((List.forall₂_and_left ls ls').mpr ⟨hblank, h⟩).imp fun l l' ⟨hl, hdeeper⟩ => ?_
      rw [outdent_of_isBlank _ hl, outdent_of_isBlank _ (by rw [isBlank_of_deeper hdeeper, hl])]
  have hmap := List.forall₂_map_left_iff.mpr (List.forall₂_map_right_iff.mpr hsame)
  rw [List.forall₂_eq_eq_eq] at hmap
  exact hmap.symm

/-! ## Line ends -/

theorem outdent_dropReturn {m : Nat} {l : List Char} (h : isBlank l = false → m ≤ indentation l) :
    outdent m (dropReturn l) = outdent m l := by
  rcases hl : isBlank l with _ | _
  · obtain ⟨v, hv, hsplit⟩ := exists_dropReturn_append l
    have hm : m ≤ (dropReturn l).length := by
      rw [← indentation_dropReturn hl] at h
      exact Nat.le_trans (h hl) (indentation_le_length _)
    conv_rhs => rw [hsplit, outdent, List.drop_append_of_le_length hm, trimEnd_append_right _ hv]
    rfl
  · rw [outdent_of_isBlank m hl, outdent_of_isBlank m (by rw [isBlank_dropReturn, hl])]

theorem margin_closedLines (ls : List (List Char)) : margin (closedLines ls) = margin ls := by
  have hsame : ((closedLines ls).filter fun l => !isBlank l).map indentation
      = (ls.filter fun l => !isBlank l).map indentation := by
    fun_induction closedLines ls with
    | case1 => rfl
    | case2 rest h => rw [List.isEmpty_iff.mp h]; rfl
    | case3 => rfl
    | case4 piece pieces _ ih =>
      rw [List.filter_cons, List.filter_cons, isBlank_dropReturn]
      rcases hpiece : isBlank piece with _ | _
      · simpa [indentation_dropReturn hpiece] using ih
      · simpa using ih
  rw [margin, margin, hsame]

theorem map_outdent_closedLines {m : Nat} {ls : List (List Char)}
    (h : ∀ l ∈ ls, isBlank l = false → m ≤ indentation l) :
    ∃ below, (∀ l ∈ below, isBlank l = true) ∧
      ls.map (outdent m) = (closedLines ls).map (outdent m) ++ below := by
  fun_induction closedLines ls with
  | case1 => exact ⟨[], by simp, rfl⟩
  | case2 rest hrest =>
    rw [List.isEmpty_iff.mp hrest]
    exact ⟨[[]], by simp [isBlank], by simpa using outdent_of_isBlank m rfl⟩
  | case3 rest => exact ⟨[], by simp, (List.append_nil _).symm⟩
  | case4 piece pieces _ ih =>
    rw [List.forall_mem_cons] at h
    obtain ⟨below, hbelow, hpieces⟩ := ih h.2
    refine ⟨below, hbelow, ?_⟩
    rw [List.map_cons, hpieces, List.map_cons, outdent_dropReturn h.1, List.cons_append]

theorem dropBlankEnds_append {below : List (List Char)} (h : ∀ l ∈ below, isBlank l = true)
    (ls : List (List Char)) : dropBlankEnds (ls ++ below) = dropBlankEnds ls := by
  unfold dropBlankEnds
  by_cases hls : ls.dropWhile isBlank = []
  · rw [List.dropWhile_append, hls]
    rw [List.dropWhile_eq_nil_iff.mpr h]
    rfl
  · rw [List.dropWhile_append, if_neg (by simpa using hls), List.reverse_append,
      List.dropWhile_append_of_pos fun l hl => h l (List.mem_reverse.mp hl)]

/-- The lines that are kept, from the pieces between line feeds — only for the first one the line
end counts, and only if there are others. -/
theorem dropBlankEnds_dedent {raw first : List Char} {rest : List (List Char)}
    (h : raw.splitOn '\n' = first :: rest) :
    dropBlankEnds (dedent (lines (expandTabs raw))) = dropBlankEnds
      (trimStart (if rest = [] then expandTabs first else dropReturn (expandTabs first)) ::
        (rest.map expandTabs).map (outdent (margin (rest.map expandTabs)))) := by
  rw [lines, splitOn_expandTabs, h]
  rcases rest with _ | ⟨next, rest⟩
  · -- no line feed closes a single piece, so a carriage return at its end is text
    simp only [List.map_cons, List.map_nil, closedLines, if_true]
    split
    · rename_i hempty
      rw [List.isEmpty_iff.mp hempty]
      rfl
    · rfl
  · rw [List.map_cons, if_neg (by simp)]
    generalize hpieces : (next :: rest).map expandTabs = pieces
    have hne : pieces ≠ [] := by
      rintro rfl
      cases hpieces
    have hclosed : closedLines (expandTabs first :: pieces)
        = dropReturn (expandTabs first) :: closedLines pieces :=
      FieldList.closedLines_append [expandTabs first] hne
    obtain ⟨below, hbelow, hmap⟩ := map_outdent_closedLines (isMargin_margin pieces).le
    rw [hclosed, hmap, ← List.cons_append, dropBlankEnds_append hbelow, dedent, margin_closedLines]
    rfl

/-- **The result from the pieces between line feeds.** -/
theorem clean_of_splitOn {raw first : List Char} {rest : List (List Char)}
    (h : raw.splitOn '\n' = first :: rest) :
    clean raw = unlines (dropBlankEnds
      (trimStart (if rest = [] then expandTabs first else dropReturn (expandTabs first)) ::
        (rest.map expandTabs).map (outdent (margin (rest.map expandTabs))))) := by
  rw [clean, dropBlankEnds_dedent h]

/-- The second text differs from the first in the depth of the code around it alone: behind the
first line, every line with text has `k` more blanks in front, and blank lines may hold any white
space. -/
def IsDeeper (k : Nat) (raw raw' : List Char) : Prop :=
  ∃ first rest rest', raw.splitOn '\n' = first :: rest ∧ raw'.splitOn '\n' = first :: rest' ∧
    List.Forall₂ (Deeper k) rest rest'

/-- **The depth of the code around it leaves no trace in a docstring.** -/
theorem clean_of_isDeeper {k : Nat} {raw raw' : List Char} (h : IsDeeper k raw raw') :
    clean raw' = clean raw := by
  obtain ⟨first, rest, rest', hraw, hraw', hrest⟩ := h
  have hexpand : List.Forall₂ (Deeper k) (rest.map expandTabs) (rest'.map expandTabs) :=
    List.forall₂_map_left_iff.mpr (List.forall₂_map_right_iff.mpr
      (hrest.imp fun _ _ => deeper_expandTabs))
  have hnil : rest' = [] ↔ rest = [] := by
    rw [← List.length_eq_zero_iff, ← hrest.length_eq, List.length_eq_zero_iff]
  rw [clean_of_splitOn hraw, clean_of_splitOn hraw', map_outdent_of_deeper hexpand]
  simp only [hnil]

/-- **Cleaning removes the margin and blank ends, and nothing else.** -/
theorem clean_exact (raw : List Char) :
    ∃ m, IsMargin (lines (expandTabs raw)).tail m ∧
      visible (clean raw) = visible raw ∧
      (clean raw = [] ↔ isBlank raw = true) ∧
      (isBlank raw = false →
        Shows m (lines (expandTabs raw)).zipIdx ((clean raw).splitOn '\n')) ∧
      ∀ k raw', IsDeeper k raw raw' → clean raw' = clean raw :=
  ⟨_, isMargin_margin _, visible_clean raw, clean_eq_nil_iff, shows_clean,
    fun _ _ => clean_of_isDeeper⟩

/-- A field whose body goes on in a deeper line, and the same two blanks further in. -/
theorem clean_exact_of_field :
    (∃ m, Shows m (lines (expandTabs "\n  :param x: a\n\n    b".toList)).zipIdx
      ((clean "\n  :param x: a\n\n    b".toList).splitOn '\n')) ∧
    clean "\n    :param x: a\n \n      b".toList = clean "\n  :param x: a\n\n    b".toList := by
  obtain ⟨m, -, -, -, hshows, hdeeper⟩ := clean_exact "\n  :param x: a\n\n    b".toList
  refine ⟨⟨m, hshows (by decide)⟩, hdeeper 2 _ ⟨[], _, _, rfl, rfl, ?_⟩⟩
  exact .cons (.text (by decide)) (.cons (.blank (by decide) (by decide))
    (.cons (.text (by decide)) .nil))

end DocAudit.Docstring
