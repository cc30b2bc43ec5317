import DocAudit.Proofs.CleanText
import DocAudit.Proofs.FieldGrammar

/-!
# Proofs/FieldStarts — the lines of a raw docstring that start its fields

A docstring is cut into lines twice: cleaning cuts the raw text, takes the margin away and joins the
lines, and reading the fields cuts the result again and looks at the first column.  `startsField`
says of a line of the raw text, with its number, what both together come to: a colon is the first of
it that shows, and it is the first line or stands exactly at the margin.

Two facts make the two agree.  Reading does not depend on how lines end or on blank lines around
them (`flatMap_fields_of_readsAs`, `flatMap_fields_append_blank`), so joining and cutting again
changes no field (`parse_clean`).  And what cleaning leaves of a line opens a field exactly if the
line starts one, with the same text behind (`outdentAt_reads`).  Hence the fields of the cleaned
text are those of the blocks that lines of the raw text start (`parse_clean_eq_flatMap`), and each
block has one field beside the type inside its marker.
-/

namespace DocAudit.FieldList

open DocAudit.Text

/-! ## What a block depends on -/

/-- White space behind an opening line follows its body. -/
theorem marker?_append_blank {line : List Char} (hne : line ≠ []) {v : List Char}
    (hv : isBlank v = true) :
    marker? (line ++ v) = (marker? line).map fun found => (found.1, found.2 ++ v) := by
  have hpass : ∀ c ∈ v, (c != ':') = true := fun c hc => by
    rw [bne_iff_ne]
    rintro rfl
    exact absurd (isBlank_iff.mp hv _ hc) (by decide)
  obtain ⟨c, inner, rfl⟩ := List.exists_cons_of_ne_nil hne
  simp only [marker?, List.cons_append, List.drop_one, List.tail_cons, List.dropWhile_append,
    List.takeWhile_append]
  rcases hrest : inner.dropWhile (· != ':') with _ | ⟨d, body⟩
  · rw [List.dropWhile_eq_nil_iff.mpr hpass]
    simp
  · have hshort : (inner.takeWhile (· != ':')).length ≠ inner.length := by
      intro heq
      have hall := (List.takeWhile_sublist (p := (· != ':')) (l := inner)).eq_of_length heq
      have hsplit := List.takeWhile_append_dropWhile (p := (· != ':')) (l := inner)
      rw [hall, hrest] at hsplit
      simp at hsplit
    simp [hshort]

theorem fields_append_blank {line : List Char} (hopen : opensField line = true) {v : List Char}
    (hv : isBlank v = true) (continuation : List (List Char)) :
    Block.fields ⟨line ++ v, continuation⟩ = Block.fields ⟨line, continuation⟩ := by
  have hne : line ≠ [] := by
    rintro rfl
    cases hopen
  simp only [Block.fields, marker?_append_blank hne hv, trimEnd_append_right line hv]
  rcases marker? line with _ | ⟨marker, body⟩
  · rfl
  · have hbody : joinBody ((body ++ v) :: continuation) = joinBody (body :: continuation) := by
      rw [joinBody, joinBody, List.map_cons, List.map_cons, trim_append_right body hv]
    simp only [Option.map_some]
    rcases words marker with _ | ⟨name, args⟩
    · rfl
    · simp only [Block.fieldsOf, hbody]

/-- White space behind a line does not decide whether it opens a field. -/
theorem opensField_append_blank (line : List Char) {v : List Char} (hv : isBlank v = true) :
    opensField (line ++ v) = opensField line := by
  rcases line with _ | ⟨c, line⟩
  · rcases v with _ | ⟨c, v⟩
    · rfl
    · have hc : c ≠ ':' := by
        rintro rfl
        exact absurd (isBlank_iff.mp hv ':' List.mem_cons_self) (by decide)
      simpa [opensField] using hc
  · rfl

theorem opensField_trimEnd (line : List Char) : opensField (trimEnd line) = opensField line := by
  obtain ⟨v, hv, hline⟩ := exists_trimEnd_append line
  conv_rhs => rw [hline, opensField_append_blank _ hv]

theorem not_opensField_of_isBlank {line : List Char} (h : isBlank line = true) :
    opensField line = false :=
  opensField_append_blank [] h

theorem trim_of_opensField {line : List Char} (h : opensField line = true) :
    trim line = trimEnd line := by
  obtain ⟨inner, rfl⟩ := eq_cons_of_opensField h
  rfl

theorem fields_trim {line : List Char} (hopen : opensField line = true)
    (continuation : List (List Char)) :
    Block.fields ⟨trim line, continuation⟩ = Block.fields ⟨line, continuation⟩ := by
  obtain ⟨v, hv, hline⟩ := exists_trimEnd_append line
  have hopen' : opensField (trimEnd line) = true := by rw [opensField_trimEnd, hopen]
  conv_rhs => rw [hline, fields_append_blank hopen' hv]
  rw [trim_of_opensField hopen]

/-- The pieces of text among the lines: what of them the body of a field is made of. -/
def pieces (ls : List (List Char)) : List (List Char) :=
  (ls.map trim).filter fun piece => !piece.isEmpty

theorem pieces_append (ls ls' : List (List Char)) :
    pieces (ls ++ ls') = pieces ls ++ pieces ls' := by
  rw [pieces, List.map_append, List.filter_append, pieces, pieces]

theorem pieces_of_isBlank {ls : List (List Char)} (h : ∀ l ∈ ls, isBlank l = true) :
    pieces ls = [] := by
  simp only [pieces, List.filter_eq_nil_iff, List.mem_map]
  rintro _ ⟨l, hl, rfl⟩
  simp [trim_eq_nil_iff.mpr (h l hl)]

theorem pieces_cons_congr {l l' : List Char} {ls ls' : List (List Char)} (h : trim l = trim l')
    (hs : pieces ls = pieces ls') : pieces (l :: ls) = pieces (l' :: ls') := by
  unfold pieces at hs ⊢
  rw [List.map_cons, List.map_cons, List.filter_cons, List.filter_cons, h, hs]

theorem pieces_takeWhile_congr {p q : List Char → Bool} {ls ls' : List (List Char)}
    (h : List.Forall₂ (fun l l' => p l = q l' ∧ trim l = trim l') ls ls') :
    pieces (ls.takeWhile p) = pieces (ls'.takeWhile q) := by
  induction h with
  | nil => rfl
  | cons hl _ ih =>
    rw [List.takeWhile_cons, List.takeWhile_cons, hl.1]
    split
    · exact pieces_cons_congr hl.2 ih
    · rfl

theorem fields_of_pieces {line : List Char} {ls ls' : List (List Char)}
    (h : pieces ls = pieces ls') :
    Block.fields ⟨line, ls⟩ = Block.fields ⟨line, ls'⟩ := by
  have hbody : ∀ body, joinBody (body :: ls) = joinBody (body :: ls') := fun body =>
    congrArg unwords (pieces_cons_congr rfl h)
  simp only [Block.fields, Block.fieldsOf, hbody]

/-! ## Lines that read the same -/

/-- The two lines open a field or not alike, and have the same text between blank ends. -/
def ReadsAs (l l' : List Char) : Prop :=
  opensField l = opensField l' ∧ trim l = trim l'

theorem flatMap_fields_of_readsAs {ls ls' : List (List Char)} (h : List.Forall₂ ReadsAs ls ls') :
    (blocks ls).flatMap Block.fields = (blocks ls').flatMap Block.fields := by
  induction h with
  | nil => rfl
  | @cons l l' ls ls' hl hls ih =>
    rw [blocks, blocks, hl.1]
    split
    · rename_i hopen
      have hpieces : pieces (ls.takeWhile fun l => !opensField l) =
          pieces (ls'.takeWhile fun l => !opensField l) :=
        pieces_takeWhile_congr (hls.imp fun _ _ h => ⟨congrArg (!·) h.1, h.2⟩)
      rw [List.flatMap_cons, List.flatMap_cons, ih, ← fields_trim hopen,
        ← fields_trim (hl.1.trans hopen), hl.2, fields_of_pieces hpieces]
    · exact ih

theorem flatMap_fields_append_blank {below : List (List Char)}
    (h : ∀ l ∈ below, isBlank l = true) (ls : List (List Char)) :
    (blocks (ls ++ below)).flatMap Block.fields = (blocks ls).flatMap Block.fields := by
  have hclosed : ∀ l ∈ below, opensField l = false := fun l hl => not_opensField_of_isBlank (h l hl)
  induction ls with
  | nil => rw [List.nil_append, blocks_eq_nil hclosed]; rfl
  | cons line ls ih =>
    rw [List.cons_append, blocks, blocks]
    split
    · have hpieces : pieces ((ls ++ below).takeWhile fun l => !opensField l)
          = pieces (ls.takeWhile fun l => !opensField l) := by
        rw [List.takeWhile_append]
        split
        · rename_i hlength
          rw [List.takeWhile_eq_self_iff.mpr fun l hl => by simp [hclosed l hl], pieces_append,
            pieces_of_isBlank h, List.append_nil,
            (List.takeWhile_sublist _).eq_of_length hlength]
        · rfl
      rw [List.flatMap_cons, List.flatMap_cons, ih, fields_of_pieces hpieces]
    · exact ih

/-- Line ends do not count: the lines of a text read as the pieces between its line feeds. -/
theorem flatMap_fields_closedLines_eq (ls : List (List Char)) :
    (blocks (closedLines ls)).flatMap Block.fields = (blocks ls).flatMap Block.fields := by
  have hreads : ∃ below, (∀ l ∈ below, isBlank l = true) ∧
      List.Forall₂ ReadsAs (closedLines ls ++ below) ls := by
    fun_induction closedLines ls with
    | case1 => exact ⟨[], by simp, .nil⟩
    | case2 rest hrest =>
      rw [List.isEmpty_iff.mp hrest]
      exact ⟨[[]], by simp [isBlank], .cons ⟨rfl, rfl⟩ .nil⟩
    | case3 rest => exact ⟨[], by simp, .cons ⟨rfl, rfl⟩ .nil⟩
    | case4 piece pieces _ ih =>
      obtain ⟨below, hbelow, hpieces⟩ := ih
      exact ⟨below, hbelow, .cons ⟨opensField_dropReturn piece, trim_dropReturn piece⟩ hpieces⟩
  obtain ⟨below, hbelow, hls⟩ := hreads
  rw [← flatMap_fields_append_blank hbelow, flatMap_fields_of_readsAs hls]

theorem flatMap_fields_dropBlankEnds (ls : List (List Char)) :
    (blocks (Docstring.dropBlankEnds ls)).flatMap Block.fields
      = (blocks ls).flatMap Block.fields := by
  obtain ⟨above, below, habove, hbelow, hls⟩ := Docstring.exists_dropBlankEnds ls
  conv_rhs =>
    rw [hls, flatMap_fields_append_blank hbelow,
      blocks_append_left fun l hl => not_opensField_of_isBlank (habove l hl)]

/-- The fields of a cleaned docstring are those of its lines as the margin leaves them. -/
theorem parse_clean (raw : List Char) :
    parse (String.ofList (Docstring.clean raw))
      = (blocks (Docstring.dedent (lines (Docstring.expandTabs raw)))).flatMap Block.fields := by
  rw [parse, String.toList_ofList,
    ← flatMap_fields_dropBlankEnds (Docstring.dedent (lines (Docstring.expandTabs raw)))]
  by_cases hne : Docstring.dropBlankEnds (Docstring.dedent (lines (Docstring.expandTabs raw))) = []
  · rw [Docstring.clean, hne]
    rfl
  · conv_lhs => rw [lines, Docstring.splitOn_clean hne, flatMap_fields_closedLines_eq]

/-- Each line that opens a field opens the block of the lines below it up to the next such line. -/
theorem blocks_eq_map_zipIdx (above ls : List (List Char)) :
    blocks ls = ((ls.zipIdx above.length).filter fun line => opensField line.1).map fun line =>
      ⟨line.1, ((above ++ ls).drop (line.2 + 1)).takeWhile fun l => !opensField l⟩ := by
  induction ls generalizing above with
  | nil => rfl
  | cons line ls ih =>
    have hrest := ih (above ++ [line])
    rw [List.length_append, List.length_singleton, List.append_assoc,
      List.singleton_append] at hrest
    rw [blocks, List.zipIdx_cons, List.filter_cons, hrest]
    split
    · have hbelow : (above ++ line :: ls).drop (above.length + 1) = ls := by
        rw [← List.drop_drop, List.drop_left]
        rfl
      rw [List.map_cons, hbelow]
    · rfl

/-! ## The lines of the raw text -/

/-- The line, with its number from zero, starts a field: its first character that shows is a colon,
and it is the first line or stands at the margin. -/
def startsField (m : Nat) (line : List Char × Nat) : Bool :=
  (line.2 == 0 || indentation line.1 == m) && (trimStart line.1).head? == some ':'

/-- The block that a line of the raw text starts: the line, and those below it up to the next one
that starts a field. -/
def blockAt (m : Nat) (ls : List (List Char)) (line : List Char × Nat) : Block :=
  ⟨trim line.1, (ls.drop (line.2 + 1)).takeWhile fun l => !startsField m (l, line.2 + 1)⟩

theorem opensField_outdent {m : Nat} {l : List Char} (h : isBlank l = false → m ≤ indentation l)
    (i : Nat) : opensField (Docstring.outdent m l) = startsField m (l, i + 1) := by
  rcases hl : isBlank l with _ | _
  · have hsplit : l.drop m = (l.takeWhile isWhite).drop m ++ trimStart l := by
      conv_lhs => rw [← List.takeWhile_append_dropWhile (p := isWhite) (l := l)]
      exact List.drop_append_of_le_length (h hl)
    rw [Docstring.outdent, opensField_trimEnd, hsplit, startsField]
    -- white space that the margin leaves in front hides the colon
    rcases hwhite : (l.takeWhile isWhite).drop m with _ | ⟨c, white⟩
    · have hm : indentation l = m := Nat.le_antisymm (List.drop_eq_nil_iff.mp hwhite) (h hl)
      simp [opensField, hm]
    · have hc : c ∈ l.takeWhile isWhite :=
        List.mem_of_mem_drop (hwhite ▸ List.mem_cons_self)
      have hcolon : c ≠ ':' := by
        rintro rfl
        exact absurd (List.mem_takeWhile_imp hc) (by decide)
      have hm : indentation l ≠ m := by
        rintro rfl
        simp [indentation] at hwhite
      simp [opensField, beq_false_of_ne hcolon, beq_false_of_ne hm]
  · rw [Docstring.outdent_of_isBlank m hl]
    simp [startsField, trimStart_of_isBlank hl, opensField]

theorem trim_outdent {m : Nat} {l : List Char} (h : isBlank l = false → m ≤ indentation l) :
    trim (Docstring.outdent m l) = trim l := by
  rcases hl : isBlank l with _ | _
  · obtain ⟨v, hv, hdrop⟩ := exists_trimEnd_append (l.drop m)
    conv_rhs =>
      rw [← List.take_append_drop m l, trim_append_left (isBlank_take_indentation (h hl)), hdrop,
        trim_append_right _ hv]
    rfl
  · rw [Docstring.outdent_of_isBlank m hl, trim_eq_nil_iff.mpr hl]
    rfl

theorem trim_trimStart (l : List Char) : trim (trimStart l) = trim l := by
  conv_rhs => rw [← List.takeWhile_append_dropWhile (p := isWhite) (l := l),
    trim_append_left (isBlank_takeWhile l)]
  rfl

/-- What cleaning leaves of a numbered line. -/
def outdentAt (m : Nat) (line : List Char × Nat) : List Char :=
  if line.2 = 0 then trimStart line.1 else Docstring.outdent m line.1

theorem dedent_zipIdx (ls : List (List Char)) :
    (Docstring.dedent ls).zipIdx
      = ls.zipIdx.map fun line => (outdentAt (Docstring.margin ls.tail) line, line.2) := by
  rcases ls with _ | ⟨first, rest⟩
  · rfl
  · have hrest : (rest.map (Docstring.outdent (Docstring.margin rest))).zipIdx 1
        = (rest.zipIdx 1).map fun line => (outdentAt (Docstring.margin rest) line, line.2) := by
      rw [List.zipIdx_map]
      refine List.map_congr_left fun line hline => ?_
      have hpos : line.2 ≠ 0 := by
        have := (List.mem_zipIdx hline).1
        omega
      simp [outdentAt, hpos, Prod.map]
    exact congrArg (List.cons (trimStart first, 0)) hrest

theorem pieces_takeWhile_outdent {m : Nat} {ls : List (List Char)}
    (h : ∀ l ∈ ls, isBlank l = false → m ≤ indentation l) (i : Nat) :
    pieces ((ls.map (Docstring.outdent m)).takeWhile fun l => !opensField l)
      = pieces (ls.takeWhile fun l => !startsField m (l, i + 1)) := by
  refine pieces_takeWhile_congr (List.forall₂_map_left_iff.mpr (List.forall₂_same.mpr ?_))
  intro l hl
  exact ⟨congrArg (!·) (opensField_outdent (h l hl) i), trim_outdent (h l hl)⟩

theorem drop_dedent (ls : List (List Char)) (i : Nat) :
    (Docstring.dedent ls).drop (i + 1)
      = (ls.drop (i + 1)).map (Docstring.outdent (Docstring.margin ls.tail)) := by
  rcases ls with _ | ⟨first, rest⟩
  · rfl
  · exact List.map_drop.symm

theorem mem_tail_of_mem_zipIdx {ls : List (List Char)} {l : List Char} {i : Nat}
    (h : (l, i + 1) ∈ ls.zipIdx) : l ∈ ls.tail := by
  rw [List.mk_mem_zipIdx_iff_getElem?, ← List.getElem?_tail] at h
  exact List.mem_of_getElem? h

/-- What cleaning leaves of a line reads as the line does: it opens a field where the line starts
one, and it has the same text. -/
theorem outdentAt_reads {ls : List (List Char)} {line : List Char × Nat} (h : line ∈ ls.zipIdx) :
    opensField (outdentAt (Docstring.margin ls.tail) line)
        = startsField (Docstring.margin ls.tail) line ∧
      trim (outdentAt (Docstring.margin ls.tail) line) = trim line.1 := by
  obtain ⟨l, i⟩ := line
  cases i with
  | zero => exact ⟨by simp [outdentAt, startsField, opensField], trim_trimStart l⟩
  | succ i =>
    have hmargin := (Docstring.isMargin_margin ls.tail).le l (mem_tail_of_mem_zipIdx h)
    exact ⟨opensField_outdent hmargin i, trim_outdent hmargin⟩

/-- The blocks of the lines that cleaning leaves are those that lines of the raw text start. -/
theorem blocks_dedent (ls : List (List Char)) :
    blocks (Docstring.dedent ls)
      = (ls.zipIdx.filter (startsField (Docstring.margin ls.tail))).map fun line =>
          ⟨outdentAt (Docstring.margin ls.tail) line,
            ((ls.drop (line.2 + 1)).map (Docstring.outdent (Docstring.margin ls.tail))).takeWhile
              fun l => !opensField l⟩ := by
  have hfilter : (ls.zipIdx.filter fun line =>
        opensField (outdentAt (Docstring.margin ls.tail) line))
      = ls.zipIdx.filter (startsField (Docstring.margin ls.tail)) :=
    List.filter_congr fun line hline => (outdentAt_reads hline).1
  rw [blocks_eq_map_zipIdx [] (Docstring.dedent ls), List.length_nil, dedent_zipIdx,
    List.filter_map, List.map_map]
  simp only [Function.comp_def, List.nil_append, drop_dedent, hfilter]

/-- **The fields of a cleaned docstring, block by block of the raw text.** -/
theorem parse_clean_eq_flatMap {raw : List Char} (htab : '\t' ∉ raw) :
    parse (String.ofList (Docstring.clean raw))
      = ((lines raw).zipIdx.filter (startsField (Docstring.margin (lines raw).tail))).flatMap
          fun line => (blockAt (Docstring.margin (lines raw).tail) (lines raw) line).fields := by
  rw [parse_clean, Docstring.expandTabs_of_notMem htab]
  generalize lines raw = ls
  rw [blocks_dedent, List.flatMap_map]
  refine List.flatMap_congr fun line hline => ?_
  obtain ⟨hline, hstarts⟩ := List.mem_filter.mp hline
  obtain ⟨hopen, htrim⟩ := outdentAt_reads hline
  have hbelow : ∀ l ∈ ls.drop (line.2 + 1), isBlank l = false →
      Docstring.margin ls.tail ≤ indentation l := fun l hl =>
    (Docstring.isMargin_margin ls.tail).le l (by
      rw [Nat.add_comm, ← List.drop_drop, List.drop_one] at hl
      exact List.mem_of_mem_drop hl)
  rw [← fields_trim (hopen.trans hstarts), htrim]
  exact fields_of_pieces (pieces_takeWhile_outdent hbelow line.2)

/-! ## One field for each line -/

/-- A block has one field beside the type inside its marker. -/
theorem exists_filter_fields (b : Block) : ∃ f, (b.fields.filter fun f => !f.isInline) = [f] := by
  unfold Block.fields
  split
  · exact ⟨_, rfl⟩
  · split
    · exact ⟨_, rfl⟩
    · unfold Block.fieldsOf
      dsimp only
      split <;> exact ⟨_, rfl⟩

theorem forall₂_flatMap {α β : Type} {g : α → List β} {as : List α}
    (h : ∀ a ∈ as, ∃ b, g a = [b]) : List.Forall₂ (fun a b => g a = [b]) as (as.flatMap g) := by
  induction as with
  | nil => exact .nil
  | cons a as ih =>
    rw [List.forall_mem_cons] at h
    obtain ⟨b, hb⟩ := h.1
    rw [List.flatMap_cons, hb]
    exact .cons hb (ih h.2)

/-- **The fields of a cleaned docstring and the lines that start them correspond, one to one and in
order.** -/
theorem fields_start_exact (raw : List Char) (m : Nat) (htab : '\t' ∉ raw)
    (hm : Docstring.IsMargin (lines raw).tail m) :
    List.Forall₂
      (fun line f => ((blockAt m (lines raw) line).fields.filter fun g => !g.isInline) = [f])
      ((lines raw).zipIdx.filter (startsField m))
      ((parse (String.ofList (Docstring.clean raw))).filter fun f => !f.isInline) := by
  obtain rfl := (Docstring.isMargin_margin _).unique hm
  rw [parse_clean_eq_flatMap htab, List.filter_flatMap]
  exact forall₂_flatMap fun line _ => exists_filter_fields _

/-- A raw docstring with a field in its first line, carriage returns at line ends, a role in a
deeper line, and no-break spaces for indentation. -/
def rawWithRole : List Char :=
  " :param x: a\r\n\r\n  :type x:\n    :class:`T`\n\u00a0\u00a0:returns".toList

theorem fields_start_rawWithRole :
    ((lines rawWithRole).zipIdx.filter (startsField 2)).map Prod.snd = [0, 2, 4] ∧
    List.Forall₂
      (fun line f =>
        ((blockAt 2 (lines rawWithRole) line).fields.filter fun g => !g.isInline) = [f])
      ((lines rawWithRole).zipIdx.filter (startsField 2))
      ((parse (String.ofList (Docstring.clean rawWithRole))).filter fun f => !f.isInline) := by
  refine ⟨by decide, fields_start_exact rawWithRole 2 (by decide) ⟨by decide, .inl ?_⟩⟩
  exact ⟨"  :type x:".toList, by decide, by decide, by decide⟩

end DocAudit.FieldList
