import DocAudit.Proofs.FieldLines
import Mathlib.Data.List.Forall2
import Mathlib.Data.List.TakeWhile

/-!
# Proofs/FieldGrammar — the field list of a text as a grammar

What a field list is, said without the reader.  `Divides` cuts the lines of a text into a
description and blocks: each block begins with a field line and holds no other.  `Block.Holds` says
what a block stands for: a broken line alone, one field, or one field and the type inside its
marker.

Lines divide into their `blocks` (`divides_blocks`) and in no other way (`blocks_eq_of_divides`),
and a block stands for exactly one list of fields (`Block.holds_iff`).  So what the reader finds in
a text is what the grammar gives to it (`parse_eq_iff_grammar`).
-/

namespace DocAudit.FieldList

open DocAudit.Text

/-! ## The grammar -/

/-- No second colon stands in the line, or nothing but white space between its first two. -/
def IsBroken (line : List Char) : Prop :=
  line.count ':' < 2 ∨
    ∃ marker text, line = ':' :: marker ++ ':' :: text ∧ isBlank marker = true

/-- The first two colons of the line enclose the marker, and `text` follows the second. -/
def Encloses (line marker text : List Char) : Prop :=
  line = ':' :: marker ++ ':' :: text ∧ ':' ∉ marker

/-- The body that pieces of text make: those that are not blank, trimmed, with one blank between
each two of them. -/
def bodyOf (pieces : List (List Char)) : String :=
  String.ofList (unwords ((pieces.filter fun piece => !isBlank piece).map trim))

/-- The subject of a field of the kind whose marker has the arguments. -/
inductive SubjectIs : FieldKind → List (List Char) → Option String → Prop
  | returns (args : List (List Char)) : SubjectIs .returns args none
  | rtype (args : List (List Char)) : SubjectIs .rtype args none
  | absent (kind : FieldKind) : SubjectIs kind [] none
  | last (args : List (List Char)) (name : List Char) :
      SubjectIs .param (args ++ [name]) (some (String.ofList (unescape name)))
  | joined {kind : FieldKind} {args : List (List Char)}
      (hkind : kind ∉ [FieldKind.param, .returns, .rtype]) (hargs : args ≠ []) :
      SubjectIs kind args (some (String.ofList (unescape (unwords args))))

namespace Block

/-- All lines of the block. -/
def lines (b : Block) : List (List Char) :=
  b.head :: b.continuation

/-- What a block stands for. -/
inductive Holds (b : Block) : List Field → Prop
  /-- A broken line stands for itself; its continuation is lost. -/
  | broken (h : IsBroken b.head) :
      Holds b
        [{ kind := .parseError, subject := none, body := String.ofList (trimEnd b.head),
           isInline := false }]
  | plain {marker text name : List Char} {args : List (List Char)} {kind : FieldKind}
      {subject : Option String} (hhead : Encloses b.head marker text)
      (hwords : words marker = name :: args) (hkind : kind = .ofName (String.ofList name))
      (hsubject : SubjectIs kind args subject) (hshort : kind = .param → args.length ≤ 1) :
      Holds b [{ kind, subject, body := bodyOf (text :: b.continuation), isInline := false }]
  /-- In front of the name of a parameter stands its type. -/
  | typed {marker text name subject : List Char} {type : List (List Char)}
      (hhead : Encloses b.head marker text) (hwords : words marker = name :: (type ++ [subject]))
      (hkind : FieldKind.ofName (String.ofList name) = .param) (htype : type ≠ []) :
      Holds b
        [{ kind := .param, subject := some (String.ofList (unescape subject)),
           body := bodyOf (text :: b.continuation), isInline := false },
         { kind := .type, subject := some (String.ofList (unescape subject)),
           body := String.ofList (unwords type), isInline := true }]

end Block

/-- The lines are a description, in which no line opens a field, and then the blocks; each block
begins with a line that opens a field and goes on with lines that do not. -/
structure Divides (ls description : List (List Char)) (bs : List Block) : Prop where
  lines_eq : ls = description ++ bs.flatMap Block.lines
  description : ∀ l ∈ description, opensField l = false
  head : ∀ b ∈ bs, opensField b.head = true
  continuation : ∀ b ∈ bs, ∀ l ∈ b.continuation, opensField l = false

/-- The fields are those of the blocks of the lines, block by block. -/
def Grammar (ls : List (List Char)) (fields : List Field) : Prop :=
  ∃ description bs, Divides ls description bs ∧
    ∃ parts, List.Forall₂ Block.Holds bs parts ∧ fields = parts.flatten

/-! ## One division -/

theorem takeWhile_lines_eq {b : Block} {rest : List (List Char)}
    (hcontinuation : ∀ l ∈ b.continuation, opensField l = false)
    (hrest : ∀ l ∈ rest.head?, opensField l = true) :
    ((b.continuation ++ rest).takeWhile fun l => !opensField l) = b.continuation := by
  rw [List.takeWhile_append_of_pos fun l hl => by simp [hcontinuation l hl]]
  rcases rest with _ | ⟨next, rest⟩
  · simp
  · rw [List.takeWhile_cons_of_neg (by simp [hrest next rfl]), List.append_nil]

/-- Blocks one behind the other are cut where they were put together. -/
theorem blocks_flatMap_lines : ∀ {bs : List Block}, (∀ b ∈ bs, opensField b.head = true) →
    (∀ b ∈ bs, ∀ l ∈ b.continuation, opensField l = false) → blocks (bs.flatMap Block.lines) = bs
  | [], _, _ => rfl
  | b :: bs, hhead, hcontinuation => by
      have hnext : ∀ l ∈ (bs.flatMap Block.lines).head?, opensField l = true := by
        rcases bs with _ | ⟨next, bs⟩
        · nofun
        · rintro l ⟨⟩
          exact hhead next (by simp)
      have hrest := blocks_flatMap_lines (fun c hc => hhead c (List.mem_cons_of_mem b hc))
        fun c hc => hcontinuation c (List.mem_cons_of_mem b hc)
      have hb := hcontinuation b List.mem_cons_self
      rw [List.flatMap_cons, Block.lines, List.cons_append, blocks,
        if_pos (hhead b List.mem_cons_self), takeWhile_lines_eq hb hnext, blocks_append_left hb,
        hrest]

/-- **The blocks of lines divide them**: nothing is lost, repeated or put elsewhere. -/
theorem divides_blocks (ls : List (List Char)) :
    Divides ls (ls.takeWhile fun l => !opensField l) (blocks ls) := by
  induction ls with
  | nil => refine ⟨rfl, ?_, ?_, ?_⟩ <;> simp [blocks]
  | cons line ls ih =>
    by_cases h : opensField line = true
    · rw [blocks, if_pos h, List.takeWhile_cons_of_neg (by simp [h])]
      refine ⟨?_, fun l hl => absurd hl List.not_mem_nil, ?_, ?_⟩
      · rw [List.nil_append, List.flatMap_cons, Block.lines, List.cons_append, ← ih.lines_eq]
      · intro b hb
        rcases List.mem_cons.mp hb with rfl | hb
        · exact h
        · exact ih.head b hb
      · intro b hb
        rcases List.mem_cons.mp hb with rfl | hb
        · exact ih.description
        · exact ih.continuation b hb
    · rw [blocks, if_neg h, List.takeWhile_cons_of_pos (by simp [h])]
      refine ⟨?_, ?_, ih.head, ih.continuation⟩
      · rw [List.cons_append, ← ih.lines_eq]
      · intro l hl
        rcases List.mem_cons.mp hl with rfl | hl
        · exact Bool.eq_false_iff.mpr h
        · exact ih.description l hl

/-- Whatever divides the lines divides them into these blocks. -/
theorem blocks_eq_of_divides {ls description : List (List Char)} {bs : List Block}
    (h : Divides ls description bs) : blocks ls = bs := by
  rw [h.lines_eq, blocks_append_left h.description, blocks_flatMap_lines h.head h.continuation]

/-! ## The marker of an opening line -/

theorem eq_cons_of_opensField {line : List Char} (h : opensField line = true) :
    ∃ inner, line = ':' :: inner := by
  rcases line with _ | ⟨c, inner⟩
  · cases h
  · exact ⟨inner, by rw [show c = ':' by simpa [opensField] using h]⟩

/-- The reader's marker is what the first two colons enclose. -/
theorem marker?_of_encloses {line marker text : List Char} (h : Encloses line marker text) :
    marker? line = some (marker, text) := by
  obtain ⟨rfl, hmarker⟩ := h
  exact marker?_append hmarker text

theorem encloses_of_marker? {line marker text : List Char} (hopen : opensField line = true)
    (h : marker? line = some (marker, text)) : Encloses line marker text := by
  obtain ⟨inner, rfl⟩ := eq_cons_of_opensField hopen
  have hsplit := List.takeWhile_append_dropWhile (p := (· != ':')) (l := inner)
  simp only [marker?, List.drop_one, List.tail_cons] at h
  split at h
  · cases h
  · rename_i c body hrest
    have hcolon : c = ':' := by
      have hhead := List.head?_dropWhile_not (· != ':') inner
      rw [hrest] at hhead
      simpa using hhead
    obtain ⟨rfl, rfl⟩ := Prod.mk.inj (Option.some.inj h)
    rw [hrest, hcolon] at hsplit
    refine ⟨by rw [List.cons_append, hsplit], fun hmem => ?_⟩
    simpa using List.mem_takeWhile_imp hmem

theorem count_lt_of_marker?_eq_none {line : List Char} (hopen : opensField line = true)
    (h : marker? line = none) : line.count ':' < 2 := by
  obtain ⟨inner, rfl⟩ := eq_cons_of_opensField hopen
  simp only [marker?, List.drop_one, List.tail_cons] at h
  split at h
  · rename_i hnone
    have hno : ':' ∉ inner := fun hmem => by simpa using List.dropWhile_eq_nil_iff.mp hnone _ hmem
    rw [List.count_cons_self, List.count_eq_zero_of_not_mem hno]
    omega
  · cases h

/-! ## One reading of a block -/

theorem ofList_joinBody (pieces : List (List Char)) :
    String.ofList (joinBody pieces) = bodyOf pieces := by
  have hkeep : (fun piece => !(trim piece).isEmpty) = fun piece => !isBlank piece := by
    ext piece
    rw [Bool.eq_iff_iff, Bool.not_eq_true', Bool.not_eq_true', Bool.eq_false_iff,
      Bool.eq_false_iff, ne_eq, ne_eq, List.isEmpty_iff, trim_eq_nil_iff]
  rw [joinBody, bodyOf, List.filter_map, Function.comp_def, hkeep]

theorem subjectIs_subjectOf (kind : FieldKind) (args : List (List Char)) :
    SubjectIs kind args ((subjectOf kind args).map String.ofList) := by
  rcases List.eq_nil_or_concat args with rfl | ⟨init, last, rfl⟩
  · cases kind <;> exact .absent _
  · cases kind with
    | returns => exact .returns _
    | rtype => exact .rtype _
    | param => simpa [subjectOf] using SubjectIs.last init last
    | type | raises | other | parseError =>
      simpa [subjectOf] using SubjectIs.joined (by decide) (List.concat_ne_nil last init)

theorem eq_subjectOf_of_subjectIs {kind : FieldKind} {args : List (List Char)}
    {subject : Option String} (h : SubjectIs kind args subject) :
    subject = (subjectOf kind args).map String.ofList := by
  cases h with
  | returns | rtype => rfl
  | absent => cases kind <;> rfl
  | last => simp [subjectOf]
  | joined hkind hargs => cases kind <;> simp_all [subjectOf]

namespace Block

theorem fieldsOf_plain {kind : FieldKind} {args : List (List Char)}
    (hshort : kind = .param → args.length ≤ 1) (pieces : List (List Char)) :
    fieldsOf kind args pieces
      = [{ kind, subject := (subjectOf kind args).map String.ofList, body := bodyOf pieces,
           isInline := false }] := by
  have hnone : FieldList.inlineTypeOf kind args = none :=
    if_neg fun h => absurd (hshort h.1) (by omega)
  simp only [fieldsOf, hnone, ofList_joinBody]

theorem fieldsOf_typed {type : List (List Char)} (htype : type ≠ []) (subject : List Char)
    (pieces : List (List Char)) :
    fieldsOf .param (type ++ [subject]) pieces
      = [{ kind := .param, subject := some (String.ofList (unescape subject)),
           body := bodyOf pieces, isInline := false },
         { kind := .type, subject := some (String.ofList (unescape subject)),
           body := String.ofList (unwords type), isInline := true }] := by
  have hlength : 0 < type.length := List.length_pos_iff.mpr htype
  have hinline : FieldList.inlineTypeOf .param (type ++ [subject]) = some (unwords type) := by
    rw [FieldList.inlineTypeOf, if_pos ⟨rfl, by simpa using hlength⟩, List.dropLast_concat]
  have hsubject : subjectOf .param (type ++ [subject]) = some (unescape subject) := by
    simp [subjectOf]
  simp only [fieldsOf, hinline, hsubject, Option.map_some, ofList_joinBody]
  rfl

theorem fields_of_marker {b : Block} {marker text name : List Char} {args : List (List Char)}
    (hhead : Encloses b.head marker text) (hwords : words marker = name :: args) :
    b.fields = fieldsOf (.ofName (String.ofList name)) args (text :: b.continuation) := by
  simp only [fields, marker?_of_encloses hhead, hwords]

theorem fields_of_isBroken {b : Block} (hopen : opensField b.head = true)
    (h : IsBroken b.head) : b.fields = [Field.broken (String.ofList (trimEnd b.head))] := by
  rcases h with hcount | ⟨marker, text, hhead, hblank⟩
  · have hnone : marker? b.head = none := by
      rcases hmarker : marker? b.head with _ | ⟨marker, text⟩
      · rfl
      · obtain ⟨hhead, -⟩ := encloses_of_marker? hopen hmarker
        rw [hhead, List.count_append, List.count_cons_self, List.count_cons_self] at hcount
        omega
    simp only [fields, hnone]
  · have hcolon : ':' ∉ marker := fun hmem => absurd (isBlank_iff.mp hblank _ hmem) (by decide)
    simp only [fields, marker?_of_encloses ⟨hhead, hcolon⟩, words_eq_nil_iff.mpr hblank]

theorem eq_fields_of_holds {b : Block} {fs : List Field} (hopen : opensField b.head = true)
    (h : b.Holds fs) : fs = b.fields := by
  cases h with
  | broken hbroken => exact (fields_of_isBroken hopen hbroken).symm
  | plain hhead hwords hkind hsubject hshort =>
    rw [fields_of_marker hhead hwords, ← hkind, fieldsOf_plain hshort,
      eq_subjectOf_of_subjectIs hsubject]
  | typed hhead hwords hkind htype =>
    rw [fields_of_marker hhead hwords, hkind, fieldsOf_typed htype]

theorem holds_fieldsOf {b : Block} {marker text name : List Char} {args : List (List Char)}
    (hhead : Encloses b.head marker text) (hwords : words marker = name :: args) :
    b.Holds (fieldsOf (.ofName (String.ofList name)) args (text :: b.continuation)) := by
  by_cases htyped : FieldKind.ofName (String.ofList name) = .param ∧ 1 < args.length
  · obtain ⟨hkind, hlength⟩ := htyped
    rcases List.eq_nil_or_concat args with rfl | ⟨type, subject, rfl⟩
    · cases hlength
    · have htype : type ≠ [] := by
        rintro rfl
        simp at hlength
      rw [List.concat_eq_append, hkind, fieldsOf_typed htype]
      exact .typed hhead (by rw [hwords, List.concat_eq_append]) hkind htype
  · have hshort : FieldKind.ofName (String.ofList name) = .param → args.length ≤ 1 := fun hkind =>
      Nat.not_lt.mp fun hlength => htyped ⟨hkind, hlength⟩
    rw [fieldsOf_plain hshort]
    exact .plain hhead hwords rfl (subjectIs_subjectOf _ args) hshort

/-- **A block stands for its fields and for nothing else.** -/
theorem holds_iff {b : Block} (hopen : opensField b.head = true) {fs : List Field} :
    b.Holds fs ↔ fs = b.fields := by
  refine ⟨eq_fields_of_holds hopen, ?_⟩
  rintro rfl
  unfold fields
  split
  · rename_i hmarker
    exact .broken (.inl (count_lt_of_marker?_eq_none hopen hmarker))
  · rename_i marker text hmarker
    have hhead := encloses_of_marker? hopen hmarker
    split
    · rename_i hwords
      exact .broken (.inr ⟨marker, text, hhead.1, words_eq_nil_iff.mp hwords⟩)
    · rename_i name args hwords
      exact holds_fieldsOf hhead hwords

end Block

/-! ## The reader and the grammar -/

theorem forall₂_holds_iff {bs : List Block} (hhead : ∀ b ∈ bs, opensField b.head = true)
    {parts : List (List Field)} :
    List.Forall₂ Block.Holds bs parts ↔ parts = bs.map Block.fields := by
  induction bs generalizing parts with
  | nil => rw [List.forall₂_nil_left_iff, List.map_nil]
  | cons b bs ih =>
    have hrest : ∀ c ∈ bs, opensField c.head = true := fun c hc =>
      hhead c (List.mem_cons_of_mem b hc)
    rw [List.forall₂_cons_left_iff, List.map_cons]
    constructor
    · rintro ⟨fs, rest, hfs, hforall, rfl⟩
      rw [(Block.holds_iff (hhead b List.mem_cons_self)).mp hfs, (ih hrest).mp hforall]
    · rintro rfl
      exact ⟨b.fields, bs.map Block.fields,
        (Block.holds_iff (hhead b List.mem_cons_self)).mpr rfl, (ih hrest).mpr rfl, rfl⟩

/-- **The reader is the grammar** — the fields that it finds in a text are those that the grammar
gives to the lines of the text, and the grammar gives no others. -/
theorem parse_eq_iff_grammar (text : String) (fields : List Field) :
    parse text = fields ↔ Grammar (lines text.toList) fields := by
  constructor
  · rintro rfl
    have hdivides := divides_blocks (lines text.toList)
    exact ⟨_, _, hdivides, _, (forall₂_holds_iff hdivides.head).mpr rfl, rfl⟩
  · rintro ⟨description, bs, hdivides, parts, hparts, rfl⟩
    rw [(forall₂_holds_iff hdivides.head).mp hparts, parse, blocks_eq_of_divides hdivides]
    rfl

example : parse "Text\n:param List[int] \\*xs: a\r\n\n  :b: \n:oops\nlost\n:return x: y" =
    [.param "*xs" "a :b:", .inlineTypeOf "*xs" "List[int]", .broken ":oops", .returns "y"] := by
  decide

end DocAudit.FieldList
