import DocAudit.FieldList

/-!
# Proofs/PendingField — the field list of a text in one pass over its lines

`parse` cuts the lines into blocks and reads each block by itself.  The same list comes out of one
pass from line to line, which keeps the field that is still open and the pieces of its body so far
(`Pending`).  A line that opens a field writes the pending one out, and so does the end of the text;
a broken line leaves nothing pending, hence the lines behind it go nowhere, like those in front of
the first field.

The invariant of the pass is `flush_foldl_step`: whatever was written and is pending already, what
comes out in the end is that, the pending field having taken the lines up to the next one that opens
a field, and then the fields of the blocks that follow.
-/

namespace DocAudit.FieldList

open DocAudit.Text

/-! ## The pending field -/

/-- A field whose continuation lines are still being collected. -/
structure Pending where
  kind : FieldKind
  subject : Option (List Char)
  inlineType : Option (List Char)
  pieces : List (List Char)

namespace Pending

/-- The subject and the inline type that the arguments of a marker give: the last argument of a
`:param:` field is its name, and those in front of it, if there are any, are a type. -/
def partsOf (kind : FieldKind) (args : List (List Char)) :
    Option (List Char) × Option (List Char) :=
  match kind with
  | .param =>
    match args.getLast?, args.dropLast with
    | none, _ => (none, none)
    | some name, [] => (some (unescape name), none)
    | some name, type => (some (unescape name), some (unwords type))
  | .returns | .rtype => (none, none)
  | _ => if args.isEmpty then (none, none) else (some (unescape (unwords args)), none)

/-- The field that a line opens; none if the line has no second colon or a blank marker. -/
def ofHead? (line : List Char) : Option Pending :=
  match marker? line with
  | none => none
  | some (marker, body) =>
    match words marker with
    | [] => none
    | name :: args =>
      let kind := FieldKind.ofName (String.ofList name)
      some ⟨kind, (partsOf kind args).1, (partsOf kind args).2, [body]⟩

/-- Writes the field behind those already written, and behind it the one for an inline type. -/
def finish (p : Pending) (out : List Field) : List Field :=
  let subject := p.subject.map String.ofList
  let out := out ++ [{ kind := p.kind, subject, body := String.ofList (joinBody p.pieces) }]
  match p.inlineType, subject with
  | some text, some name => out ++ [Field.inlineTypeOf name (String.ofList text)]
  | _, _ => out

/-- The field with more lines behind those it has. -/
def extend (p : Pending) (ls : List (List Char)) : Pending :=
  { p with pieces := p.pieces ++ ls }

theorem partsOf_eq (kind : FieldKind) (args : List (List Char)) :
    partsOf kind args = (subjectOf kind args, inlineTypeOf kind args) := by
  cases kind with
  | param =>
    rcases List.eq_nil_or_concat args with rfl | ⟨front, last, rfl⟩
    · rfl
    · simp only [partsOf, subjectOf, inlineTypeOf, List.concat_eq_append, List.getLast?_concat,
        List.dropLast_concat]
      rcases front with _ | ⟨first, front⟩ <;> simp
  | _ => cases args <;> simp [partsOf, subjectOf, inlineTypeOf]

theorem finish_eq (p : Pending) (out : List Field) : p.finish out = out ++ p.finish [] := by
  unfold finish
  dsimp only
  split <;> simp

end Pending

/-! ## The pass -/

/-- What the pass has written, and the field that is pending. -/
structure Pass where
  out : List Field
  pending : Option Pending

namespace Pass

/-- What is written once the pending field is written out. -/
def flush (pass : Pass) : List Field :=
  match pass.pending with
  | none => pass.out
  | some p => p.finish pass.out

/-- One more line. -/
def step (pass : Pass) (line : List Char) : Pass :=
  if opensField line then
    match Pending.ofHead? line with
    | some p => ⟨pass.flush, some p⟩
    | none => ⟨pass.flush ++ [Field.broken (String.ofList (trimEnd line))], none⟩
  else { pass with pending := pass.pending.map fun p => p.extend [line] }

/-- The pass with more lines for the pending field. -/
def extend (pass : Pass) (ls : List (List Char)) : Pass :=
  { pass with pending := pass.pending.map fun p => p.extend ls }

theorem extend_nil (pass : Pass) : pass.extend [] = pass := by
  obtain ⟨out, _ | p⟩ := pass
  · rfl
  · simp [extend, Pending.extend]

theorem extend_extend (pass : Pass) (ls more : List (List Char)) :
    (pass.extend ls).extend more = pass.extend (ls ++ more) := by
  obtain ⟨out, _ | p⟩ := pass
  · rfl
  · simp [extend, Pending.extend]

theorem step_of_not_opensField (pass : Pass) {line : List Char} (h : opensField line = false) :
    pass.step line = pass.extend [line] := by
  rw [step, if_neg (by simp [h])]
  rfl

/-- **A line that opens a field starts a block**: with the lines that follow it the block is written
behind what was pending before. -/
theorem flush_extend_step (pass : Pass) {line : List Char} (h : opensField line = true)
    (ls : List (List Char)) :
    ((pass.step line).extend ls).flush = pass.flush ++ Block.fields ⟨line, ls⟩ := by
  rw [step, if_pos h, Pending.ofHead?, Block.fields]
  rcases marker? line with _ | ⟨marker, body⟩
  · rfl
  dsimp only
  rcases words marker with _ | ⟨name, args⟩
  · rfl
  dsimp only [extend, flush, Option.map_some]
  rw [Pending.finish_eq, Pending.partsOf_eq]
  rfl

/-- **What one pass gives**, from any state on. -/
theorem flush_foldl_step (ls : List (List Char)) (pass : Pass) :
    (ls.foldl step pass).flush
      = (pass.extend (ls.takeWhile fun l => !opensField l)).flush
        ++ (blocks ls).flatMap Block.fields := by
  induction ls generalizing pass with
  | nil => rw [List.foldl_nil, List.takeWhile_nil, extend_nil, blocks, List.flatMap_nil,
      List.append_nil]
  | cons line ls ih =>
    rw [List.foldl_cons, ih]
    cases h : opensField line with
    | true =>
      rw [flush_extend_step pass h, List.takeWhile_cons, if_neg (by simp [h]), extend_nil, blocks,
        if_pos h, List.flatMap_cons, List.append_assoc]
    | false =>
      rw [step_of_not_opensField pass h, extend_extend, List.takeWhile_cons, if_pos (by simp [h]),
        blocks, if_neg (by simp [h])]
      rfl

end Pass

/-- The fields of a docstring text, in one pass over its lines. -/
def parseInOnePass (text : String) : List Field :=
  ((lines text.toList).foldl Pass.step ⟨[], none⟩).flush

/-- **One pass over the lines gives the fields of all blocks.** -/
theorem parseInOnePass_eq (text : String) : parseInOnePass text = parse text := by
  rw [parseInOnePass, Pass.flush_foldl_step, parse]
  rfl

end DocAudit.FieldList
