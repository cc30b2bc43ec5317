import DocAudit.Proofs.Readings

/-!
# Proofs/DefinitionParts — bodies, heads and decorators, as they are read

What the grammar says about definitions, for trees that are readings.  A body holds definitions and
statements that are none (`IsBody.rule_of_mem`).  A definition is its keyword, its name, the rest of
its head and its body, in that order (`Headed`), and nothing in the head is a statement.  A
decorated definition is decorators and then one definition, and a decorator starts with a mark
behind which no second one stands (`tokens_of_reads_decorator`).
-/

namespace DocAudit.Python

open DocAudit.Python.Tree

/-! ## Bodies -/

/-- The rules that a body is read by. -/
def bodyRules : List Rule :=
  [.statement, .simpleLine, .decorated, .functionDef, .classDef, .compound, .simple]

/-- The trees are the body of a module or of a definition. -/
def IsBody (body : List Tree) : Prop :=
  Reads (grammar .module) body ∨ Reads (grammar .suite) body

theorem IsBody.reads_of_under {body : List Tree} (h : IsBody body) {r : Rule} {children : List Tree}
    (hnode : Under (node r children) body) : Reads (grammar r) children :=
  h.elim (Python.reads_of_under · hnode) (Python.reads_of_under · hnode)

/-- A node in a body is a definition or a statement that is none. -/
theorem IsBody.rule_of_mem {r : Rule} {children body : List Tree} (h : IsBody body)
    (hnode : node r children ∈ body) :
    r ∈ [Rule.decorated, .functionDef, .classDef, .compound, .simple] := by
  have hbody : r ∈ bodyRules ∧ isVisible r = true := by
    obtain h | h := h
    · exact mem_of_node_mem bodyRules (by decide) h (by decide) hnode
    · exact mem_of_node_mem bodyRules (by decide) h (by decide) hnode
  exact (by decide : ∀ r ∈ bodyRules, isVisible r = true →
    r ∈ [Rule.decorated, .functionDef, .classDef, .compound, .simple]) r hbody.1 hbody.2

/-! ## Heads -/

/-- The rules that an expression is read by. -/
def expressionRules : List Rule :=
  [.arguments, .argument, .expressions, .starExpression, .expression, .disjunction, .inversion,
    .comparison, .operand, .lambda, .lambdaParameter, .yieldExpression, .primary, .trailer,
    .memberTrailer, .atom, .strings, .group, .listDisplay, .braceDisplay, .comprehension,
    .subscripts, .targets, .target, .targetAtom]

/-- The rules that the head of a definition is read by. -/
def headRules : List Rule :=
  .typeParameters :: .parameters :: .hint :: expressionRules

/-- The parts of a definition: perhaps `async`, the keyword, the name, the rest of the head, which
holds no statements, and the body. -/
inductive Headed (keyword : String) (name : Token) (body : List Tree) : List Tree → Prop
  | intro {front head : List Tree} {mark : Token}
      (hfront : front = [] ∨ ∃ t : Token, front = [leaf t] ∧ t.kind = .word ∧ t.text = "async")
      (hmark : mark.kind = .word ∧ mark.text = keyword) (hname : name.kind = .word)
      (hhead : ∀ r children, node r children ∈ head → r ∈ [Rule.parameters, .hint, .strings]) :
      Headed keyword name body (front ++ leaf mark :: leaf name :: (head ++ [node .suite body]))

theorem Headed.suite_mem {keyword : String} {name : Token} {body parts : List Tree}
    (h : Headed keyword name body parts) : node .suite body ∈ parts := by
  cases h
  simp

theorem Headed.name_mem {keyword : String} {name : Token} {body parts : List Tree}
    (h : Headed keyword name body parts) : leaf name ∈ parts := by
  cases h
  simp

theorem Headed.name_kind {keyword : String} {name : Token} {body parts : List Tree}
    (h : Headed keyword name body parts) : name.kind = .word := by
  cases h
  assumption

theorem wordBehind_of_headed {keyword : String} {name : Token} {body parts : List Tree}
    (h : Headed keyword name body parts) (hkeyword : keyword ≠ "async") :
    wordBehind keyword parts = name.text := by
  cases h with
  | @intro front head mark hfront hmark hname hhead =>
    have hword : ∀ trees, wordBehind keyword (leaf mark :: leaf name :: trees) = name.text := by
      intro trees
      rw [wordBehind, if_pos (by simp [isToken, hmark])]
    obtain rfl | ⟨t, rfl, hkind, htext⟩ := hfront
    · exact hword _
    · rw [List.singleton_append, wordBehind, if_neg (by simp [isToken, htext, hkeyword.symm])]
      exact hword _

theorem first_of_headed {keyword : String} {name : Token} {body parts : List Tree}
    (h : Headed keyword name body parts) :
    ∃ first rest, tokensOfList parts = first :: rest ∧ first.kind = .word := by
  cases h with
  | @intro front head mark hfront hmark hname hhead =>
    obtain rfl | ⟨t, rfl, hkind, -⟩ := hfront
    · exact ⟨mark, _, rfl, hmark.1⟩
    · exact ⟨t, _, rfl, hkind⟩

theorem headed_of_reads (front head : List Pattern) {keyword : String} {parts : List Tree}
    (hfront : ∀ trees, Reads (.seq front) trees →
      trees = [] ∨ ∃ t : Token, trees = [leaf t] ∧ t.kind = .word ∧ t.text = "async")
    (hhead : ∀ r ∈ Pattern.rulesOfList head, r ∈ headRules)
    (h : Reads (.seq (front ++ .kw keyword :: .anyWord :: (head ++ [.rule .suite]))) parts) :
    ∃ name body, Headed keyword name body parts ∧ Reads (grammar .suite) body := by
  simp only [reads_seq_append, reads_seq_cons, reads_seq_nil, Pattern.kw, Pattern.anyWord,
    reads_terminal, reads_visible (r := .suite) rfl] at h
  obtain ⟨front, _, rfl, hf, _, _, rfl, ⟨mark, rfl, hmark⟩, _, _, rfl, ⟨name, rfl, hword⟩,
    head, _, rfl, hh, _, _, rfl, ⟨body, rfl, hbody⟩, rfl⟩ := h
  refine ⟨name, body, .intro (hfront front hf) ?_ ?_ fun r children hnode => ?_, hbody⟩
  · simpa [Terminal.fits] using hmark
  · simpa [Terminal.fits] using hword
  · obtain ⟨hmem, hvisible⟩ := mem_of_node_mem headRules (by decide) hh hhead hnode
    exact (by decide : ∀ r ∈ headRules, isVisible r = true →
      r ∈ [Rule.parameters, .hint, .strings]) r hmem hvisible

theorem headed_of_reads_functionDef {parts : List Tree} (h : Reads (grammar .functionDef) parts) :
    ∃ name body, Headed "def" name body parts ∧ Reads (grammar .suite) body := by
  refine headed_of_reads [.opt (.kw "async")] [.opt (.rule .typeParameters), .op "(",
    .rule .parameters, .op ")", .opt (.seq [.op "->", .rule .hint]), .op ":"]
    (fun trees hfront => ?_) (by decide) h
  obtain ⟨front, back, rfl, hopt, hback⟩ := reads_seq_cons.mp hfront
  rw [reads_seq_nil.mp hback, List.append_nil]
  refine (reads_opt.mp hopt).imp_right fun hasync => ?_
  obtain ⟨t, rfl, ht⟩ := reads_terminal.mp hasync
  exact ⟨t, rfl, by simpa [Terminal.fits] using ht⟩

theorem headed_of_reads_classDef {parts : List Tree} (h : Reads (grammar .classDef) parts) :
    ∃ name body, Headed "class" name body parts ∧ Reads (grammar .suite) body :=
  headed_of_reads [] [.opt (.rule .typeParameters),
    .opt (.bracketed "(" (.opt (.rule .arguments)) ")"), .op ":"]
    (fun _ hfront => .inl (reads_seq_nil.mp hfront)) (by decide) h

/-! ## Line ends -/

theorem exists_newline_of_reads_seq (ps qs : List Pattern) {trees : List Tree}
    (h : Reads (.seq (ps ++ .ofKind .newline :: qs)) trees) :
    ∃ t ∈ tokensOfList trees, t.kind = .newline := by
  obtain ⟨front, _, rfl, -, hrest⟩ := reads_seq_append.mp h
  obtain ⟨_, back, rfl, hnewline, -⟩ := reads_seq_cons.mp hrest
  obtain ⟨t, rfl, ht⟩ := reads_terminal.mp hnewline
  refine ⟨t, ?_, by simpa [Terminal.fits] using ht⟩
  rw [tokensOfList_append, tokensOfList_append, tokensOfList_leaf]
  simp

/-- A body ends a line. -/
theorem exists_newline_of_reads_suite {body : List Tree} (h : Reads (grammar .suite) body) :
    ∃ t ∈ tokensOfList body, t.kind = .newline := by
  obtain ⟨p, hp, h⟩ := reads_alt.mp h
  simp only [List.mem_cons, List.not_mem_nil, or_false] at hp
  obtain rfl | rfl | rfl := hp
  · exact exists_newline_of_reads_seq [.rule .simple, .many (.seq [.op ";", .rule .simple]),
      .opt (.op ";")] [] ((reads_hidden rfl).mp h)
  · exact exists_newline_of_reads_seq [] _ h
  · have hseq : Reads (.seq [.ofKind .newline]) (body ++ []) := .next h .done
    rw [List.append_nil] at hseq
    exact exists_newline_of_reads_seq [] [] hseq

theorem exists_newline_of_headed {keyword : String} {name : Token} {body parts : List Tree}
    (h : Headed keyword name body parts) (hbody : Reads (grammar .suite) body) :
    ∃ t ∈ tokensOfList parts, t.kind = .newline := by
  obtain ⟨t, ht, hkind⟩ := exists_newline_of_reads_suite hbody
  obtain ⟨front, back, htokens⟩ := exists_tokensOfList_of_mem h.suite_mem
  refine ⟨t, ?_, hkind⟩
  rw [htokens]
  exact List.mem_append_left back (List.mem_append_right front ht)

/-! ## Decorators -/

/-- The parts of a decorated definition: its decorators, and a function or a class. -/
theorem parts_of_reads_decorated {parts : List Tree} (h : Reads (grammar .decorated) parts) :
    ∃ decorators r children, parts = decorators ++ [node r children] ∧
      r ∈ [Rule.functionDef, .classDef] ∧
      ∀ s trees, node s trees ∈ decorators → s = .decorator := by
  obtain ⟨decorators, _, rfl, hdecorators, hrest⟩ := reads_seq_cons.mp h
  obtain ⟨definition, _, rfl, halt, hrest⟩ := reads_seq_cons.mp hrest
  rw [reads_seq_nil.mp hrest, List.append_nil]
  have hrule : ∀ s trees, node s trees ∈ decorators → s = .decorator :=
    fun s trees hnode => List.mem_singleton.mp
      (mem_of_node_mem [.decorator] (by decide) hdecorators (by decide) hnode).1
  obtain ⟨p, hp, hdefinition⟩ := reads_alt.mp halt
  simp only [List.mem_cons, List.not_mem_nil, or_false] at hp
  obtain rfl | rfl := hp
  all_goals
    obtain ⟨children, rfl, -⟩ := (reads_visible rfl).mp hdefinition
    exact ⟨decorators, _, children, rfl, by decide, hrule⟩

/-- What an expression starts with. -/
def startsExpression : Terminal → Bool
  | .operator text => ["-", "+", "~", "...", "(", "[", "\x7b"].contains text
  | .keyword _ | .operandName => true
  | .ofKind kind => [TokenKind.number, .string, .formatStart].contains kind
  | .anyWord | .statementWord => false

theorem not_marked_of_startsExpression {t : Terminal} {u : Token} (ht : startsExpression t = true)
    (hfits : t.fits u = true) :
    ¬(u.kind ∈ [TokenKind.operator, .formatText, .formatEnd] ∧ u.text.toList.head? = some '@') := by
  rintro ⟨hkind, hhead⟩
  cases t with
  | operator text =>
    simp only [Terminal.fits, Bool.and_eq_true, beq_iff_eq] at hfits
    rw [hfits.2] at hhead
    exact (by decide : ∀ text ∈ ["-", "+", "~", "...", "(", "[", "\x7b"],
      text.toList.head? ≠ some '@') text (List.contains_iff_mem.mp ht) hhead
  | keyword text | operandName =>
    simp only [Terminal.fits, Bool.and_eq_true, beq_iff_eq] at hfits
    rw [hfits.1] at hkind
    exact absurd hkind (by decide)
  | ofKind kind =>
    rw [beq_iff_eq.mp hfits] at hkind
    exact (by decide : ∀ kind ∈ [TokenKind.number, .string, .formatStart],
      kind ∉ [TokenKind.operator, .formatText, .formatEnd]) kind (List.contains_iff_mem.mp ht) hkind
  | anyWord | statementWord => cases ht

/-- The rules of the first part of an expression. -/
def leadingRules : List Rule :=
  [.expression, .disjunction, .inversion, .lambda, .comparison, .operand, .primary, .atom, .strings,
    .format, .group, .listDisplay, .braceDisplay]

theorem leads_leadingRules :
    ∀ r ∈ leadingRules, (grammar r).leads leadingRules startsExpression = true := by
  decide

/-- The parts of a decorator: its mark, an expression, which never starts with a mark, and the end
of the line. -/
theorem tokens_of_reads_decorator {children : List Tree} (h : Reads (grammar .decorator) children) :
    ∃ mark first rest t, tokensOfList children = mark :: first :: rest ∧
      mark.kind = .operator ∧ mark.text = "@" ∧ startsExpression t = true ∧
      t.fits first = true := by
  obtain ⟨_, _, rfl, hmark, hrest⟩ := reads_seq_cons.mp h
  obtain ⟨expression, lineEnd, rfl, hexpression, -⟩ := reads_seq_cons.mp hrest
  obtain ⟨mark, rfl, hfits⟩ := reads_terminal.mp hmark
  obtain ⟨t, first, rest, htokens, hfirst, hstarts⟩ :=
    exists_first_of_leads leads_leadingRules hexpression (by decide)
  simp only [Terminal.fits, Bool.and_eq_true, beq_iff_eq] at hfits
  refine ⟨mark, first, rest ++ tokensOfList lineEnd, t, ?_, hfits.1, hfits.2, hstarts, hfirst⟩
  rw [tokensOfList_append, tokensOfList_append, htokens]
  rfl

end DocAudit.Python
