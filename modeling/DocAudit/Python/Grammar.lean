import DocAudit.Python.Token

/-!
# Python/Grammar — the grammar of Python, as patterns over tokens

A pattern describes a stretch of tokens; `grammar` gives the pattern of each rule. Choices are
ordered: the first alternative that fits is taken. The patterns are written so that no alternative
is read again inside itself, hence reading is fast although nothing is remembered.

Words that only start or join statements may name things where no statement can start, a block may
be left out behind a header, and `print` and `exec` still start statements as they once did.

Other old or loose forms are refused: a tuple as a parameter (`def f((a, b)): ...`), `async` and
`await` as names of operands, and `x as y` as an expression, outside imports, `with`, `except` and
patterns.
-/

namespace DocAudit.Python

/-! ## Patterns -/

/-- A single token of a pattern. -/
inductive Terminal
  | operator (text : String)
  | keyword (text : String)
  /-- Any word at all. -/
  | anyWord
  /-- A word that may name an operand. -/
  | operandName
  /-- A word that starts a statement of its own. -/
  | statementWord
  | ofKind (kind : TokenKind)
deriving DecidableEq, Repr

/-- The token fits. -/
def Terminal.fits : Terminal → Token → Bool
  | operator text, t => t.kind == .operator && t.text == text
  | keyword text, t => t.kind == .word && t.text == text
  | anyWord, t => t.kind == .word
  | operandName, t => t.kind == .word && !expressionWords.contains t.text
  | statementWord, t => t.kind == .word && statementWords.contains t.text
  | ofKind kind, t => t.kind == kind

/-- The rules of the grammar. -/
inductive Rule
  | module | statement | simpleLine | simple | suite
  | decorated | decorator | functionDef | classDef | compound
  | parameters | parameter | hint | typeParameters
  | expressionStatement | assignment | assigned | value
  | expressions | starExpression | expression | disjunction | inversion | comparison | operand
  | lambda | lambdaParameter | yieldExpression
  | primary | trailer | memberTrailer | atom | strings | format | replacement | specification
  | group | listDisplay | braceDisplay | comprehension | argument | arguments | subscripts
  | targets | target | targetAtom
  | elseBlock | exceptBlock | finallyBlock | withItems | withItem | caseBlock
  | casePattern | closedPattern | casePatterns
  | dottedName | importName
deriving DecidableEq, Repr

/-- A description of a stretch of tokens. -/
inductive Pattern
  | terminal (t : Terminal)
  | rule (r : Rule)
  /-- One pattern behind the other. -/
  | seq (ps : List Pattern)
  /-- The first of the patterns that fits. -/
  | alt (ps : List Pattern)
  /-- The pattern as often as it fits. -/
  | many (p : Pattern)
  /-- The pattern or nothing. -/
  | opt (p : Pattern)
  /-- Nothing, if the pattern fits here. -/
  | ahead (p : Pattern)
  /-- Nothing, if the pattern does not fit here. -/
  | notAhead (p : Pattern)

namespace Pattern

/-- An operator or delimiter. -/
def op (text : String) : Pattern :=
  terminal (.operator text)

/-- One of several operators. -/
def oneOp (texts : List String) : Pattern :=
  alt (texts.map op)

/-- A reserved word. -/
def kw (text : String) : Pattern :=
  terminal (.keyword text)

/-- A token of a kind. -/
def ofKind (kind : TokenKind) : Pattern :=
  terminal (.ofKind kind)

/-- Any word. -/
def anyWord : Pattern :=
  terminal .anyWord

/-- The pattern once or more. -/
def some (p : Pattern) : Pattern :=
  seq [p, many p]

/-- The pattern once or more with commas between, and perhaps one behind. -/
def commas (p : Pattern) : Pattern :=
  seq [p, many (seq [op ",", p]), opt (op ",")]

/-- The items of a display behind the first: a comprehension, or more items. -/
def displayTail (item : Pattern) : Pattern :=
  alt [rule .comprehension, seq [many (seq [op ",", item]), opt (op ",")]]

/-- What a trailer can start with. -/
def trailerStart : Pattern :=
  oneOp [".", "(", "["]

/-- What an operand can start with where no operator and no trailer can stand. -/
def operandStart : Pattern :=
  alt
    [ofKind .number, ofKind .string, ofKind .formatStart, terminal .operandName,
      oneOp ["\x7b", "~", "..."], alt [kw "None", kw "True", kw "False", kw "lambda"]]

/-- A binary operator, comparisons included. -/
def binaryOperator : Pattern :=
  alt
    [oneOp ["+", "-", "*", "/", "%", "@", "&", "|", "^", "<<", ">>", "**", "//", "<", ">", "<=",
        ">=", "==", "!=", "<>"],
      kw "in", seq [kw "not", kw "in"], seq [kw "is", opt (kw "not")]]

/-- The operators of assignments that change their target. -/
def updateOperator : Pattern :=
  oneOp ["+=", "-=", "*=", "/=", "//=", "%=", "@=", "**=", "&=", "|=", "^=", ">>=", "<<="]

/-- A slice behind its first bound. -/
def sliceTail : Pattern :=
  seq [op ":", opt (rule .expression), opt (seq [op ":", opt (rule .expression)])]

/-- An entry of a dictionary. -/
def dictEntry : Pattern :=
  alt [seq [op "**", rule .expression], seq [rule .expression, op ":", rule .expression]]

/-- A number of a case pattern, with its sign and an imaginary part. -/
def signedNumber : Pattern :=
  seq [opt (op "-"), ofKind .number, opt (seq [oneOp ["+", "-"], ofKind .number])]

/-- A name with an `as` behind it that renames it. -/
def renamed (p : Pattern) : Pattern :=
  seq [p, opt (seq [kw "as", anyWord])]

/-- A stretch in brackets. -/
def bracketed (left : String) (p : Pattern) (right : String) : Pattern :=
  seq [op left, p, op right]

end Pattern

/-! ## Rules -/

section

open Pattern

/-- The pattern of each rule. -/
def grammar : Rule → Pattern
  -- statements
  | .module => seq [many (rule .statement), ofKind .endOfFile]
  | .statement =>
    alt [rule .decorated, rule .functionDef, rule .classDef, rule .compound, rule .simpleLine]
  | .simpleLine =>
    seq [rule .simple, many (seq [op ";", rule .simple]), opt (op ";"), ofKind .newline]
  | .suite =>
    alt [rule .simpleLine,
      seq [ofKind .newline, ofKind .indent, some (rule .statement), ofKind .dedent],
      ofKind .newline]
  | .simple =>
    alt [alt [kw "pass", kw "break", kw "continue"],
      seq [kw "return", opt (rule .expressions)],
      seq [kw "raise", opt (seq [rule .expressions, opt (seq [kw "from", rule .expression])])],
      seq [alt [kw "global", kw "nonlocal"], commas anyWord],
      seq [kw "del", rule .expressions],
      seq [kw "assert", commas (rule .expression)],
      seq [kw "import", commas (rule .importName)],
      seq [kw "from",
        alt [seq [some (oneOp [".", "..."]), opt (seq [notAhead (kw "import"), rule .dottedName])],
          rule .dottedName],
        kw "import",
        alt [op "*", bracketed "(" (commas (renamed anyWord)) ")", commas (renamed anyWord)]],
      seq [kw "type", anyWord, opt (rule .typeParameters), op "=", rule .expression],
      seq [kw "print", ahead operandStart, commas (rule .expression)],
      seq [kw "exec", alt [ofKind .string, terminal .operandName],
        opt (seq [kw "in", commas (rule .expression)])],
      seq [notAhead (terminal .statementWord), alt [rule .assignment, rule .expressionStatement]]]
  | .dottedName => seq [anyWord, many (seq [op ".", anyWord])]
  | .importName => renamed (rule .dottedName)
  | .expressionStatement => rule .value
  | .assignment =>
    seq [rule .targets,
      alt [seq [op "=", rule .assigned],
        seq [op ":", rule .hint, opt (seq [op "=", rule .assigned])],
        seq [updateOperator, rule .value]]]
  | .assigned => alt [seq [rule .targets, op "=", rule .assigned], rule .value]
  | .value => alt [rule .yieldExpression, rule .expressions]
  -- definitions
  | .decorated => seq [some (rule .decorator), alt [rule .functionDef, rule .classDef]]
  | .decorator => seq [op "@", rule .expression, ofKind .newline]
  | .functionDef =>
    seq [opt (kw "async"), kw "def", anyWord, opt (rule .typeParameters), op "(", rule .parameters,
      op ")", opt (seq [op "->", rule .hint]), op ":", rule .suite]
  | .classDef =>
    seq [kw "class", anyWord, opt (rule .typeParameters),
      opt (bracketed "(" (opt (rule .arguments)) ")"), op ":", rule .suite]
  | .typeParameters =>
    bracketed "["
      (commas (seq [opt (oneOp ["*", "**"]), anyWord, opt (seq [op ":", rule .expression])])) "]"
  | .parameters => opt (commas (rule .parameter))
  | .parameter =>
    alt [seq [op "**", anyWord, opt (seq [op ":", rule .hint])],
      seq [op "*", opt (seq [anyWord, opt (seq [op ":", rule .hint])])],
      op "/",
      seq [anyWord, opt (seq [op ":", rule .hint]), opt (seq [op "=", rule .expression])]]
  | .hint => alt [seq [oneOp ["*", "**"], rule .expression], rule .expression]
  -- compound statements
  | .compound =>
    alt [seq [kw "if", rule .expression, op ":", rule .suite,
        many (seq [kw "elif", rule .expression, op ":", rule .suite]), opt (rule .elseBlock)],
      seq [kw "while", rule .expression, op ":", rule .suite, opt (rule .elseBlock)],
      seq [opt (kw "async"), kw "for", rule .targets, kw "in", rule .expressions, op ":",
        rule .suite, opt (rule .elseBlock)],
      seq [kw "try", op ":", rule .suite,
        alt [seq [some (rule .exceptBlock), opt (rule .elseBlock), opt (rule .finallyBlock)],
          rule .finallyBlock]],
      seq [opt (kw "async"), kw "with", rule .withItems, rule .suite],
      seq [kw "match", rule .expressions, op ":", ofKind .newline, ofKind .indent,
        some (rule .caseBlock), ofKind .dedent]]
  | .elseBlock => seq [kw "else", op ":", rule .suite]
  | .exceptBlock =>
    seq [kw "except", opt (op "*"),
      opt (seq [rule .expression, opt (seq [alt [kw "as", op ","], rule .expression])]), op ":",
      rule .suite]
  | .finallyBlock => seq [kw "finally", op ":", rule .suite]
  | .withItems =>
    alt [seq [bracketed "(" (commas (rule .withItem)) ")", op ":"],
      seq [commas (rule .withItem), op ":"]]
  | .withItem => seq [rule .expression, opt (seq [kw "as", rule .target])]
  | .caseBlock =>
    seq [kw "case", rule .casePatterns, opt (seq [kw "if", rule .expression]), op ":", rule .suite]
  | .casePatterns => commas (rule .casePattern)
  | .casePattern =>
    renamed (seq [rule .closedPattern, many (seq [op "|", rule .closedPattern])])
  | .closedPattern =>
    alt [seq [oneOp ["*", "**"], anyWord], signedNumber, rule .strings,
      alt [kw "None", kw "True", kw "False"],
      seq [terminal .operandName, many (seq [op ".", anyWord]),
        opt (bracketed "("
          (opt (commas (alt [seq [anyWord, op "=", rule .casePattern], rule .casePattern]))) ")")],
      bracketed "(" (opt (rule .casePatterns)) ")",
      bracketed "[" (opt (rule .casePatterns)) "]",
      bracketed "\x7b"
        (opt (commas (alt [seq [op "**", anyWord],
          seq [rule .casePattern, op ":", rule .casePattern]]))) "\x7d"]
  -- expressions
  | .expressions => commas (rule .starExpression)
  | .starExpression => alt [seq [op "*", rule .expression], rule .expression]
  | .expression =>
    alt [seq [terminal .operandName, op ":=", rule .expression],
      seq [rule .disjunction,
        opt (seq [kw "if", rule .disjunction, kw "else", rule .expression])]]
  | .disjunction => seq [rule .inversion, many (seq [alt [kw "and", kw "or"], rule .inversion])]
  | .inversion => alt [seq [kw "not", rule .inversion], rule .lambda, rule .comparison]
  | .comparison => seq [rule .operand, many (seq [binaryOperator, rule .operand])]
  | .operand =>
    alt [seq [alt [oneOp ["-", "+", "~"], kw "await"], rule .operand], rule .primary]
  | .lambda =>
    seq [kw "lambda", opt (commas (rule .lambdaParameter)), op ":", rule .expression]
  | .lambdaParameter =>
    alt [seq [op "**", anyWord], seq [op "*", opt anyWord], op "/",
      seq [anyWord, opt (seq [op "=", rule .expression])]]
  | .yieldExpression =>
    seq [kw "yield", alt [seq [kw "from", rule .expression], opt (rule .expressions)]]
  | .primary => seq [rule .atom, many (rule .trailer)]
  | .trailer =>
    alt [rule .memberTrailer, bracketed "(" (opt (rule .arguments)) ")"]
  | .memberTrailer => alt [seq [op ".", anyWord], bracketed "[" (rule .subscripts) "]"]
  | .arguments => commas (rule .argument)
  | .argument =>
    alt [seq [oneOp ["*", "**"], rule .expression], seq [anyWord, op "=", rule .expression],
      seq [rule .expression, opt (rule .comprehension)]]
  | .subscripts =>
    commas (alt [seq [op "*", rule .expression], seq [rule .expression, opt sliceTail], sliceTail])
  | .atom =>
    alt [terminal .operandName, ofKind .number, rule .strings, op "...",
      alt [kw "None", kw "True", kw "False"], rule .group, rule .listDisplay, rule .braceDisplay]
  | .strings => some (alt [ofKind .string, rule .format])
  | .format =>
    seq [ofKind .formatStart, many (alt [ofKind .formatText, rule .replacement]),
      ofKind .formatEnd]
  | .replacement =>
    bracketed "\x7b"
      (seq [rule .value, opt (op "="), opt (seq [op "!", anyWord]), opt (rule .specification)])
      "\x7d"
  | .specification => seq [op ":", many (alt [ofKind .formatText, rule .replacement])]
  | .group =>
    bracketed "("
      (opt (alt [rule .yieldExpression,
        seq [rule .starExpression, displayTail (rule .starExpression)]])) ")"
  | .listDisplay =>
    bracketed "[" (opt (seq [rule .starExpression, displayTail (rule .starExpression)])) "]"
  | .braceDisplay =>
    bracketed "\x7b"
      (opt (alt [seq [op "**", rule .expression, displayTail dictEntry],
        seq [rule .starExpression,
          alt [seq [op ":", rule .expression, displayTail dictEntry],
            displayTail (rule .starExpression)]]])) "\x7d"
  | .comprehension =>
    some (alt [seq [opt (kw "async"), kw "for", rule .targets, kw "in", rule .expression],
      seq [kw "if", rule .expression]])
  -- targets of assignments and loops
  | .targets => commas (rule .target)
  | .target => seq [opt (op "*"), rule .targetAtom]
  | .targetAtom =>
    alt [seq [terminal .operandName, notAhead trailerStart],
      seq [bracketed "(" (opt (rule .targets)) ")", notAhead trailerStart],
      seq [bracketed "[" (opt (rule .targets)) "]", notAhead trailerStart],
      seq [rule .atom, many (seq [rule .trailer, ahead trailerStart]), rule .memberTrailer]]

end

end DocAudit.Python
