import DocAudit.Python.Lexeme
import DocAudit.Python.Statement

/-!
# Python/Token — the tokens of a source, with its layout

`tokens` turns lexemes into tokens: blanks go, comments are attached to the token behind them, and
the layout of the lines becomes tokens of its own. A block opens where a line that ends in a colon
is followed by a deeper one; it closes in front of the first line that stands further left than the
block does. Deeper lines elsewhere do not count, and a line that ends in an operator runs on.
-/

namespace DocAudit.Python

/-- What a token is. -/
inductive TokenKind
  | word
  | number
  | string
  | formatStart
  | formatText
  | formatEnd
  | operator
  | newline
  | indent
  | dedent
  | endOfFile
  | invalid
deriving DecidableEq, Repr

/-- A token and its place in the source. -/
structure Token where
  kind : TokenKind
  text : String
  /-- The line it starts on, counted from one. -/
  line : Nat
  /-- How many characters stand in front of it. -/
  start : Nat
  /-- How many characters stand in front of what follows it. -/
  stop : Nat
  /-- The comments between the token before it and this one. -/
  comments : List Comment
  /-- How many tokens stand in front of it. -/
  index : Nat := 0
deriving DecidableEq, Repr

/-- The token kind of a lexeme that is one. -/
def LexemeKind.token? : LexemeKind → Option TokenKind
  | .word => some .word
  | .number => some .number
  | .string => some .string
  | .formatStart => some .formatStart
  | .formatText => some .formatText
  | .formatEnd => some .formatEnd
  | .operator => some .operator
  | .invalid => some .invalid
  | .blank | .comment | .lineEnd => none

/-! ## Layout -/

/-- What has been read of the lines so far. -/
structure Layout where
  line : Nat := 1
  offset : Nat := 0
  /-- The width of the blanks that the line starts with, as far as they have been read. -/
  column : Nat := 0
  /-- The columns of the open blocks, the innermost first. -/
  blocks : List Nat := []
  /-- The last token, if there is one. -/
  last : Option Token := none
  /-- The token before the last. -/
  beforeLast : Option Token := none
  /-- The line of the last token has ended. -/
  ended : Bool := false
  /-- Where the text of that line ended, a comment included. -/
  lineStop : Nat := 0
  comments : List Comment := []

/-- The width of blanks at the start of a line: a tab is eight wide, and a form feed or a carriage
return starts anew. -/
def widen (column : Nat) : List Char → Nat
  | [] => column
  | c :: s =>
    if c = ' ' then widen (column + 1) s
    else if c = '\t' then widen (column + 8) s
    else if c = '\r' ∨ c.toNat = 12 then widen 0 s
    else column

namespace Layout

/-- The column of the innermost block. -/
def margin (l : Layout) : Nat :=
  l.blocks.headD 0

/-- The layout behind the given characters. -/
def advance (l : Layout) (text : List Char) : Layout :=
  { l with line := l.line + text.count '\n', offset := l.offset + text.length }

/-- Operators that something has to follow, so that a line cannot end in them. -/
def runsOn (before : Option Token) (t : Token) : Bool :=
  t.kind == .operator &&
    !([")", "]", "\x7d", ":", ",", ";", "...", "@"].contains t.text) &&
    !(t.text == "*" && (before.map Token.text) == some "import")

/-- A token without text that marks the layout. -/
def mark (l : Layout) (kind : TokenKind) (line place : Nat) : Token :=
  { kind, text := "", line, start := place, stop := place, comments := l.comments }

/-- The columns of the blocks that stay open when a line starts in the given column. -/
def stillOpen (l : Layout) (column : Nat) : List Nat :=
  l.blocks.dropWhile fun block => column < block

/-- The marks between the last line and a line that starts in the given column. -/
def marksBefore (l : Layout) (column : Nat) : List Token × Layout :=
  match l.last with
  | none => ([], l)
  | some last =>
    if !l.ended || (runsOn l.beforeLast last && l.margin ≤ column) then
      ([], { l with ended := false })
    else
      let newline := l.mark .newline last.line l.lineStop
      let next := { l with ended := false, comments := [] }
      if last.text == ":" && l.margin < column then
        ([newline, next.mark .indent l.line l.offset], { next with blocks := column :: l.blocks })
      else
        let kept := l.stillOpen column
        (newline ::
            List.replicate (l.blocks.length - kept.length) (next.mark .dedent l.line l.offset),
          { next with blocks := kept })

/-- The marks at the end of the source. -/
def marksAtEnd (l : Layout) : List Token :=
  match l.last with
  | none => [l.mark .endOfFile l.line l.offset]
  | some last =>
    let closed := { l with comments := [] }
    l.mark .newline last.line l.lineStop ::
      (List.replicate l.blocks.length (closed.mark .dedent last.line l.offset) ++
        [closed.mark .endOfFile last.line l.offset])

/-- The tokens of the lexemes behind the given layout. -/
def tokensFrom (l : Layout) : List Lexeme → List Token
  | [] => l.marksAtEnd
  | ⟨kind, text⟩ :: rest =>
    let next := l.advance text
    match kind with
    | .blank => tokensFrom { next with column := widen l.column text } rest
    | .lineEnd => tokensFrom { next with column := 0, ended := l.last.isSome } rest
    | .comment =>
      let comment : Comment := ⟨l.line, String.ofList text⟩
      tokensFrom
        { next with
          comments := l.comments ++ [comment]
          lineStop := if l.ended then l.lineStop else next.offset } rest
    | kind =>
      let (marks, l) := l.marksBefore l.column
      let token : Token :=
        { kind := kind.token?.getD .invalid
          text := String.ofList text
          line := l.line
          start := l.offset
          stop := next.offset
          comments := l.comments }
      marks ++ token :: tokensFrom
        { next with
          blocks := l.blocks, last := some token, beforeLast := l.last, ended := false
          lineStop := next.offset, comments := [] } rest

end Layout

/-- The tokens of a source, each with its index. -/
def tokens (source : List Char) : List Token :=
  (Layout.tokensFrom {} (lexemes source)).zipIdx.map fun (t, i) => { t with index := i }

end DocAudit.Python
