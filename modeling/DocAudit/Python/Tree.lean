import DocAudit.Python.Grammar

/-!
# Python/Tree — reading tokens by the grammar

`Tree.read` reads the tokens of a source into a tree, or says on which line the source stops being
one. Only the rules that later stages look at become nodes; the tokens of all other rules join the
node around them.

The line of a fault is that of the first token that nothing can take. Three faults start earlier: a
bracket or string that is never closed is a fault where it opens, a block that lacks what has to
follow it is one at its head, and decorators without a definition are one at the first of them.
-/

namespace DocAudit.Python

/-- Tokens grouped by the rules that read them. -/
inductive Tree
  | leaf (t : Token)
  | node (r : Rule) (children : List Tree)

namespace Tree

/-- The rules that become nodes. -/
def isVisible : Rule → Bool
  | .simple | .suite | .decorated | .decorator | .functionDef | .classDef | .compound
  | .parameters | .parameter | .hint | .expressionStatement | .strings | .format => true
  | _ => false

/-- What reading a pattern gives. -/
structure Outcome where
  /-- The index of the last token at which a terminal did not fit. -/
  reached : Nat
  /-- The trees read and the tokens left, if the pattern fits. -/
  found : Option (List Tree × List Token)

namespace Outcome

/-- The outcome, with what an earlier attempt reached. -/
def after (o : Outcome) (reached : Nat) : Outcome :=
  { o with reached := max reached o.reached }

/-- The outcome with the trees found behind others. -/
def behind (o : Outcome) (trees : List Tree) : Outcome :=
  { o with found := o.found.map fun (more, rest) => (trees ++ more, rest) }

end Outcome

/-- Reads the pattern at the front of the tokens. Each step into a pattern takes one unit of
fuel. -/
def readPattern : (fuel : Nat) → Pattern → List Token → Outcome
  | 0, _, _ => ⟨0, none⟩
  | fuel + 1, p, ts =>
    match p with
    | .terminal t =>
      match ts with
      | [] => ⟨0, none⟩
      | token :: rest =>
        if t.fits token then ⟨0, some ([leaf token], rest)⟩ else ⟨token.index, none⟩
    | .rule r =>
      let o := readPattern fuel (grammar r) ts
      if isVisible r then
        { o with found := o.found.map fun (trees, rest) => ([node r trees], rest) }
      else o
    | .seq [] => ⟨0, some ([], ts)⟩
    | .seq (p :: ps) =>
      let o := readPattern fuel p ts
      match o.found with
      | none => o
      | some (trees, rest) => ((readPattern fuel (.seq ps) rest).behind trees).after o.reached
    | .alt [] => ⟨0, none⟩
    | .alt (p :: ps) =>
      let o := readPattern fuel p ts
      match o.found with
      | none => (readPattern fuel (.alt ps) ts).after o.reached
      | some _ => o
    | .many p =>
      let o := readPattern fuel p ts
      match o.found with
      | none => ⟨o.reached, some ([], ts)⟩
      | some (trees, rest) => ((readPattern fuel (.many p) rest).behind trees).after o.reached
    | .opt p =>
      let o := readPattern fuel p ts
      match o.found with
      | none => ⟨o.reached, some ([], ts)⟩
      | some _ => o
    | .ahead p =>
      let o := readPattern fuel p ts
      ⟨o.reached, o.found.map fun _ => ([], ts)⟩
    | .notAhead p =>
      let o := readPattern fuel p ts
      match o.found, ts with
      | none, _ => ⟨0, some ([], ts)⟩
      | some _, token :: _ => ⟨token.index, none⟩
      | some _, [] => ⟨0, none⟩

/-! ## Faults -/

/-- The lines of the brackets and formatted strings that are open behind the given tokens, the
innermost first. -/
def openLines : (opened : List Nat) → List Token → List Nat
  | opened, [] => opened
  | opened, t :: ts =>
    if t.kind == .formatStart ||
        (t.kind == .operator && ["(", "[", "\x7b"].contains t.text) then
      openLines (t.line :: opened) ts
    else if t.kind == .formatEnd ||
        (t.kind == .operator && [")", "]", "\x7d"].contains t.text) then
      openLines opened.tail ts
    else openLines opened ts

/-- The token in front of the tokens of the line that the given tokens end with, and the tokens
before it; the tokens come last first. -/
def lineHead : (head : Option Token) → List Token → Option Token × List Token
  | head, [] => (head, [])
  | head, t :: ts =>
    if t.kind == .newline || t.kind == .indent || t.kind == .dedent then (head, t :: ts)
    else lineHead (some t) ts

/-- What stands in front of the block that the given tokens close; the tokens come last first, and
`depth` blocks are open. -/
def beforeBlock : (depth : Nat) → List Token → List Token
  | _, [] => []
  | depth, t :: ts =>
    if t.kind == .dedent then beforeBlock (depth + 1) ts
    else if t.kind == .indent then if depth ≤ 1 then ts else beforeBlock (depth - 1) ts
    else beforeBlock depth ts

/-- The line on which the last of the decorators in front starts, going back from line to line; the
tokens come last first and start with the mark of a line end. -/
def decoratorLine : (line : Nat) → (fuel : Nat) → List Token → Nat
  | line, 0, _ => line
  | line, _ + 1, [] => line
  | line, fuel + 1, _ :: ts =>
    match lineHead none ts with
    | (some head, before) =>
      if head.kind == .operator && head.text == "@" then decoratorLine head.line fuel before
      else line
    | (none, _) => line

/-- The line of a fault at the token, when the given tokens stand in front of it, last first. -/
def faultAt (before : List Token) (t : Token) : Nat :=
  match before with
  | [] => t.line
  | last :: _ =>
    let heads := if last.kind == .dedent then beforeBlock 0 before else before
    if last.kind == .dedent || last.kind == .newline then
      match lineHead none (heads.drop 1) with
      | (some head, _) =>
        if head.kind == .word && head.text == "try" then head.line
        else if last.kind == .newline then decoratorLine t.line before.length before
        else t.line
      | (none, _) => t.line
    else t.line

/-- The line of the fault in tokens that could be read up to the given index. -/
def faultLine (ts : List Token) (reached : Nat) : Nat :=
  let line :=
    match ts.drop reached with
    | t :: _ => faultAt (ts.take reached).reverse t
    | [] => 1
  match (openLines [] ts).getLast? with
  | some opened => min line opened
  | none => line

/-! ## The whole source -/

/-- The tree of a source, or the line on which the source stops being valid. The fuel is enough for
any tokens: more of it changes nothing. -/
def read (ts : List Token) : Except Nat (List Tree) :=
  let o := readPattern (100 * (ts.length + 10)) (.rule .module) ts
  match o.found with
  | some (trees, _) => .ok trees
  | none => .error (faultLine ts o.reached)

end Tree

end DocAudit.Python
