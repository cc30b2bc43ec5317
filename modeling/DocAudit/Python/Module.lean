import DocAudit.Python.Tree

/-!
# Python/Module — from the text of a source to its statements

`Module.parse` reads a source into tokens, the tokens into a tree and the tree into statements.
Texts of types and decorators are taken from the source as they stand, from their first token to
their last.

Comments belong to the token behind them. One in front of a parameter is an entry of its own; one
inside a parameter is passed over, so that a parameter with stars is named by the word behind them
also where a comment and a line break stand in between.
-/

namespace DocAudit.Python

namespace Tree

mutual

/-- The tokens of a tree, in order. -/
def tokens : Tree → List Token
  | leaf t => [t]
  | node _ children => tokensOfList children

/-- The tokens of several trees, in order. -/
def tokensOfList : List Tree → List Token
  | [] => []
  | tree :: trees => tree.tokens ++ tokensOfList trees

end

/-- The text of a source from the first token of a tree to its last. -/
def text (source : List Char) (tree : Tree) : String :=
  match tree.tokens.head?, tree.tokens.getLast? with
  | some first, some last =>
    String.ofList ((source.drop first.start).take (last.stop - first.start))
  | _, _ => ""

/-- The tree is a single token with the given text. -/
def isToken (text : String) : Tree → Bool
  | leaf t => t.text == text && t.kind != .string
  | node _ _ => false

/-- The children of the first node of the rule. -/
def childrenOf? (r : Rule) : List Tree → Option (List Tree)
  | [] => none
  | node r' children :: trees => if r = r' then some children else childrenOf? r trees
  | leaf _ :: trees => childrenOf? r trees

/-- The text of the type in the first node of that rule. -/
def hint? (source : List Char) (trees : List Tree) : Option String :=
  (childrenOf? .hint trees).map fun children => text source (node .hint children)

/-! ## Heads of definitions -/

/-- The text of the token behind the first one with the given text. -/
def wordBehind (text : String) : List Tree → String
  | mark :: leaf t :: trees =>
    if mark.isToken text then t.text else wordBehind text (leaf t :: trees)
  | _ :: trees => wordBehind text trees
  | [] => ""

/-- The entry that the parts of a parameter denote. -/
def entryOf (source : List Char) (parts : List Tree) : ParameterNode :=
  match parts with
  | leaf mark :: rest =>
    match mark.text, rest with
    | "/", _ => .slash
    | "*", [] => .bareStar
    | "*", leaf name :: rest => .star name.text (hint? source rest)
    | "**", leaf name :: rest => .doubleStar name.text (hint? source rest)
    | name, rest => .plain name (hint? source rest) (rest.any (isToken "="))
  | _ => .comment

/-- An entry for each comment in front of a token. -/
def commentEntries (t : Option Token) : List ParameterNode :=
  match t with
  | some t => t.comments.map fun _ => .comment
  | none => []

/-- The entries between the parentheses of a definition. -/
def entries (source : List Char) : List Tree → List ParameterNode
  | [] => []
  | node .parameter parts :: trees =>
    commentEntries (tokensOfList parts).head? ++ entryOf source parts :: entries source trees
  | tree :: trees => commentEntries tree.tokens.head? ++ entries source trees

/-- The head of a function definition with the given parts. -/
def headOf (source : List Char) (decorators : List String) (parts : List Tree) : FunctionHead where
  name := wordBehind "def" parts
  line := ((tokensOfList parts).head?.map Token.line).getD 0
  decorators := decorators
  parameters := entries source ((childrenOf? .parameters parts).getD [])
  returnHint := hint? source parts

/-- The texts of the decorators among the trees. -/
def decoratorsOf (source : List Char) : List Tree → List String
  | [] => []
  | node .decorator children :: trees =>
    text source (node .decorator children) :: decoratorsOf source trees
  | _ :: trees => decoratorsOf source trees

/-! ## Statements -/

/-- The texts of the literals among the trees. -/
def literalTexts (source : List Char) (trees : List Tree) : List String :=
  trees.map (text source)

/-- The statement that the parts of a simple statement denote. -/
def simpleOf (source : List Char) (parts : List Tree) : Statement :=
  match parts with
  | [node .expressionStatement (node .strings literals :: rest)] =>
    match rest with
    | [] => .literal (literalTexts source literals)
    | tree :: _ => if tree.isToken "," then .literal (literalTexts source literals) else .simple
  | _ => .simple

mutual

/-- The statements that a tree denotes, under the given decorators. -/
def statements (source : List Char) (decorators : List String) : Tree → List Statement
  | leaf _ => []
  | node .simple parts => [simpleOf source parts]
  | node .functionDef parts =>
    [.function (headOf source decorators parts) (statementsOfList source [] parts)]
  | node .classDef parts =>
    [.classDef (wordBehind "class" parts)
      (((tokensOfList parts).head?.map Token.line).getD 0) (statementsOfList source [] parts)]
  | node .decorated parts => statementsOfList source (decoratorsOf source parts) parts
  | node .compound parts => [.compound (statementsOfList source [] parts)]
  | node .suite parts => statementsOfList source [] parts
  | node _ _ => []

/-- The statements that several trees denote, under the given decorators. -/
def statementsOfList (source : List Char) (decorators : List String) :
    List Tree → List Statement
  | [] => []
  | tree :: trees => tree.statements source decorators ++ statementsOfList source decorators trees

end

end Tree

/-- The statements and comments of a source, or the line on which it stops being valid. -/
def Module.parse (source : List Char) : Except Nat Module :=
  let ts := tokens source
  (Tree.read ts).map fun trees =>
    { body := Tree.statementsOfList source [] trees
      comments := ts.flatMap Token.comments }

end DocAudit.Python
