/-!
# Python/Statement — sources as trees of statements

A source is a list of statements, with its comments beside it. Statements keep what matters for
documentation: definitions with their heads and bodies, and string literals, which may be
docstrings. Every other statement is there for the statements in its blocks alone.
-/

namespace DocAudit.Python

/-- One entry between the parentheses of a function definition. The stars alone decide the name and
the kind of a parameter; a type or a default beside the name changes neither. So one form covers a
starred name with and without a type, and one covers a plain name with and without a type or a
default. -/
inductive ParameterNode
  /-- A name, with the text of its type and a default where they are given. -/
  | plain (name : String) (hint : Option String) (hasDefault : Bool)
  /-- A name behind one star, with the text of its type where one is given. -/
  | star (name : String) (hint : Option String)
  /-- A name behind two stars, with the text of its type where one is given. -/
  | doubleStar (name : String) (hint : Option String)
  /-- The mark behind the parameters that take positions only. -/
  | slash
  /-- The mark in front of the parameters that take keywords only. -/
  | bareStar
  | comment
deriving DecidableEq, Repr

/-- The head of a function definition. -/
structure FunctionHead where
  name : String
  /-- The line of `def`, or of `async` in front of it. -/
  line : Nat
  /-- The texts of its decorators, from their mark to the end of their lines. -/
  decorators : List String
  parameters : List ParameterNode
  returnHint : Option String
deriving DecidableEq, Repr

/-- A statement. -/
inductive Statement
  | function (head : FunctionHead) (body : List Statement)
  | classDef (name : String) (line : Nat) (body : List Statement)
  /-- An expression whose first part is a string literal, or several in a row. -/
  | literal (parts : List String)
  /-- Any other statement with blocks; the statements of all its blocks. -/
  | compound (statements : List Statement)
  | simple
deriving Repr

/-- A comment and the line it stands on, counted from one. -/
structure Comment where
  line : Nat
  text : String
deriving DecidableEq, Repr

/-- A source: its statements and its comments. -/
structure Module where
  body : List Statement
  comments : List Comment
deriving Repr

end DocAudit.Python
