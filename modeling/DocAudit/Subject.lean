import DocAudit.Signature
import DocAudit.Text.Word

/-!
# Subject — the parameter that a field names

The subject of a `:param:` or `:type:` field names a parameter. It should look like an identifier
with at most two stars in front; a variadic parameter answers to its bare name and to its name with
its own stars, every other parameter to its bare name only.
-/

namespace DocAudit.Subject

open DocAudit.Text

/-- The text without the at most two stars in front of it. -/
def dropStars : List Char → List Char
  | '*' :: '*' :: s => s
  | '*' :: s => s
  | s => s

/-- A word that starts with no digit. -/
def isIdentifier : List Char → Bool
  | [] => false
  | c :: s => isWord c && !isDigit c && s.all isWord

/-- The text reads as an identifier with at most two stars in front. -/
def isIdentifierLike (subject : String) : Bool :=
  isIdentifier (dropStars subject.toList)

/-- The parameter answers to a name written with the given stars in front. -/
def answersTo (stars bare : List Char) (p : Parameter) : Bool :=
  p.name.toList == bare && (stars.isEmpty || p.kind.stars == stars)

/-- The first parameter that answers to the subject. -/
def resolve? (expected : List Parameter) (subject : String) : Option Parameter :=
  let isStar : Char → Bool := (· == '*')
  expected.find? (answersTo (subject.toList.takeWhile isStar) (subject.toList.dropWhile isStar))

end DocAudit.Subject
