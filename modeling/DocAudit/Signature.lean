import DocAudit.Path

/-!
# Signature — functions as they are declared

The declared side of every check: a function with its parameters, its return type and the place
where it stands. Positions count the parameters from zero; `Signature.withParameter` hands them out.
The receiver of a method (`self` or `cls` in the first position) is bound by the call and is not
expected to be documented.
-/

namespace DocAudit

/-- A line of a file. -/
structure Location where
  file : Path
  line : Nat
deriving DecidableEq, Repr

/-- Locations compare by path and then by line. -/
instance : Ord Location :=
  ⟨compareLex (compareOn Location.file) (compareOn Location.line)⟩

/-- How a parameter takes arguments. -/
inductive ParamKind
  | positional
  | keywordOnly
  | variadicPositional
  | variadicKeyword
deriving DecidableEq, Repr

namespace ParamKind

/-- How many stars a parameter of this kind is written with. -/
def starCount : ParamKind → Nat
  | variadicPositional => 1
  | variadicKeyword => 2
  | positional | keywordOnly => 0

/-- The stars that a parameter of this kind is written with. -/
def stars (k : ParamKind) : List Char :=
  List.replicate k.starCount '*'

end ParamKind

/-- One declared parameter. -/
structure Parameter where
  name : String
  position : Nat
  kind : ParamKind
  declaredType : Option String
  hasDefault : Bool
deriving DecidableEq, Repr

namespace Parameter

/-- A positional parameter with neither type nor default. -/
def plain (name : String) (position : Nat) : Parameter :=
  ⟨name, position, .positional, none, false⟩

/-- The parameter as it is written in its declaration. -/
def written (p : Parameter) : String :=
  String.ofList (p.kind.stars ++ p.name.toList)

end Parameter

/-- A function as it is declared. -/
structure Signature where
  qualifiedName : String
  parameters : List Parameter
  returnType : Option String
  isMethod : Bool
  location : Location
deriving DecidableEq, Repr

namespace Signature

/-- A function without parameters and without a declared return type. -/
def bare (qualifiedName : String) (location : Location) : Signature :=
  ⟨qualifiedName, [], none, false, location⟩

/-- The signature with one more parameter, which gets the next position. -/
def withParameter (s : Signature) (p : Parameter) : Signature :=
  { s with parameters := s.parameters ++ [{ p with position := s.parameters.length }] }

/-- The receiver of a method, which every call binds by itself. -/
def isReceiver (s : Signature) (p : Parameter) : Bool :=
  s.isMethod && p.position == 0 && (p.name == "self" || p.name == "cls")

/-- The parameters that have to be documented, in declaration order. -/
def expected (s : Signature) : List Parameter :=
  s.parameters.filter fun p => !s.isReceiver p

end Signature

end DocAudit
