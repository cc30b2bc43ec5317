import DocAudit.Json.Basic
import DocAudit.Signature

/-!
# Record/Signature — signatures as JSON records

The names of the record members are part of the format. A declared type that is absent is written as
`null` and may be left out on reading.
-/

namespace DocAudit

namespace Path

/-- The text of the path. -/
def toJson (p : Path) : Json :=
  .string p.text

/-- Reads `Path.toJson`. -/
def ofJson? (j : Json) : Option Path :=
  j.string?.map Path.mk

end Path

namespace Location

/-- The record of a location. -/
def toJson (l : Location) : Json :=
  .object [("file", l.file.toJson), ("line", .natural l.line)]

/-- Reads `Location.toJson`. -/
def ofJson? (j : Json) : Option Location := do
  let j ← j.record? 2 ["file", "line"]
  let file ← j.required Path.ofJson? "file"
  let line ← j.required Json.natural? "line"
  some { file, line }

end Location

namespace ParamKind

/-- All kinds of parameters. -/
def all : List ParamKind :=
  [positional, keywordOnly, variadicPositional, variadicKeyword]

/-- The name of a kind in records. -/
def label : ParamKind → String
  | positional => "positional"
  | keywordOnly => "keyword_only"
  | variadicPositional => "variadic_positional"
  | variadicKeyword => "variadic_keyword"

/-- The name of a kind. -/
def toJson (k : ParamKind) : Json :=
  .string k.label

/-- Reads `ParamKind.toJson`. -/
def ofJson? (j : Json) : Option ParamKind :=
  j.oneOf? label all

end ParamKind

namespace Parameter

/-- The record of a parameter. -/
def toJson (p : Parameter) : Json :=
  .object
    [("name", .string p.name), ("position", .natural p.position), ("kind", p.kind.toJson),
      ("declared_type", .ofOption .string p.declaredType), ("has_default", .bool p.hasDefault)]

/-- Reads `Parameter.toJson`. -/
def ofJson? (j : Json) : Option Parameter := do
  let j ← j.record? 5 ["name", "position", "kind", "declared_type", "has_default"]
  let name ← j.required Json.string? "name"
  let position ← j.required Json.natural? "position"
  let kind ← j.required ParamKind.ofJson? "kind"
  let declaredType ← j.optional Json.string? "declared_type"
  let hasDefault ← j.required Json.bool? "has_default"
  some { name, position, kind, declaredType, hasDefault }

end Parameter

namespace Signature

/-- The record of a signature. -/
def toJson (s : Signature) : Json :=
  .object
    [("qualified_name", .string s.qualifiedName),
      ("parameters", .ofList Parameter.toJson s.parameters),
      ("return_type", .ofOption .string s.returnType), ("is_method", .bool s.isMethod),
      ("location", s.location.toJson)]

/-- Reads `Signature.toJson`. -/
def ofJson? (j : Json) : Option Signature := do
  let j ← j.record? 5 ["qualified_name", "parameters", "return_type", "is_method", "location"]
  let qualifiedName ← j.required Json.string? "qualified_name"
  let parameters ← j.required (Json.list? Parameter.ofJson?) "parameters"
  let returnType ← j.optional Json.string? "return_type"
  let isMethod ← j.required Json.bool? "is_method"
  let location ← j.required Location.ofJson? "location"
  some { qualifiedName, parameters, returnType, isMethod, location }

end Signature

end DocAudit
