import DocAudit.Definition
import DocAudit.Docstring
import DocAudit.Python.Module
import DocAudit.Report.Basic

/-!
# Extraction — the definitions of a source

The definitions of a source are the functions in the body of the module and in the bodies of its
classes, however deep those nest; functions inside other functions and inside other statements are
not documented by themselves. `extract` lists them in the order of the source, each under the names
of the classes around it.
-/

namespace DocAudit.Python

/-! ## Parameters -/

/-- The kind of a parameter without stars. -/
def plainKind (keywordOnly : Bool) : ParamKind :=
  if keywordOnly then .keywordOnly else .positional

/-- The parameters among the entries, when `position` parameters stand in front of them and
`keywordOnly` says whether a star has been passed. -/
def parametersFrom (position : Nat) (keywordOnly : Bool) : List ParameterNode → List Parameter
  | [] => []
  | .plain name hint hasDefault :: entries =>
    ⟨name, position, plainKind keywordOnly, hint, hasDefault⟩ ::
      parametersFrom (position + 1) keywordOnly entries
  | .star name hint :: entries =>
    ⟨name, position, .variadicPositional, hint, false⟩ :: parametersFrom (position + 1) true entries
  | .doubleStar name hint :: entries =>
    ⟨name, position, .variadicKeyword, hint, false⟩ ::
      parametersFrom (position + 1) keywordOnly entries
  | .bareStar :: entries => parametersFrom position true entries
  | .slash :: entries => parametersFrom position keywordOnly entries
  | .comment :: entries => parametersFrom position keywordOnly entries

/-- The parameters of a definition, in order. -/
def parametersOf (entries : List ParameterNode) : List Parameter :=
  parametersFrom 0 false entries

/-! ## Docstrings -/

/-- The docstring of a body: its first statement, if that is a literal with a content. -/
def docstring? : List Statement → Option String
  | .literal parts :: _ =>
    (parts.mapM fun part => Docstring.literalValue part.toList).bind fun contents =>
      Docstring.ofContent? contents.flatten
  | _ => none

/-! ## Definitions -/

/-- The text of a decorator behind its mark, trimmed. -/
def decoratorName (text : String) : List Char :=
  Text.trim (text.toList.dropWhile (· == '@'))

/-- The decorators make a function of a class a static one. -/
def isStatic (decorators : List String) : Bool :=
  decorators.any fun d => decoratorName d == "staticmethod".toList

/-- What the definitions of a source have in common. -/
structure Context where
  path : Path
  /-- The lines with a comment that switches the checks of its function off. -/
  suppressedLines : List Nat

/-- The definition of a function with the given head in the given classes, outermost first. -/
def definitionOf (ctx : Context) (classes : List String) (head : FunctionHead)
    (body : List Statement) : Definition where
  signature :=
    { qualifiedName := ".".intercalate (classes ++ [head.name])
      parameters := parametersOf head.parameters
      returnType := head.returnHint
      isMethod := !classes.isEmpty && !isStatic head.decorators
      location := ⟨ctx.path, head.line⟩ }
  docstring := docstring? body
  suppressed := ctx.suppressedLines.contains head.line

mutual

/-- The definitions of a statement in the given classes; `intoClasses` says whether the bodies of
classes count. -/
def definitions (ctx : Context) (intoClasses : Bool) (classes : List String) :
    Statement → List Definition
  | .function head body => [definitionOf ctx classes head body]
  | .classDef name _ body =>
    if intoClasses then definitionsOfList ctx intoClasses (classes ++ [name]) body else []
  | .literal _ => []
  | .compound _ => []
  | .simple => []

/-- The definitions of several statements in the given classes. -/
def definitionsOfList (ctx : Context) (intoClasses : Bool) (classes : List String) :
    List Statement → List Definition
  | [] => []
  | s :: ss =>
    definitions ctx intoClasses classes s ++ definitionsOfList ctx intoClasses classes ss

end

/-- One text stands somewhere in another. -/
def occursIn (part : List Char) : List Char → Bool
  | [] => part.isEmpty
  | c :: s => part.isPrefixOf (c :: s) || occursIn part s

/-- The lines with a comment that holds the marker; the empty marker is in none. -/
def suppressedLines (marker : String) (comments : List Comment) : List Nat :=
  if marker.isEmpty then []
  else (comments.filter fun c => occursIn marker.toList c.text.toList).map Comment.line

/-- The definitions of a module. -/
def Module.definitions (m : Module) (path : Path) (settings : Settings) : List Definition :=
  definitionsOfList ⟨path, suppressedLines settings.suppressionMarker m.comments⟩
    settings.includeMethods [] m.body

end DocAudit.Python

namespace DocAudit

/-- The definitions of a source text at a path. -/
def extract (path : Path) (settings : Settings) (source : String) :
    Except SourceError (List Definition) :=
  match Python.Module.parse source.toList with
  | .ok m => .ok (m.definitions path settings)
  | .error line => .error (.invalid path line)

/-- The report of a source text at a path. -/
def checkSource (path : Path) (settings : Settings) (source : String) : Report :=
  Report.ofExtraction path settings (extract path settings source)

end DocAudit
