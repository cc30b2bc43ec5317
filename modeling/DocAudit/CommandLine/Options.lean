import DocAudit.Record.Report

/-!
# CommandLine/Options — the arguments of the command

Options and paths may be mixed; `--` makes everything behind it a path. An option with a value takes
it from the same argument (`--jobs=2`, `-j2`, `-j=2`) or from the next one, which may not look like
an option. Arguments are read from left to right, and the first fault ends the reading; so does the
request for the version.
-/

namespace DocAudit.CommandLine

/-- What the arguments ask for. -/
structure Options where
  /-- The paths to check, as far as any are given. -/
  paths : List Path := []
  config : Option Path := none
  ignore : List Category := []
  requireRtypeForNone : Bool := false
  /-- Whether methods are checked, if one of the two switches is given; the last one counts. -/
  methods : Option Bool := none
  jobs : Option Nat := none
  format : Option ReportFormat := none
  noColor : Bool := false
  /-- How often more talk was asked for. -/
  verbosity : Nat := 0

/-- How reading the arguments ends early. -/
inductive Stop
  /-- The arguments are not what the command takes. -/
  | usage
  /-- The version is asked for. -/
  | version
deriving DecidableEq, Repr

/-- Switches, which take no value. -/
inductive Switch
  | requireRtypeForNone
  | methods
  | noMethods
  | noColor
  | verbose
  | version
deriving DecidableEq, Repr

/-- Options with a value. -/
inductive Setting
  | config
  | ignore
  | jobs
  | format
deriving DecidableEq, Repr

/-- An option by one of its names. -/
inductive Name
  | switch (s : Switch)
  | setting (s : Setting)
deriving DecidableEq, Repr

/-- The option with a long name. -/
def ofLong? : String → Option Name
  | "config" => some (.setting .config)
  | "ignore" => some (.setting .ignore)
  | "jobs" => some (.setting .jobs)
  | "format" => some (.setting .format)
  | "require-rtype-for-none" => some (.switch .requireRtypeForNone)
  | "methods" => some (.switch .methods)
  | "no-methods" => some (.switch .noMethods)
  | "no-color" => some (.switch .noColor)
  | "verbose" => some (.switch .verbose)
  | "version" => some (.switch .version)
  | _ => none

/-- The option with a one-letter name. -/
def ofShort? : Char → Option Name
  | 'j' => some (.setting .jobs)
  | 'f' => some (.setting .format)
  | 'v' => some (.switch .verbose)
  | 'V' => some (.switch .version)
  | _ => none

/-! ## Single options -/

/-- The options with a switch thrown. Only `--verbose` may be repeated; each of the two switches for
methods takes the other one back. -/
def Options.throw (o : Options) : Switch → Except Stop Options
  | .requireRtypeForNone =>
    if o.requireRtypeForNone then .error .usage else .ok { o with requireRtypeForNone := true }
  | .methods => if o.methods = some true then .error .usage else .ok { o with methods := some true }
  | .noMethods =>
    if o.methods = some false then .error .usage else .ok { o with methods := some false }
  | .noColor => if o.noColor then .error .usage else .ok { o with noColor := true }
  | .verbose => .ok { o with verbosity := o.verbosity + 1 }
  | .version => .error .version

/-- A number of 64 bits in decimal digits, perhaps with a plus in front. -/
def number? (s : List Char) : Option Nat :=
  let digits := if s.head? = some '+' then s.tail else s
  if digits.isEmpty || !digits.all Char.isDigit then none
  else
    let n := digits.foldl (fun n c => 10 * n + (c.toNat - 48)) 0
    if n < UInt64.size then some n else none

/-- The options with one set to a value. Only `--ignore` may be repeated, and no path is empty. -/
def Options.set (o : Options) (setting : Setting) (value : List Char) : Except Stop Options :=
  let usage : Except Stop Options := .error .usage
  match setting with
  | .config =>
    if o.config.isSome || value.isEmpty then usage
    else .ok { o with config := some ⟨String.ofList value⟩ }
  | .ignore =>
    match Category.ofLabel? (String.ofList value) with
    | some c => .ok { o with ignore := o.ignore ++ [c] }
    | none => usage
  | .jobs =>
    match o.jobs, number? value with
    | none, some n => .ok { o with jobs := some n }
    | _, _ => usage
  | .format =>
    match o.format, ReportFormat.ofLabel? (String.ofList value) with
    | none, some format => .ok { o with format := some format }
    | _, _ => usage

/-- The options with one more path. -/
def Options.addPath (o : Options) (path : List Char) : Except Stop Options :=
  if path.isEmpty then .error .usage else .ok { o with paths := o.paths ++ [⟨String.ofList path⟩] }

/-! ## Arguments -/

/-- The options behind one argument, and the setting whose value the next argument has to be. -/
abbrev Step :=
  Except Stop (Options × Option Setting)

/-- One-letter options in one argument; what follows a setting is its value. -/
def readShort (o : Options) : List Char → Step
  | [] => .ok (o, none)
  | c :: rest =>
    match ofShort? c with
    | none => .error .usage
    | some (.switch s) =>
      match o.throw s with
      | .ok o => readShort o rest
      | .error stop => .error stop
    | some (.setting s) =>
      match rest with
      | [] => .ok (o, some s)
      | '=' :: value => (o.set s value).map fun o => (o, none)
      | value => (o.set s value).map fun o => (o, none)

/-- An option by its long name, perhaps with its value. -/
def readLong (o : Options) (s : List Char) : Step :=
  let name := s.takeWhile (· != '=')
  match ofLong? (String.ofList name), (s.drop name.length).tail? with
  | none, _ => .error .usage
  | some (.switch w), none => (o.throw w).map fun o => (o, none)
  | some (.switch _), some _ => .error .usage
  | some (.setting w), none => .ok (o, some w)
  | some (.setting w), some value => (o.set w value).map fun o => (o, none)

/-- The argument looks like an option. -/
def looksLikeOption : List Char → Bool
  | '-' :: _ :: _ => true
  | _ => false

/-- The options that the arguments give; `awaited` is the setting whose value comes next. -/
def readFrom (o : Options) : (awaited : Option Setting) → List (List Char) → Except Stop Options
  | none, [] => .ok o
  | some _, [] => .error .usage
  | some s, arg :: args =>
    if looksLikeOption arg then .error .usage
    else
      match o.set s arg with
      | .ok o => readFrom o none args
      | .error stop => .error stop
  | none, arg :: args =>
    match arg with
    | ['-', '-'] => args.foldlM Options.addPath o
    | '-' :: '-' :: name =>
      match readLong o name with
      | .ok (o, awaited) => readFrom o awaited args
      | .error stop => .error stop
    | '-' :: c :: letters =>
      match readShort o (c :: letters) with
      | .ok (o, awaited) => readFrom o awaited args
      | .error stop => .error stop
    | path =>
      match o.addPath path with
      | .ok o => readFrom o none args
      | .error stop => .error stop

/-- The options that the arguments give. -/
def Options.read (args : List String) : Except Stop Options :=
  readFrom {} none (args.map String.toList)

end DocAudit.CommandLine
