/-!
The command line: two positional arguments, and options in any order. An
argument is taken into account when the next one begins, so that a fault of the
next one may come first.
-/

namespace PermissionAudit

/-- What can be given on the command line. -/
inductive Parameter where
  | debug
  | verbose
  | structuredLog
  | noFlowGraphs
  | distinctNodes
  | includeFramework
  | output
  | classFilter
  | methodFilter
  | callGraph
  | binary
  | permissions
deriving DecidableEq

/-- Parameters that have no value. -/
def Parameter.isFlag : Parameter → Bool
  | debug | verbose | structuredLog | noFlowGraphs | distinctNodes | includeFramework => true
  | _ => false

/-- Why no scan is started. -/
inductive UsageFault where
  | missingArgument
  | unknownArgument
  | missingValue
  | repeated
  | superfluousValue
  | helpRequested
  | versionRequested
deriving DecidableEq

/-- What a name on the command line asks for. -/
inductive Request where
  | parameter (p : Parameter)
  | help
  | version
deriving DecidableEq

/-- Names after two dashes. -/
def longNames : List (String × Request) :=
  [("debug", .parameter .debug), ("verbose", .parameter .verbose),
    ("ecslog", .parameter .structuredLog), ("no-cfg", .parameter .noFlowGraphs),
    ("distinct-nodes", .parameter .distinctNodes),
    ("include-framework", .parameter .includeFramework), ("output", .parameter .output),
    ("filter-class", .parameter .classFilter), ("filter-method", .parameter .methodFilter),
    ("callgraph", .parameter .callGraph), ("help", .help), ("version", .version)]

/-- Letters after one dash. -/
def shortNames : List (Char × Request) :=
  [('d', .parameter .debug), ('v', .parameter .verbose), ('e', .parameter .structuredLog),
    ('o', .parameter .output), ('h', .help), ('V', .version)]

/-- The arguments of a scan. -/
structure Arguments where
  binary : String
  permissions : String
  output : String
  classFilter : Option String
  methodFilter : Option String
  callGraph : Option String
  debug : Bool
  verbose : Bool
  structuredLog : Bool
  noFlowGraphs : Bool
  distinctNodes : Bool
  includeFramework : Bool
deriving DecidableEq

namespace Arguments

/-- The command line as far as it has been read. -/
structure Reading where
  /-- Parameters with their values, in order. -/
  given : List (Parameter × String) := []
  /-- A parameter that has not been taken into account, with its value if it has one. -/
  pending : Option (Parameter × Option String) := none
  /-- How many positional arguments there have been. -/
  positionals : Nat := 0
  /-- Whether only positional arguments may follow. -/
  positionalsOnly : Bool := false

namespace Reading

/-- Takes a parameter into account. -/
def commit (r : Reading) (p : Parameter) (value : Option String) : Except UsageFault Reading :=
  match value with
  | none => .error .missingValue
  | some value =>
    if r.given.any (·.1 = p) then .error .repeated
    else .ok { r with given := r.given ++ [(p, value)], pending := none }

/-- Takes the pending parameter into account. -/
def settle (r : Reading) : Except UsageFault Reading :=
  match r.pending with
  | none => .ok r
  | some (p, value) => r.commit p value

/-- The parameter that awaits its value. -/
def awaiting? (r : Reading) : Option Parameter :=
  match r.pending with
  | some (p, none) => some p
  | _ => none

/-- Takes a parameter into account at once. -/
def give (r : Reading) (p : Parameter) (value : String) : Except UsageFault Reading := do
  let r ← r.settle
  r.commit p (some value)

/-- A request without a value at hand. -/
def request (r : Reading) (q : Request) : Except UsageFault Reading := do
  match q with
  | .help => let _ ← r.settle; throw .helpRequested
  | .version => let _ ← r.settle; throw .versionRequested
  | .parameter p =>
    if p.isFlag then r.give p ""
    else
      let r ← r.settle
      return { r with pending := some (p, none) }

/-- An argument with two dashes; a value may follow an equals sign. -/
def long (r : Reading) (arg : List Char) : Except UsageFault Reading :=
  let name := arg.takeWhile (· ≠ '=')
  match longNames.lookup (String.ofList name), arg.drop name.length with
  | none, _ => .error .unknownArgument
  | some q, [] => r.request q
  | some (.parameter p), _ :: value =>
    if p.isFlag then .error .superfluousValue else r.give p (String.ofList value)
  | some _, _ => .error .superfluousValue

/-- Letters after one dash. The rest after the letter of an option is its value, with or
without an equals sign before it. -/
def short (r : Reading) : List Char → Except UsageFault Reading
  | [] => .ok r
  | c :: rest =>
    match shortNames.lookup c with
    | none => .error .unknownArgument
    | some (.parameter p) =>
      if p.isFlag then do
        let r ← r.give p ""
        r.short rest
      else
        match rest with
        | [] => r.request (.parameter p)
        | '=' :: value => r.give p (String.ofList value)
        | value => r.give p (String.ofList value)
    | some q => r.request q

/-- The parameters that are given by position. -/
def positionalOrder : List Parameter := [.binary, .permissions]

def positional (r : Reading) (arg : String) : Except UsageFault Reading :=
  match positionalOrder[r.positionals]? with
  | none => .error .unknownArgument
  | some p => do
    let r ← r.settle
    return { r with pending := some (p, some arg), positionals := r.positionals + 1 }

/-- An argument that is no option: a value that is awaited, or a positional one. -/
def plain (r : Reading) (arg : String) : Except UsageFault Reading :=
  match r.awaiting? with
  | some p => .ok { r with pending := some (p, some arg) }
  | none => r.positional arg

def step (r : Reading) (arg : String) : Except UsageFault Reading :=
  if r.positionalsOnly then r.positional arg
  else
    match arg.toList with
    | ['-', '-'] => .ok { r with positionalsOnly := true }
    | '-' :: '-' :: name => r.long name
    | ['-'] => r.plain arg
    | '-' :: letters => r.short letters
    | _ => r.plain arg

def value? (r : Reading) (p : Parameter) : Option String := r.given.lookup p

def has (r : Reading) (p : Parameter) : Bool := (r.value? p).isSome

end Reading

/-- The directory for the results if none is given. -/
def defaultOutput : String := "output"

/-- Reads the arguments of a command line. -/
def parse (args : List String) : Except UsageFault Arguments := do
  let r ← args.foldlM Reading.step {}
  let r ← r.settle
  match r.value? .binary, r.value? .permissions with
  | some binary, some permissions =>
    return {
      binary
      permissions
      output := (r.value? .output).getD defaultOutput
      classFilter := r.value? .classFilter
      methodFilter := r.value? .methodFilter
      callGraph := r.value? .callGraph
      debug := r.has .debug
      verbose := r.has .verbose
      structuredLog := r.has .structuredLog
      noFlowGraphs := r.has .noFlowGraphs
      distinctNodes := r.has .distinctNodes
      includeFramework := r.has .includeFramework }
  | _, _ => throw .missingArgument

end Arguments

end PermissionAudit
