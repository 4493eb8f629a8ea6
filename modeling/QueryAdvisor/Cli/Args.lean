import QueryAdvisor.Text.Jaro
/-!
# The command line

The program takes one positional argument, the query model to analyse (`-` for standard
input), and the options `--config <CONFIG>` (a configuration document, also taken from the
environment variable `ZQLZ_OPTIMIZER_CONFIG`), `--format <FORMAT>` (`table` or `json`),
`--verbose`, `--sql <SQL>` (SQL text instead of a query model, which excludes the query),
`--log-json`, `-h`/`--help` and `-V`/`--version`.

The arguments are read left to right. An option's value follows it, or comes after `=`; after
`--` every argument is positional. Help and version answer as soon as they are met, and a
malformed argument fails at once. After the last argument the configuration variable stands in
for a missing `--config` (an empty value is refused as a missing one), the query and the SQL
text may not both be given, and one of them must be.

A failure is reported as a message, sometimes a tip, the usage line, and a pointer to the
help. The usage line is the general one, or, once arguments have been accepted, one that
names them in the order they came, then the query, required if it was given.
-/

namespace QueryAdvisor

namespace Cli

/-- The program's name. -/
def programName : String := "zqlz-optimize"

/-- The program's version. -/
def programVersion : String := "0.1.0"

/-- The environment variable that names a configuration document. -/
def configVariable : String := "ZQLZ_OPTIMIZER_CONFIG"

/-- How the advice is printed. -/
inductive OutputFormat where
  | table
  | json
deriving DecidableEq, Repr

/-- The arguments of the command line. -/
inductive Arg where
  | query
  | config
  | format
  | verbose
  | sql
  | logJson
  | help
  | version
deriving DecidableEq, Repr

/-- How an argument is named in a message. -/
def Arg.display : Arg → String
  | .query => "[QUERY]"
  | .config => "--config <CONFIG>"
  | .format => "--format <FORMAT>"
  | .verbose => "--verbose"
  | .sql => "--sql <SQL>"
  | .logJson => "--log-json"
  | .help => "--help"
  | .version => "--version"

/-- How an argument is named in a usage line that requires it. -/
def Arg.required : Arg → String
  | .query => "<QUERY>"
  | a => a.display

/-- The options of a run. -/
structure Options where
  query : Option String := none
  config : Option String := none
  format : OutputFormat := .table
  verbose : Bool := false
  sql : Option String := none
  logJson : Bool := false
deriving Repr

/-- What the command line asks for. -/
inductive Command where
  | help
  | version
  | analyze (o : Options)

/-- The general usage line. -/
def generalUsage : String := programName ++ " [OPTIONS] [QUERY]"

/-- The usage line naming the arguments accepted so far, then the query: required if it was
given, optional otherwise. -/
def usageOf (used : List Arg) : String :=
  if used.isEmpty then generalUsage
  else
    let named := (used.filter (· != .query)).foldl (fun acc a => if acc.contains a then acc else acc ++ [a]) []
    programName ++ String.join (named.map (" " ++ ·.required)) ++
      (if used.contains .query then " <QUERY>" else " [QUERY]")

/-- The text of a failure: the message, a tip, the usage line, and the pointer to the help. -/
def failureText (message : String) (tip : Option String) (usage : Option String) : String :=
  "error: " ++ message ++ (match tip with | some t => "\n\n  tip: " ++ t | none => "") ++
    (match usage with | some u => "\n\nUsage: " ++ u | none => "") ++ "\n\nFor more information, try '--help'.\n"

/-- The help text; it shows the value of the configuration variable. -/
def helpText (env : List (String × String)) : String :=
  let shown := ((env.find? (·.1 == configVariable)).map (·.2)).getD ""
  "Suggest indexes, predicate order and join order for a query\n\nUsage: " ++ generalUsage ++
    "\n\nArguments:\n  [QUERY]  Query model as JSON; `-` reads from stdin\n\nOptions:\n" ++
    "      --config <CONFIG>  Optimizer configuration (TOML) [env: " ++ configVariable ++ "=" ++ shown ++ "]\n" ++
    "      --format <FORMAT>  Output format [default: table] [possible values: table, json]\n" ++
    "      --verbose          Detailed summary and debug logging\n" ++
    "      --sql <SQL>        SQL text to submit instead of a query model\n" ++
    "      --log-json         Write logs as JSON lines\n" ++
    "  -h, --help             Print help\n" ++
    "  -V, --version          Print version\n"

/-- The version line. -/
def versionText : String := programName ++ " " ++ programVersion ++ "\n"

/-- The long names of the arguments, as offered for a mistyped one. -/
def longNames : List String := ["config", "format", "verbose", "sql", "log-json", "help", "version"]

/-- The argument of a long name. -/
def argOfLong : String → Option Arg
  | "config" => some .config
  | "format" => some .format
  | "verbose" => some .verbose
  | "sql" => some .sql
  | "log-json" => some .logJson
  | "help" => some .help
  | "version" => some .version
  | _ => none

/-- What has been read of the command line. -/
structure Reading where
  options : Options := {}
  used : List Arg := []
  positionalOnly : Bool := false

/-- The failure for an argument that is not known, with the arguments used so far; a long
one may have a similar name to offer, which then counts as used. -/
def unknownArgument (token : String) (used : List Arg) (suggestion : Option String) : String :=
  match suggestion with
  | some name =>
    failureText ("unexpected argument '" ++ token ++ "' found")
      (some ("a similar argument exists: '--" ++ name ++ "'")) (some (usageOf (used ++ (argOfLong name).toList)))
  | none =>
    failureText ("unexpected argument '" ++ token ++ "' found")
      (some ("to pass '" ++ token ++ "' as a value, use '-- " ++ token ++ "'")) (some (usageOf used))

/-- Whether an argument takes no value. -/
def Arg.isFlag (a : Arg) : Bool :=
  a == .verbose || a == .logJson || a == .help || a == .version

/-- The failure for an option that is given no value. -/
def missingValue (a : Arg) : String :=
  failureText ("a value is required for '" ++ a.display ++ "' but none was supplied" ++
    (if a == .format then "\n  [possible values: table, json]" else "")) none none

/-- The failure for a value given to a flag, with the arguments used so far. -/
def unneededValue (a : Arg) (value : String) (used : List Arg) : String :=
  failureText ("unexpected value '" ++ value ++ "' for '" ++ a.display ++ "' found; no more were expected")
    none (some (usageOf (used ++ [a])))

/-- Splits the body of a long argument, after its dashes, into the name and the value after
the first `=`. -/
def splitLong (body : String) : String × Option String :=
  match body.splitOn "=" with
  | [n] => (n, none)
  | n :: more => (n, some ("=".intercalate more))
  | [] => (body, none)

/-- The failure when an option waiting for its value meets an argument that starts with a
dash: that argument is read as one of its own, so one that is not known is told as such, and
a flag given a value is told so; any other leaves the option without its value. The waiting
option is not among the arguments used. -/
def waitingFault (a : Arg) (token : String) (used : List Arg) : String :=
  if token == "--" then missingValue a
  else if token.startsWith "--" then
    let (name, inline) := splitLong (token.drop 2).toString
    match argOfLong name, inline with
    | none, _ => unknownArgument ("--" ++ name) used (closestName name longNames)
    | some b, some v => if b.isFlag then unneededValue b v used else missingValue a
    | some _, none => missingValue a
  else
    match (token.drop 1).toString.toList with
    | 'h' :: _ | 'V' :: _ | [] => missingValue a
    | c :: _ => unknownArgument ("-" ++ c.toString) [] none

/-- Reads the value of an option into the options. -/
def takeValue (r : Reading) (a : Arg) (value : String) : Except String Reading :=
  let o := r.options
  let used := r.used ++ [a]
  match a with
  | .config => if value.isEmpty then .error (missingValue a) else .ok { r with options := { o with config := some value }, used := used }
  | .sql => .ok { r with options := { o with sql := some value }, used := used }
  | .format =>
    if value == "table" then .ok { r with options := { o with format := .table }, used := used }
    else if value == "json" then .ok { r with options := { o with format := .json }, used := used }
    else if value.isEmpty then .error (missingValue a)
    else
      .error (failureText ("invalid value '" ++ value ++ "' for '" ++ a.display ++ "'\n  [possible values: table, json]")
        ((closestName value ["table", "json"]).map (fun v => "a similar value exists: '" ++ v ++ "'")) none)
  | _ => .ok r

/-- The failure for an argument given twice. -/
def givenTwice (a : Arg) : String :=
  failureText ("the argument '" ++ a.display ++ "' cannot be used multiple times") none (some generalUsage)

/-- Reads the arguments from left to right. -/
def readArgs (env : List (String × String)) : List String → Reading → Except String (Command ⊕ Reading)
  | [], r => .ok (.inr r)
  | token :: rest, r =>
    let positional : Except String (Command ⊕ Reading) :=
      match r.options.query with
      | some _ => .error (failureText ("unexpected argument '" ++ token ++ "' found") none (some generalUsage))
      | none =>
        if token.isEmpty then
          .error (failureText "a value is required for '[QUERY]' but none was supplied" none none)
        else readArgs env rest { r with options := { r.options with query := some token }, used := r.used ++ [.query] }
    if r.positionalOnly then positional
    else if token == "--" then readArgs env rest { r with positionalOnly := true }
    else if token.startsWith "--" then
      let (name, inline) := splitLong (token.drop 2).toString
      match argOfLong name with
      | none => .error (unknownArgument ("--" ++ name) r.used (closestName name longNames))
      | some a =>
        match inline, a.isFlag with
        | some v, true => .error (unneededValue a v r.used)
        | _, _ =>
          if a == .help then .ok (.inl .help)
          else if a == .version then .ok (.inl .version)
          else if r.used.contains a then .error (givenTwice a)
          else if a.isFlag then
            let o := r.options
            let o := if a == .verbose then { o with verbose := true } else { o with logJson := true }
            readArgs env rest { r with options := o, used := r.used ++ [a] }
          else
            match inline with
            | some v => do
              let r ← takeValue r a v
              readArgs env rest r
            | none =>
              match rest with
              | v :: more =>
                if v.startsWith "-" && v != "-" then .error (waitingFault a v r.used)
                else do
                  let r ← takeValue r a v
                  readArgs env more r
              | [] => .error (missingValue a)
    else if token.startsWith "-" && token != "-" then
      match (token.drop 1).toString.toList with
      | 'h' :: _ => .ok (.inl .help)
      | 'V' :: _ => .ok (.inl .version)
      | c :: _ => .error (unknownArgument ("-" ++ c.toString) [] none)
      | [] => positional
    else positional

/-- Reads a command line with its environment. -/
def parse (args : List String) (env : List (String × String)) : Except String Command := do
  match ← readArgs env args {} with
  | .inl c => .ok c
  | .inr r =>
    let fromEnv := (env.find? (·.1 == configVariable)).map (·.2)
    let r ← match r.options.config, fromEnv with
      | none, some "" =>
        .error (missingValue .config)
      | none, some path =>
        .ok { r with options := { r.options with config := some path }, used := r.used ++ [Arg.config] }
      | _, _ => .ok r
    let o := r.options
    if o.query.isSome && o.sql.isSome then
      let first := (r.used.find? (fun a => a == Arg.query || a == Arg.sql)).getD Arg.query
      let other : Arg := if first == .query then .sql else .query
      .error (failureText ("the argument '" ++ first.display ++ "' cannot be used with '" ++ other.display ++ "'") none
        (some (usageOf (r.used.filter (· != other)))))
    else if o.query.isNone && o.sql.isNone then
      .error (failureText "the following required arguments were not provided:\n  <QUERY>" none
        (some (usageOf (r.used ++ [.query]))))
    else .ok (.analyze o)

end Cli

end QueryAdvisor
