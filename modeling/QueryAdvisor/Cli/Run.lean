import QueryAdvisor.Cli.Args
import QueryAdvisor.Report
import QueryAdvisor.Analysis
import QueryAdvisor.Config.Toml
import QueryAdvisor.Query.Text
/-!
# Running the command line

A run reads the configuration document if one is named, turns on the detailed summary for
`--verbose`, then analyses the SQL text or the query model, read from its file or from
standard input, and prints the advice as tables or as indented JSON.

A run that fails prints, on the error stream, what it was doing, a blank line, and the cause
indented under `Caused by:`, and ends with status 1. A malformed command line ends with
status 2, and help and version with status 0.

The run itself touches nothing: it is given the standard input and a way to read a file,
whose failure is the system's message.
-/

namespace QueryAdvisor

namespace Cli

/-- What a run prints and how it ends. -/
structure Outcome where
  status : Nat
  stdout : String
  stderr : String

/-- The message for a file that does not exist. -/
def missingFile : String := "No such file or directory (os error 2)"

/-- A failed run: what it was doing and the cause, each line of the cause indented. -/
def failure (context cause : String) : Outcome :=
  ⟨1, "", "Error: " ++ context ++ "\n\nCaused by:\n    " ++ "\n    ".intercalate (cause.splitOn "\n") ++ "\n"⟩

/-- Runs the analysis that the options ask for. -/
def execute (o : Options) (stdin : String) (read : String → Except String String) : Outcome :=
  let attempt : Except Outcome Advice := do
    let c ← match o.config with
      | none => pure ({} : Config)
      | some path =>
        match read path with
        | .error cause => .error (failure ("failed to read config " ++ path) cause)
        | .ok text =>
          match Config.ofToml text with
          | .ok c => pure c
          | .error e => .error (failure ("failed to load config " ++ path) e.message)
    let c := if o.verbose then { c with verbose := true } else c
    match c.validate with
    | .error e => .error (failure "invalid optimizer configuration" e.message)
    | .ok _ => pure ()
    match o.sql, o.query with
    | some _, _ => pure (Advice.forSqlText c.target)
    | none, none => .error (failure "either a query file or --sql is required" "")
    | none, some path =>
      let source ← if path == "-" then pure stdin
        else match read path with
          | .ok text => pure text
          | .error cause => .error (failure ("failed to read query " ++ path) cause)
      let q ← match Query.read source with
        | .ok q => pure q
        | .error cause => .error (failure ("failed to parse query model " ++ path) cause)
      match analyze c {} q with
      | .ok a => pure a
      | .error e => .error (failure "query analysis failed" e.message)
  match attempt with
  | .error out => out
  | .ok a =>
    match o.format with
    | .table => ⟨0, a.report ++ "\n", ""⟩
    | .json => ⟨0, a.toJson.pretty ++ "\n", ""⟩

/-- Runs the program on a command line, an environment, the standard input and a way to read
a file. -/
def run (args : List String) (env : List (String × String)) (stdin : String)
    (read : String → Except String String) : Outcome :=
  match parse args env with
  | .error text => ⟨2, "", text⟩
  | .ok .help => ⟨0, helpText env, ""⟩
  | .ok .version => ⟨0, versionText, ""⟩
  | .ok (.analyze o) => execute o stdin read

/-- What a path leads to from a working directory that holds plain files and nothing else. -/
inductive Place where
  /-- The working directory, or one above it. -/
  | directory (above : Bool)
  /-- One of the files, by name. -/
  | file (name : String)
  /-- Nothing there. -/
  | missing
  /-- A path that goes on past a file. -/
  | pastFile
deriving Repr, DecidableEq

/-- One step of a path: empty and `.` parts stay, `..` climbs out of the working directory
into the directories above it, whose contents are not known, and any part after a file,
even an empty one, goes past it. -/
def Place.step (names : List String) : Place → String → Place
  | .file _, _ => .pastFile
  | .directory above, part =>
    if part == "" || part == "." then .directory above
    else if part == ".." then .directory true
    else if !above && names.contains part then .file part
    else .missing
  | p, _ => p

/-- Where a path leads: an empty path leads nowhere, and one that starts with a slash starts
above the working directory. -/
def Place.ofPath (names : List String) (path : String) : Place :=
  if path.isEmpty then .missing
  else (path.splitOn "/").foldl (Place.step names) (.directory (path.startsWith "/"))

/-- Reads a file from a list of named contents, the last of a name winning, with the
system's message for a path that does not lead to a file. -/
def readFrom (files : List (String × String)) (path : String) : Except String String :=
  match Place.ofPath (files.map (·.1)) path with
  | .file name =>
    match files.reverse.find? (·.1 == name) with
    | some (_, text) => .ok text
    | none => .error missingFile
  | .directory _ => .error "Is a directory (os error 21)"
  | .pastFile => .error "Not a directory (os error 20)"
  | .missing => .error missingFile

end Cli

end QueryAdvisor
