import QueryAdvisor.Cli.Run
/-!
# The program

The program reads its command line, the configuration variable, the files the command line
names and, for the query `-`, its standard input; the run itself is `Cli.run`.
-/

open QueryAdvisor

/-- The system's words for the error numbers a read can end with. -/
def errorWords : Nat → Option String
  | 2 => some "No such file or directory"
  | 13 => some "Permission denied"
  | 20 => some "Not a directory"
  | 21 => some "Is a directory"
  | _ => none

/-- The system's message for a failed read, with its error number; some reads report the
number negated. -/
def readFailure (e : IO.Error) : String :=
  let number : Option UInt32 :=
    match e with
    | .noFileOrDirectory _ code _ | .permissionDenied _ code _
    | .inappropriateType _ code _ | .otherError code _ => some code
    | _ => none
  let described := number.bind fun code =>
    let n := if code.toNat < 2147483648 then code.toNat else 4294967296 - code.toNat
    (errorWords n).map (· ++ " (os error " ++ toString n ++ ")")
  described.getD (toString e)

/-- Reads a file, or the message of its failure. -/
def readText (path : String) : IO (Except String String) := do
  try
    return .ok (← IO.FS.readFile path)
  catch e =>
    return .error (readFailure e)

/-- Reads a stream to its end. -/
partial def readAll (stream : IO.FS.Stream) (acc : String) : IO String := do
  let line ← stream.getLine
  if line.isEmpty then return acc else readAll stream (acc ++ line)

def main (args : List String) : IO UInt32 := do
  let env := match ← IO.getEnv Cli.configVariable with
    | some v => [(Cli.configVariable, v)]
    | none => []
  let (paths, needsStdin) := match Cli.parse args env with
    | .ok (.analyze o) =>
      (o.config.toList ++ (if o.sql.isNone then (o.query.filter (· != "-")).toList else []),
        o.sql.isNone && o.query == some "-")
    | _ => ([], false)
  let stdinText ← if needsStdin then readAll (← IO.getStdin) "" else pure ""
  let files ← paths.mapM (fun p => do return (p, ← readText p))
  let read (p : String) : Except String String := ((files.find? (·.1 == p)).map (·.2)).getD (.error Cli.missingFile)
  let out := Cli.run args env stdinText read
  IO.print out.stdout
  IO.eprint out.stderr
  return out.status.toUInt32
