import LinkGate.CommandLine.Run

/-!
# The command

Reads the arguments, the environment and the files that the invocation names, runs it, and writes
what it printed.
-/

set_option autoImplicit false

namespace LinkGate

def helpText : String :=
  "Unsupported-feature gate and link configuration tool.\n\n" ++
  "Usage: nbridge [OPTIONS] <COMMAND>\n\n" ++
  "Commands:\n" ++
  "  features  List unsupported-feature markers and whether the build provides them\n" ++
  "  check     Check a call graph for reachable unsupported-feature markers\n" ++
  "  config    Print the resolved link configuration\n" ++
  "  help      Print this message or the help of the given subcommand(s)\n\n" ++
  "Options:\n" ++
  "  -v, --verbose  Log at debug level unless NBRIDGE_LOG says otherwise\n" ++
  "  -h, --help     Print help\n"

def usageText : String :=
  "error: these arguments make no command\n\n" ++
  "Usage: nbridge [OPTIONS] <COMMAND>\n\nFor more information, try '--help'.\n"

def IoError.ofFailure (failure : IO.Error) : IoError :=
  match failure with
  | .noFileOrDirectory .. => .missing
  | .permissionDenied .. => .denied
  | .inappropriateType _ code _ => if code = 20 then .notDirectory else .isDirectory
  | failure => .other failure.toString

def Path.readNow (path : Path) : IO (Except IoError Bytes) := do
  match Utf8.decode? path.bytes with
  | none => return .error .missing
  | some name =>
    match ← (IO.FS.readBinFile name).toBaseIO with
    | .ok contents => return .ok contents.toList
    | .error failure => return .error (.ofFailure failure)

/-- The files that a command may read. -/
def Command.paths (command : Command) : List Path :=
  let graph :=
    match command with
    | .check _ path _ => [path]
    | .features _ _ | .config _ => []
  command.link.config.toList ++ graph

def variableNames : List String :=
  logVariable :: LinkConfig.Setting.all.map LinkConfig.Setting.environmentName

/-- The part of the world that a command can look at. -/
def World.now (command : Command) : IO World := do
  let files ← command.paths.mapM fun path => return (path, ← path.readNow)
  let values ← variableNames.mapM fun name => return (name, ← IO.getEnv name)
  return {
    read := fun path => (files.lookup path).getD (.error .missing)
    environment := fun name => (values.lookup name).join.map Utf8.encode }

def Invocation.perform (invocation : Invocation) : IO UInt32 := do
  let world ← World.now invocation.command
  let ending := invocation.run world
  IO.eprint (invocation.errorStream world)
  IO.print ending.stdout
  return UInt32.ofNat ending.exitCode

end LinkGate

def main (arguments : List String) : IO UInt32 := do
  match LinkGate.Invocation.read (arguments.map LinkGate.Utf8.encode) with
  | .error .help =>
    IO.print LinkGate.helpText
    return 0
  | .error .usage =>
    IO.eprint LinkGate.usageText
    return 2
  | .ok invocation => invocation.perform
