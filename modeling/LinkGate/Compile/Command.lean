import LinkGate.Compile.Basic

/-!
# Compiling by a command

Every compilation has a run directory of its own below `outRoot`, named after the process and a
count.  The source text is staged in it, then the command is run with its own arguments, the flag
for the output directory and the sources.  What it leaves in its output directory is the result.
-/

set_option autoImplicit false

namespace LinkGate

structure CommandCompiler where
  program : Path
  arguments : List String
  outRoot : Path
  sourceFileName : String

structure Workshop where
  files : FileSystem
  process : Nat
  runs : Nat

/-- One compilation: its result, the arguments that the program was started with, if it was, and
what is left. -/
structure Attempt where
  result : Except CompilerError (List Path)
  started : Option (List Bytes)
  workshop : Workshop

def FileSystem.artifacts (files : FileSystem) (base : Path) : Except CompilerError (List Path) :=
  match files.list base with
  | .ok paths => .ok paths
  | .error (path, error) =>
    .error (.unplaced
      s!"walk {base.text}: IO error for operation on {path.text}: {error.message}")

def Completion.result (completion : Completion) (out : Path) :
    Except CompilerError (List Path) :=
  if completion.status.isSuccess then completion.files.artifacts out
  else .error (.ofFailure completion.stderr completion.status)

def Workshop.runName (workshop : Workshop) : String :=
  s!"run_{workshop.process}_{workshop.runs}"

namespace CommandCompiler

def runDirectory (compiler : CommandCompiler) (workshop : Workshop) : Path :=
  compiler.outRoot.join (.ofText workshop.runName)

def outDirectory (run : Path) : Path :=
  run.join (.ofText "out")

def sourceDirectory (run : Path) : Path :=
  run.join (.ofText "src")

def sourcePath (compiler : CommandCompiler) (run : Path) : Path :=
  (sourceDirectory run).join (.ofText compiler.sourceFileName)

/-- Writes a source text.  Directories made for it stay when the file cannot be written. -/
def writeSource (compiler : CommandCompiler) (run : Path) (files : FileSystem) (text : String) :
    Except IoError Path × FileSystem :=
  match files.makeDirectories (sourceDirectory run) with
  | (.error error, files) => (.error error, files)
  | (.ok (), files) =>
    match files.write (compiler.sourcePath run) (Utf8.encode text) with
    | .error error => (.error error, files)
    | .ok files => (.ok (compiler.sourcePath run), files)

def stage (compiler : CommandCompiler) (run : Path) (files : FileSystem) :
    CompileInput → Except CompilerError (List Path) × FileSystem
  | .directory base => (files.artifacts base, files)
  | .source text =>
    match compiler.writeSource run files text with
    | (.ok path, files) => (.ok [path], files)
    | (.error error, files) =>
      (.error (.unplaced s!"write {(compiler.sourcePath run).text}: {error.message}"), files)

def commandLine (compiler : CommandCompiler) (run : Path) (sources : List Path) : List Bytes :=
  compiler.arguments.map Utf8.encode ++ outFlag :: (outDirectory run).bytes ::
    sources.map Path.bytes

def compile (compiler : CommandCompiler) (commands : Commands) (workshop : Workshop)
    (input : CompileInput) : Attempt :=
  let run := compiler.runDirectory workshop
  let left (files : FileSystem) : Workshop :=
    { workshop with files := files, runs := workshop.runs + 1 }
  match workshop.files.makeDirectories (outDirectory run) with
  | (.error error, files) =>
    ⟨.error (.unplaced s!"create {run.text}: {error.message}"), none, left files⟩
  | (.ok (), files) =>
    match compiler.stage run files input with
    | (.error error, files) => ⟨.error error, none, left files⟩
    | (.ok sources, files) =>
      let arguments := compiler.commandLine run sources
      match launch commands files compiler.program arguments with
      | .error error =>
        ⟨.error (.unplaced s!"run {compiler.program.text}: {error.message}"), none, left files⟩
      | .ok completion =>
        ⟨completion.result (outDirectory run), some arguments, left completion.files⟩

def compileAll (compiler : CommandCompiler) (commands : Commands) :
    Workshop → List CompileInput → List Attempt
  | _, [] => []
  | workshop, input :: rest =>
    let attempt := compiler.compile commands workshop input
    attempt :: compiler.compileAll commands attempt.workshop rest

end CommandCompiler

end LinkGate
