import LinkGate.Files.System

/-!
# Programs

A program is given arguments and a file system, and leaves behind files, what it wrote to its error
stream, and a status.  `launch` finds it by name: a known command, else a path, and no file that a
path leads to may be run.  A `Script` is a program that is told beforehand what to leave behind.
-/

set_option autoImplicit false

namespace LinkGate

inductive ExitStatus where
  | code (number : Nat)
  | signal (number : Nat) (dumped : Bool)
  deriving DecidableEq, Repr

namespace ExitStatus

def signalNames : List String := [
  "SIGHUP", "SIGINT", "SIGQUIT", "SIGILL", "SIGTRAP", "SIGABRT", "SIGBUS", "SIGFPE", "SIGKILL",
  "SIGUSR1", "SIGSEGV", "SIGUSR2", "SIGPIPE", "SIGALRM", "SIGTERM", "SIGSTKFLT", "SIGCHLD",
  "SIGCONT", "SIGSTOP", "SIGTSTP", "SIGTTIN", "SIGTTOU", "SIGURG", "SIGXCPU", "SIGXFSZ",
  "SIGVTALRM", "SIGPROF", "SIGWINCH", "SIGIO", "SIGPWR", "SIGSYS"]

/-- Signals are numbered from one. -/
def signalName? (number : Nat) : Option String :=
  if number = 0 then none else signalNames[number - 1]?

/-- Signals that a program takes no notice of unless it asks for them; zero is no signal at all. -/
def unnoticed : List Nat := [0, 17, 18, 23, 28]

/-- The status of a program that is sent a signal before it would exit with a code. -/
def ofSignal (number exitCode : Nat) (dumped : Bool := false) : ExitStatus :=
  if number ∈ unnoticed then code exitCode else signal number dumped

def isSuccess (status : ExitStatus) : Bool :=
  status == code 0

def text : ExitStatus → String
  | code number => s!"exit status: {number}"
  | signal number dumped =>
    let name := ((signalName? number).map fun name => s!" ({name})").getD ""
    s!"signal: {number}{name}" ++ if dumped then " (core dumped)" else ""

end ExitStatus

structure Completion where
  files : FileSystem
  stderr : Bytes
  status : ExitStatus

abbrev Program := List Bytes → FileSystem → Completion

abbrev Commands := List (Bytes × Program)

/-- Why there is no command of a name.  Commands are looked for in directories, and there the names
`.` and `..` lead to directories. -/
def unknownCommand (name : Bytes) : IoError :=
  if name = Path.dot ∨ name = Path.dots then .denied
  else if FileSystem.longestName < name.length then .nameTooLong
  else .missing

def launch (commands : Commands) (files : FileSystem) (program : Path) (arguments : List Bytes) :
    Except IoError Completion :=
  if (program.bytes :: arguments).any (·.contains 0) then .error .zeroInArgument
  else
    match commands.lookup program.bytes with
    | some run => .ok (run arguments files)
    | none =>
      if program.bytes.contains Path.separator then
        match files.find program with
        | .error error => .error error
        | .ok _ => .error .denied
      else .error (unknownCommand program.bytes)

def outFlag : Bytes :=
  Utf8.encode "--out"

/-- The argument behind the last flag for the output directory. -/
def outDirectory? : List Bytes → Option Path
  | [] => none
  | [_] => none
  | flag :: value :: rest =>
    match outDirectory? (value :: rest) with
    | some path => some path
    | none => if flag = outFlag then some ⟨value⟩ else none

structure Script where
  /-- Files, and directories where there are no contents, by their paths in the output directory. -/
  outputs : List (Path × Option Bytes) := []
  stderr : Bytes := []
  status : ExitStatus := .code 0

namespace Script

/-- Leaves one output behind, if there is a way to. -/
def leave (out : Path) (files : FileSystem) (output : Path × Option Bytes) : FileSystem :=
  match files.add (out.join output.1) output.2 with
  | .error _ => files
  | .ok files => files

def program (script : Script) : Program := fun arguments files =>
  { files :=
      match outDirectory? arguments with
      | none => files
      | some out => script.outputs.foldl (leave out) files
    stderr := script.stderr
    status := script.status }

end Script

end LinkGate
