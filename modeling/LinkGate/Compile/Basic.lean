import LinkGate.Compile.Program
import LinkGate.Json.Record
import LinkGate.Text.Blank

/-!
# Compilations and their errors

A compiler is given a source text or a directory of sources and gives the files it made, in the
order of their paths, or an error with a position.  A program that fails may say where on its error
stream: the first line that is a JSON record of a position and a message is the error.  Without such
a line the error is all that the program wrote, and if that is blank, its status.
-/

set_option autoImplicit false

namespace LinkGate

open Json (FieldReader Record Reader)

structure CompilerError where
  position : Int
  message : String
  deriving DecidableEq, Repr

inductive CompileInput where
  | source (text : String)
  | directory (path : Path)
  deriving DecidableEq, Repr

namespace CompilerError

def noPosition : Int := -1

def unplaced (message : String) : CompilerError :=
  ⟨noPosition, message⟩

def text (error : CompilerError) : String :=
  s!"{error.position}: {error.message}"

structure Slots where
  position : Option Int := none
  message : Option String := none

def fields : List (FieldReader Slots) := [
  .slot "position" true Reader.int32 (·.position) (fun s x => { s with position := some x }),
  .slot "message" true Reader.string (·.message) (fun s x => { s with message := some x })]

/-- An error as one line.  Other fields are ignored. -/
def record : Record Slots CompilerError where
  name := "ErrorLine"
  fields := fields
  strict := false
  empty := {}
  build s := ⟨s.position.getD noPosition, s.message.getD ""⟩

/-- The error that a line holds, blanks around it left aside. -/
def ofLine? (line : String) : Option CompilerError :=
  (record.reader.run (Utf8.encode (trim line))).toOption

/-- The error of a program that failed.  Only a line feed ends a line. -/
def ofFailure (stderr : Bytes) (status : ExitStatus) : CompilerError :=
  let said := Utf8.decodeLossy stderr
  let lines := (pieces '\n' said.toList).map String.ofList
  match lines.findSome? ofLine? with
  | some error => error
  | none =>
    if trim said = "" then unplaced s!"compiler exited with {status.text}"
    else unplaced (trim said)

end CompilerError

/-- Any way to produce paths is a compiler, once its paths are put in order. -/
def compileBy (produce : CompileInput → Except CompilerError (List Path)) (input : CompileInput) :
    Except CompilerError (List Path) :=
  (produce input).map Path.sort

end LinkGate
