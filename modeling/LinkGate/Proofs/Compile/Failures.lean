import LinkGate.Proofs.Compile.Artifacts
import LinkGate.Proofs.Compile.ErrorLines
import LinkGate.Proofs.Json.OneLine
import LinkGate.Proofs.Text.Lossy

/-!
# Why a program failed

A program that fails is believed on the first line of its error stream that is an error.  Lines are
cut from the bytes, so that nothing that stands on one line touches another, not even bytes that are
no text.  Without such a line the whole stream is the message, or the status if the stream is blank.
-/

set_option autoImplicit false

namespace LinkGate

namespace CompilerError

open Json

/-- A line of an error stream that is an error. -/
def Reads (line : Bytes) (error : CompilerError) : Prop :=
  ErrorLine (Utf8.encode (trim (Utf8.decodeLossy line))) error

/-- A line that is the object of a position and a message, in any spelling. -/
def States (line : Bytes) (error : CompilerError) : Prop :=
  ∃ members position message,
    Document (Utf8.encode (trim (Utf8.decodeLossy line))) (.object members) ∧
      members.Perm [("position", position), ("message", message)] ∧
      position.IsInt32 error.position ∧ message.IsText error.message

/-- An error as a program may print it. -/
def printed (error : CompilerError) : Bytes :=
  Utf8.encode (Json.object [("position", .integer error.position),
    ("message", .string error.message)]).text

/-- The error of a program that failed. -/
inductive Told (stderr : Bytes) (status : ExitStatus) : CompilerError → Prop where
  | line {before behind : List Bytes} {line : Bytes} {error : CompilerError}
    (lines : pieces Utf8.lineFeed stderr = before ++ line :: behind)
    (earlier : ∀ line ∈ before, ∀ error, ¬Reads line error) (reads : Reads line error) :
    Told stderr status error
  | whole (noLine : ∀ line ∈ pieces Utf8.lineFeed stderr, ∀ error, ¬Reads line error)
    (said : trim (Utf8.decodeLossy stderr) ≠ "") :
    Told stderr status ⟨-1, trim (Utf8.decodeLossy stderr)⟩
  | blank (noLine : ∀ line ∈ pieces Utf8.lineFeed stderr, ∀ error, ¬Reads line error)
    (unsaid : trim (Utf8.decodeLossy stderr) = "") :
    Told stderr status ⟨-1, "compiler exited with " ++ status.text⟩

variable {line stderr : Bytes} {status : ExitStatus} {error : CompilerError}

theorem reads_iff :
    (ofLine? ∘ Utf8.decodeLossy) line = some error ↔ Reads line error := by
  rw [Function.comp_apply, ofLine?_eq_some_iff, Reads]

theorem reads_nothing_iff :
    (ofLine? ∘ Utf8.decodeLossy) line = none ↔ ∀ error, ¬Reads line error := by
  simp only [Option.eq_none_iff_forall_ne_some, ne_eq, reads_iff]

theorem States.reads (states : States line error) : Reads line error := by
  obtain ⟨members, position, message, document, both, placed, told⟩ := states
  exact .of_object document both placed told

/-- The error of a failure is the one that is told, and no other is. -/
theorem told_iff : Told stderr status error ↔ error = ofFailure stderr status := by
  -- from here on only the lines of the bytes count, whatever the text as a whole is
  rw [ofFailure, Utf8.pieces_decodeLossy, List.findSome?_map]
  have silent (noLine : ∀ line ∈ pieces Utf8.lineFeed stderr, ∀ error, ¬Reads line error) :
      (pieces Utf8.lineFeed stderr).findSome? (ofLine? ∘ Utf8.decodeLossy) = none :=
    List.findSome?_eq_none_iff.mpr fun line mem => reads_nothing_iff.mpr (noLine line mem)
  constructor
  · intro told
    cases told with
    | @line before behind line _ lines earlier reads =>
      have found : (pieces Utf8.lineFeed stderr).findSome? (ofLine? ∘ Utf8.decodeLossy) =
          some error := List.findSome?_eq_some_iff.mpr ⟨before, line, behind, lines,
        reads_iff.mpr reads, fun line mem => reads_nothing_iff.mpr (earlier line mem)⟩
      simp only [found]
    | whole noLine said => simp only [silent noLine, if_neg said, unplaced, noPosition]
    | blank noLine unsaid =>
      simp only [silent noLine, if_pos unsaid, unplaced, noPosition]
      rfl
  · rintro rfl
    split
    case h_1 error found =>
      obtain ⟨before, line, behind, lines, read, earlier⟩ := List.findSome?_eq_some_iff.mp found
      exact .line lines (fun line mem => reads_nothing_iff.mp (earlier line mem))
        (reads_iff.mp read)
    case h_2 none =>
      have noLine : ∀ line ∈ pieces Utf8.lineFeed stderr, ∀ error, ¬Reads line error :=
        fun line mem => reads_nothing_iff.mp (List.findSome?_eq_none_iff.mp none line mem)
      split
      case isTrue unsaid => exact .blank noLine unsaid
      case isFalse said => exact .whole noLine said

/-! ## Printed errors -/

theorem trim_enclosed {first last : Char} {inner : List Char} (opened : isBlank first = false)
    (closed : isBlank last = false) :
    trim (String.ofList (first :: inner ++ [last])) = String.ofList (first :: inner ++ [last]) := by
  simp [trim, trimEnd, opened, closed]

/-- Whatever the message holds, a printed error is one line and reads as that error. -/
theorem states_printed (low : -2147483648 ≤ error.position)
    (high : error.position ≤ 2147483647) :
    Utf8.lineFeed ∉ printed error ∧ States (printed error) error := by
  let v := Json.object [("position", .integer error.position), ("message", .string error.message)]
  constructor
  · intro feed
    obtain ⟨c, mem, code⟩ := Utf8.toNat_of_mem_bytes (by decide) feed
    rw [Json.text, String.toList_ofList] at mem
    have shown := unbroken_chars v c mem
    rw [code] at shown
    exact absurd shown (by decide)
  · have whole : trim v.text = v.text := trim_enclosed (by decide) (by decide)
    refine ⟨_, _, _, ?_, .refl _, ⟨_, rfl, integer_numberText error.position, low, high⟩, rfl⟩
    rw [printed, Utf8.decodeLossy_encode, whole]
    exact document_text ⟨trivial, trivial, trivial⟩

end CompilerError

namespace CommandCompiler

open CompilerError (Told Reads States printed)

/-- A program that fails gives the error that its error stream tells, which is the first line that
reads as one.  The error stream of a program that succeeds does not matter. -/
theorem compile_fails_as_told {compiler : CommandCompiler} {commands : Commands}
    {workshop : Workshop} {input : CompileInput} {sources : List Path} {files : FileSystem}
    {completion : Completion}
    (prepared : compiler.prepare workshop input = (.ok sources, files))
    (launched : launch commands files compiler.program
      (compiler.commandLine (compiler.runDirectory workshop) sources) = .ok completion) :
    (completion.status.isSuccess = true →
      (compiler.compile commands workshop input).result =
        completion.files.artifacts (outDirectory (compiler.runDirectory workshop))) ∧
    (completion.status.isSuccess = false →
      (∃ error, (compiler.compile commands workshop input).result = .error error ∧
        ∀ other, Told completion.stderr completion.status other ↔ other = error) ∧
      ∀ before line behind error,
        pieces Utf8.lineFeed completion.stderr = before ++ line :: behind →
        (∀ earlier ∈ before, ∀ other, ¬Reads earlier other) → States line error →
        (compiler.compile commands workshop input).result = .error error) ∧
    ∀ error : CompilerError, -2147483648 ≤ error.position → error.position ≤ 2147483647 →
      Utf8.lineFeed ∉ printed error ∧ States (printed error) error := by
  rw [(compiler.compile_ends commands workshop input).of_launched prepared launched]
  simp only [Completion.result]
  refine ⟨fun success => if_pos success, fun failed => ?_,
    fun error => CompilerError.states_printed⟩
  rw [if_neg (Bool.eq_false_iff.mp failed)]
  refine ⟨⟨_, rfl, fun other => CompilerError.told_iff⟩, ?_⟩
  intro before line behind error lines earlier states
  have told : Told completion.stderr completion.status error := .line lines earlier states.reads
  rw [CompilerError.told_iff.mp told]

/-! ## A run that fails -/

/-- An error with a further key and an escape, blanks around it. -/
def placedLine : Bytes :=
  Utf8.encode "\t\x7b\"code\": [1, \x7b\x7d], " ++
    Utf8.encode "\"message\": \"no \\u0022\\n\", \"position\": -3\x7d \r"

/-- What is no text, a position out of range, a position twice and text behind the value come before
the error, and another error comes after it. -/
def grumbling : Script where
  stderr := Utf8.encode "note: " ++ 0xFF :: Utf8.lineFeed ::
    Utf8.encode "\x7b\"position\": 2147483648, \"message\": \"far\"\x7d\n" ++
    Utf8.encode "\x7b\"position\": 1, \"message\": \"a\", \"position\": 2\x7d\n" ++
    Utf8.encode "[1, \"a\"] x\n" ++ placedLine ++ Utf8.lineFeed ::
    Utf8.encode "\x7b\"position\": 4, \"message\": \"b\"\x7d"
  status := .code 1

theorem compile_fails_as_told_placed :
    ∃ sources files completion,
      (named "main.src").prepare (opened []) (.source "text") = (.ok sources, files) ∧
      launch (scripted grumbling) files (.ofText "nc")
        ((named "main.src").commandLine (.ofText "runs/run_7_0") sources) = .ok completion ∧
      completion.status.isSuccess = false ∧
      ((named "main.src").compile (scripted grumbling) (opened []) (.source "text")).result =
        .error ⟨-3, "no \"\n"⟩ := by
  let files := ((named "main.src").prepare (opened []) (.source "text")).2
  let arguments := (named "main.src").commandLine (.ofText "runs/run_7_0")
    [.ofText "runs/run_7_0/src/main.src"]
  have prepared : (named "main.src").prepare (opened []) (.source "text") =
      (.ok [.ofText "runs/run_7_0/src/main.src"], files) := by rfl
  have launched : launch (scripted grumbling) files (.ofText "nc") arguments =
      .ok (grumbling.program arguments files) := by rfl
  have lines : pieces Utf8.lineFeed grumbling.stderr =
      (pieces Utf8.lineFeed grumbling.stderr).take 4 ++
        placedLine :: (pieces Utf8.lineFeed grumbling.stderr).drop 5 := by decide +kernel
  have silent : ∀ line ∈ (pieces Utf8.lineFeed grumbling.stderr).take 4,
      (CompilerError.ofLine? ∘ Utf8.decodeLossy) line = none := by decide +kernel
  have read : (CompilerError.ofLine? ∘ Utf8.decodeLossy) placedLine = some ⟨-3, "no \"\n"⟩ := by
    decide +kernel
  have earlier : ∀ line ∈ (pieces Utf8.lineFeed grumbling.stderr).take 4, ∀ error,
      ¬Reads line error := fun line mem => CompilerError.reads_nothing_iff.mp (silent line mem)
  obtain ⟨-, failed, -⟩ := compile_fails_as_told prepared launched
  obtain ⟨⟨error, returned, told⟩, -⟩ := failed rfl
  have same := (told _).mp (.line lines earlier (CompilerError.reads_iff.mp read))
  exact ⟨_, _, _, prepared, launched, rfl, returned.trans (congrArg Except.error same.symm)⟩

end CommandCompiler

end LinkGate
