import LinkGate.Compile.Command
import LinkGate.Proofs.Compile.Programs
import LinkGate.Proofs.Files.Listing
import LinkGate.Proofs.Text.Utf8

/-!
# One compilation

A compilation prepares the files, its output directory and its sources, and then starts its
program.  `Ends` says how it can come to an end, and all else follows from that: nothing changes but
the staged source and what is below the output directory (`Ends.changes`), and a program is started
with the sources that the input stands for (`Ends.of_started`).
-/

set_option autoImplicit false

namespace LinkGate

open FileSystem (Keeps ChangesIn nowhere)

/-! ## Run directories -/

namespace Workshop

theorem runName_toList (workshop : Workshop) :
    workshop.runName.toList =
      "run_".toList ++ (workshop.process.repr.toList ++ '_' :: workshop.runs.repr.toList) := by
  simp [runName, toString]

/-- The count can be read off a run directory's name. -/
theorem runs_eq_of_runName {one two : Workshop} (process : one.process = two.process)
    (same : one.runName = two.runName) : one.runs = two.runs := by
  rw [← String.toList_inj, runName_toList, runName_toList, process, List.append_cancel_left_eq,
    List.append_cancel_left_eq, List.cons_inj_right, String.toList_inj,
    Nat.repr_eq_ofList_toDigits, Nat.repr_eq_ofList_toDigits, String.ofList_inj] at same
  have value := congrArg (Nat.ofDigitChars 10 · 0) same
  simpa only [Nat.ofDigitChars_ten_toDigits] using value

theorem isDigit_of_mem_repr {n : Nat} {c : Char} (mem : c ∈ n.repr.toList) : c.isDigit := by
  rw [Nat.repr_eq_ofList_toDigits, String.toList_ofList] at mem
  exact Nat.isDigit_of_mem_toDigits (by decide) (by decide) mem

theorem isName_runName (workshop : Workshop) : IsName (Utf8.encode workshop.runName) := by
  have front : Utf8.encode workshop.runName =
      0x72 :: Utf8.bytes workshop.runName.toList.tail := by
    rw [Utf8.encode, runName_toList]
    rfl
  refine ⟨?_, ?_, ?_, fun slash => ?_⟩
  · rw [front]
    exact List.cons_ne_nil _ _
  · rw [front]
    rintro ⟨⟩
  · rw [front]
    rintro ⟨⟩
  · obtain ⟨c, mem, code⟩ := Utf8.toNat_of_mem_bytes (by decide) slash
    obtain rfl : c = '/' := Char.toNat_inj.mp code
    rw [runName_toList] at mem
    simp only [List.mem_append, List.mem_cons] at mem
    rcases mem with front | digit | other | digit
    · revert front; decide
    · exact absurd (isDigit_of_mem_repr digit) (by decide)
    · revert other; decide
    · exact absurd (isDigit_of_mem_repr digit) (by decide)

end Workshop

namespace CommandCompiler
variable (compiler : CommandCompiler) (workshop : Workshop) (files : FileSystem) (run : Path)

theorem isName_out : IsName (Utf8.encode "out") :=
  ⟨by decide, by decide, by decide, by decide⟩

theorem isName_src : IsName (Utf8.encode "src") :=
  ⟨by decide, by decide, by decide, by decide⟩

theorem target_runDirectory :
    files.target (compiler.runDirectory workshop) =
      files.target compiler.outRoot ++ [Utf8.encode workshop.runName] := by
  have isName := workshop.isName_runName
  rw [runDirectory, Path.ofText, files.target_join _ (Path.isAbsolute_name isName),
    Path.walk_name isName]

theorem target_outDirectory :
    files.target (outDirectory run) = files.target run ++ [Utf8.encode "out"] :=
  (files.target_join run (Path.isAbsolute_name isName_out)).trans (Path.walk_name isName_out _)

theorem target_sourceDirectory :
    files.target (sourceDirectory run) = files.target run ++ [Utf8.encode "src"] :=
  (files.target_join run (Path.isAbsolute_name isName_src)).trans (Path.walk_name isName_src _)

theorem outDirectory_below (names : List Bytes) :
    (outDirectory run).below names = run.below (Utf8.encode "out" :: names) :=
  rfl

theorem runDirectory_present : (compiler.runDirectory workshop).bytes ≠ [] := by
  have isName := workshop.isName_runName
  rw [runDirectory, Path.ofText]
  exact Path.bytes_join_ne_nil _ (Path.isAbsolute_name isName) isName.present

/-- However the configured arguments and the sources read, the output directory of the run is the
one that its program is given. -/
theorem outDirectory?_commandLine {run : Path} {sources : List Path} (present : run.bytes ≠ [])
    (slashed : ∀ path ∈ sources.dropLast, Path.separator ∈ path.bytes) :
    outDirectory? (compiler.commandLine run sources) = some (outDirectory run) := by
  have noFlag : ∀ argument : Bytes, Path.separator ∈ argument → argument ≠ outFlag := by
    rintro argument slash rfl
    revert slash
    decide
  have out : Path.separator ∈ (outDirectory run).bytes :=
    Path.separator_mem_join run (Path.isAbsolute_name isName_out) present
  rw [commandLine]
  refine outDirectory?_flag fun argument mem => ?_
  by_cases none : sources = []
  · subst none
    cases mem
  · rw [List.dropLast_cons_of_ne_nil (by simpa using none)] at mem
    rcases List.mem_cons.mp mem with rfl | later
    · exact noFlag _ out
    · rw [← List.map_dropLast] at later
      obtain ⟨path, listed, rfl⟩ := List.mem_map.mp later
      exact noFlag _ (slashed path listed)

/-- A file name without a slash does not lead out of the run directory. -/
theorem run_prefix_sourcePath (plain : Path.separator ∉ Utf8.encode compiler.sourceFileName) :
    files.target run <+: files.target (compiler.sourcePath run) := by
  have target : files.target (compiler.sourcePath run) =
      Path.advance (files.target run ++ [Utf8.encode "src"])
        (Utf8.encode compiler.sourceFileName) := by
    rw [← target_sourceDirectory, ← Path.walk_segment plain]
    exact files.target_join _ (Path.isAbsolute_segment plain)
  rw [target, Path.advance]
  split
  case isTrue => exact List.prefix_append _ _
  case isFalse =>
    split
    case isTrue => exact ⟨[], by rw [List.append_nil, List.dropLast_concat]⟩
    case isFalse => exact (List.prefix_append _ _).trans (List.prefix_append _ _)

end CommandCompiler

/-! ## Preparing -/

namespace CommandCompiler
variable (compiler : CommandCompiler) (workshop : Workshop) (input : CompileInput)

/-- The sources of a call, and the files that its program comes upon. -/
def prepare : Except CompilerError (List Path) × FileSystem :=
  match workshop.files.makeDirectories (outDirectory (compiler.runDirectory workshop)) with
  | (.error error, files) =>
    (.error (.unplaced s!"create {(compiler.runDirectory workshop).text}: {error.message}"), files)
  | (.ok (), files) => compiler.stage (compiler.runDirectory workshop) files input

/-- The place where a source is staged, if one is. -/
def Staged (files : FileSystem) (run : Path) (names : List Bytes) : Prop :=
  ∃ text, input = .source text ∧ names = files.target (compiler.sourcePath run)

theorem writeSource_changes (run : Path) (files : FileSystem) (text : String) :
    ChangesIn files (compiler.writeSource run files text).2
      (· = files.target (compiler.sourcePath run)) := by
  rw [writeSource]
  split
  case h_1 making => exact (FileSystem.makeDirectories_changes making).anywhere
  case h_2 made making =>
    have changes := FileSystem.makeDirectories_changes making
    split
    case h_1 => exact changes.anywhere
    case h_2 written writing =>
      have further := FileSystem.write_changes writing
      rw [FileSystem.target_congr changes.working] at further
      exact changes.anywhere.trans further

theorem stage_changes (run : Path) (files : FileSystem) :
    ChangesIn files (compiler.stage run files input).2 (compiler.Staged input files run) := by
  cases input with
  | directory base => exact .refl files _
  | source text =>
    have writing : ChangesIn files (compiler.writeSource run files text).2
        (compiler.Staged (.source text) files run) :=
      (compiler.writeSource_changes run files text).mono fun names same => ⟨text, rfl, same⟩
    rw [stage]
    split
    case h_1 path written wrote =>
      rw [wrote] at writing
      exact writing
    case h_2 error left wrote =>
      rw [wrote] at writing
      exact writing

theorem prepare_changes :
    ChangesIn workshop.files (compiler.prepare workshop input).2
      (compiler.Staged input workshop.files (compiler.runDirectory workshop)) := by
  unfold prepare
  split
  case h_1 making => exact (FileSystem.makeDirectories_changes making).anywhere
  case h_2 made making =>
    have changes := FileSystem.makeDirectories_changes making
    have further := compiler.stage_changes input (compiler.runDirectory workshop) made
    refine changes.anywhere.trans (further.mono ?_)
    rintro names ⟨text, given, same⟩
    rw [FileSystem.target_congr changes.working] at same
    exact ⟨text, given, same⟩

/-- The sources that an input stands for: its text in a staged file, or the files at and below its
directory as the call finds them. -/
def Sources (files : FileSystem) : CompileInput → List Path → Prop
  | .source text, sources =>
    sources = [compiler.sourcePath (compiler.runDirectory workshop)] ∧
      files.kind? (files.target (compiler.sourcePath (compiler.runDirectory workshop))) =
        some (.file (Utf8.encode text))
  | .directory base, sources => workshop.files.Lists base sources

variable {compiler workshop input} {sources : List Path} {files : FileSystem}

theorem writeSource_eq_ok {run path : Path} {text : String} {before : FileSystem}
    (wrote : compiler.writeSource run before text = (.ok path, files)) :
    path = compiler.sourcePath run ∧
      files.kind? (files.target (compiler.sourcePath run)) = some (.file (Utf8.encode text)) := by
  rw [writeSource] at wrote
  split at wrote
  case h_1 => cases wrote
  case h_2 made making =>
    split at wrote
    case h_1 => cases wrote
    case h_2 written writing =>
      obtain ⟨same, rfl⟩ := Prod.mk.inj wrote
      refine ⟨(Except.ok.inj same).symm, ?_⟩
      rw [FileSystem.target_congr (FileSystem.write_changes writing).working]
      exact FileSystem.write_holds writing

theorem artifacts_eq_ok {base : Path} {paths : List Path} (proper : files.root.Proper)
    (listed : files.artifacts base = .ok paths) : files.Lists base paths ∧ base.bytes ≠ [] := by
  rw [FileSystem.artifacts] at listed
  split at listed
  case h_2 => cases listed
  case h_1 paths' listing =>
    obtain rfl := Except.ok.inj listed
    refine ⟨FileSystem.list_eq_ok proper listing, ?_⟩
    rw [FileSystem.list] at listing
    split at listing
    case h_1 => cases listing
    case h_2 tree found => exact FileSystem.find_present found

theorem completion_eq_ok {completion : Completion} {out : Path} {paths : List Path}
    (proper : completion.files.root.Proper) (returned : completion.result out = .ok paths) :
    completion.files.Lists out paths := by
  rw [Completion.result] at returned
  split at returned
  case isFalse => cases returned
  case isTrue => exact (artifacts_eq_ok proper returned).1

theorem prepare_sources (proper : workshop.files.root.Proper)
    (prepared : compiler.prepare workshop input = (.ok sources, files)) :
    compiler.Sources workshop files input sources ∧
      ∀ path ∈ sources.dropLast, Path.separator ∈ path.bytes := by
  unfold prepare at prepared
  split at prepared
  case h_1 => cases prepared
  case h_2 made making =>
    have changes := FileSystem.makeDirectories_changes making
    cases input with
    | source text =>
      rw [stage] at prepared
      split at prepared
      case h_2 => cases prepared
      case h_1 path written wrote =>
        obtain ⟨same, rfl⟩ := Prod.mk.inj prepared
        obtain rfl := Except.ok.inj same
        obtain ⟨rfl, held⟩ := writeSource_eq_ok wrote
        exact ⟨⟨rfl, held⟩, nofun⟩
    | directory base =>
      obtain ⟨listed, rfl⟩ := Prod.mk.inj prepared
      obtain ⟨lists, present⟩ := artifacts_eq_ok (changes.proper proper) listed
      exact ⟨lists.of_changes changes, lists.slashed (changes.proper proper) present⟩

end CommandCompiler

/-! ## Ends -/

/-- The workshop behind a call that left these files. -/
def Workshop.after (workshop : Workshop) (files : FileSystem) : Workshop :=
  { workshop with files := files, runs := workshop.runs + 1 }

namespace CommandCompiler

/-- How a call ends: before there are sources, before its program starts, or with its program. -/
inductive Ends (compiler : CommandCompiler) (commands : Commands) (workshop : Workshop)
    (input : CompileInput) : Attempt → Prop where
  | unprepared {error : CompilerError} {files : FileSystem}
    (prepared : compiler.prepare workshop input = (.error error, files)) :
    Ends compiler commands workshop input ⟨.error error, none, workshop.after files⟩
  | unlaunched {sources : List Path} {files : FileSystem} {error : IoError}
    (prepared : compiler.prepare workshop input = (.ok sources, files))
    (launched : launch commands files compiler.program
      (compiler.commandLine (compiler.runDirectory workshop) sources) = .error error) :
    Ends compiler commands workshop input
      ⟨.error (.unplaced s!"run {compiler.program.text}: {error.message}"), none,
        workshop.after files⟩
  | ran {sources : List Path} {files : FileSystem} {completion : Completion}
    (prepared : compiler.prepare workshop input = (.ok sources, files))
    (launched : launch commands files compiler.program
      (compiler.commandLine (compiler.runDirectory workshop) sources) = .ok completion) :
    Ends compiler commands workshop input
      ⟨completion.result (outDirectory (compiler.runDirectory workshop)),
        some (compiler.commandLine (compiler.runDirectory workshop) sources),
        workshop.after completion.files⟩

variable (compiler : CommandCompiler) (commands : Commands) (workshop : Workshop)
  (input : CompileInput)

theorem compile_ends :
    compiler.Ends commands workshop input (compiler.compile commands workshop input) := by
  unfold compile
  dsimp only
  split
  case h_1 error files making =>
    refine .unprepared ?_
    unfold prepare
    rw [making]
  case h_2 made making =>
    have prepared : compiler.prepare workshop input =
        compiler.stage (compiler.runDirectory workshop) made input := by
      unfold prepare
      rw [making]
    split
    case h_1 error files staged => exact .unprepared (prepared.trans staged)
    case h_2 sources files staged =>
      split
      case h_1 error launched => exact .unlaunched (prepared.trans staged) launched
      case h_2 completion launched => exact .ran (prepared.trans staged) launched

variable {compiler commands workshop input}

theorem Ends.workshop_eq {attempt : Attempt}
    (ends : compiler.Ends commands workshop input attempt) :
    attempt.workshop = workshop.after attempt.workshop.files := by
  cases ends <;> rfl

/-- A program that was launched ends the call. -/
theorem Ends.of_launched {attempt : Attempt} {sources : List Path} {files : FileSystem}
    {completion : Completion} (ends : compiler.Ends commands workshop input attempt)
    (prepared : compiler.prepare workshop input = (.ok sources, files))
    (launched : launch commands files compiler.program
      (compiler.commandLine (compiler.runDirectory workshop) sources) = .ok completion) :
    attempt = ⟨completion.result (outDirectory (compiler.runDirectory workshop)),
      some (compiler.commandLine (compiler.runDirectory workshop) sources),
      workshop.after completion.files⟩ := by
  cases ends with
  | unprepared failed =>
    rw [prepared] at failed
    cases failed
  | unlaunched again failed =>
    rw [prepared] at again
    cases again
    rw [launched] at failed
    cases failed
  | ran again ran =>
    rw [prepared] at again
    cases again
    rw [launched] at ran
    cases ran
    rfl

theorem launched_changes {sources : List Path} {files : FileSystem} {completion : Completion}
    (confined : ∀ command ∈ commands, Confined command.2) (proper : workshop.files.root.Proper)
    (prepared : compiler.prepare workshop input = (.ok sources, files))
    (launched : launch commands files compiler.program
      (compiler.commandLine (compiler.runDirectory workshop) sources) = .ok completion) :
    ChangesIn files completion.files
      (Below (files.target (outDirectory (compiler.runDirectory workshop)))) := by
  have given := compiler.outDirectory?_commandLine (compiler.runDirectory_present workshop)
    (prepare_sources proper prepared).2
  obtain ⟨command, known, rfl⟩ := launch_eq_ok launched
  exact confined command known _ files _ given

/-- Only staging a source and the program change what stood, the program only below its output
directory. -/
theorem Ends.changes {attempt : Attempt} (ends : compiler.Ends commands workshop input attempt)
    (confined : ∀ command ∈ commands, Confined command.2) (proper : workshop.files.root.Proper) :
    ChangesIn workshop.files attempt.workshop.files fun names =>
      compiler.Staged input workshop.files (compiler.runDirectory workshop) names ∨
        Below (workshop.files.target (outDirectory (compiler.runDirectory workshop))) names := by
  have preparing := compiler.prepare_changes workshop input
  cases ends with
  | unprepared prepared =>
    rw [prepared] at preparing
    exact preparing.mono fun _ => .inl
  | unlaunched prepared =>
    rw [prepared] at preparing
    exact preparing.mono fun _ => .inl
  | @ran sources files completion prepared launched =>
    have running := launched_changes confined proper prepared launched
    rw [prepared] at preparing
    rw [FileSystem.target_congr preparing.working] at running
    exact (preparing.mono fun _ => .inl).trans (running.mono fun _ => .inr)

/-- A program that was started was given the sources of the call. -/
theorem Ends.of_started {attempt : Attempt} {arguments : List Bytes}
    (ends : compiler.Ends commands workshop input attempt) (proper : workshop.files.root.Proper)
    (started : attempt.started = some arguments) :
    ∃ sources files completion, compiler.Sources workshop files input sources ∧
      arguments = compiler.commandLine (compiler.runDirectory workshop) sources ∧
      launch commands files compiler.program arguments = .ok completion ∧
      attempt.workshop.files = completion.files := by
  cases ends with
  | unprepared => cases started
  | unlaunched => cases started
  | @ran sources files completion prepared launched =>
    obtain rfl := Option.some.inj started
    exact ⟨sources, files, completion, (prepare_sources proper prepared).1, rfl, launched, rfl⟩

/-- What a call returns is what is listed once its program has ended. -/
theorem Ends.of_ok {attempt : Attempt} {paths : List Path}
    (ends : compiler.Ends commands workshop input attempt)
    (confined : ∀ command ∈ commands, Confined command.2) (proper : workshop.files.root.Proper)
    (returned : attempt.result = .ok paths) :
    ∃ sources files completion, compiler.prepare workshop input = (.ok sources, files) ∧
      launch commands files compiler.program
        (compiler.commandLine (compiler.runDirectory workshop) sources) = .ok completion ∧
      attempt.workshop.files = completion.files ∧
      completion.files.Lists (outDirectory (compiler.runDirectory workshop)) paths := by
  have left := (ends.changes confined proper).proper proper
  cases ends with
  | unprepared => cases returned
  | unlaunched => cases returned
  | @ran sources files completion prepared launched =>
    refine ⟨sources, files, completion, prepared, launched, rfl, ?_⟩
    change completion.files.root.Proper at left
    exact completion_eq_ok left returned

end CommandCompiler

end LinkGate
