import LinkGate.Proofs.Compile.Calls

/-!
# What a compilation returns

A call returns the files that stand below its output directory when its program has ended.  These
are the files that the program made, if none stood there before and no source is staged there.  Both
can happen: nothing clears an output directory that is there already, and the name of the staged
source may lead into it.
-/

set_option autoImplicit false

namespace LinkGate.CommandCompiler

/-- The path of a file below `base` that stands in `after`, and not in `before`. -/
def MadeBelow (base : Path) (before after : FileSystem) (path : Path) : Prop :=
  ∃ names, names ≠ [] ∧ path = base.below names ∧
    after.IsFile (before.target base ++ names) ∧ ¬before.IsFile (before.target base ++ names)

/-- A compilation that succeeds returns exactly the files that its program made below the output
directory, provided there was no file before and the staged source is elsewhere. -/
theorem compile_returns_made {compiler : CommandCompiler} {commands : Commands}
    {workshop : Workshop} {input : CompileInput} {paths : List Path}
    (confined : ∀ command ∈ commands, Confined command.2)
    (proper : workshop.files.root.Proper)
    (unused : ∀ names, ¬workshop.files.IsFile
      (workshop.files.target (outDirectory (compiler.runDirectory workshop)) ++ names))
    (apart : ∀ text, input = .source text →
      ¬workshop.files.target (outDirectory (compiler.runDirectory workshop)) <+:
        workshop.files.target (compiler.sourcePath (compiler.runDirectory workshop)))
    (returned : (compiler.compile commands workshop input).result = .ok paths) :
    ∃ sources files completion, compiler.prepare workshop input = (.ok sources, files) ∧
      launch commands files compiler.program
        (compiler.commandLine (compiler.runDirectory workshop) sources) = .ok completion ∧
      (compiler.compile commands workshop input).workshop.files = completion.files ∧
      paths.Nodup ∧
      ∀ path, path ∈ paths ↔
        MadeBelow (outDirectory (compiler.runDirectory workshop)) files completion.files path := by
  obtain ⟨sources, files, completion, prepared, launched, left, lists⟩ :=
    (compiler.compile_ends commands workshop input).of_ok confined proper returned
  refine ⟨sources, files, completion, prepared, launched, left, lists.once, fun path => ?_⟩
  have running := launched_changes confined proper prepared launched
  have preparing := compiler.prepare_changes workshop input
  rw [prepared] at preparing
  -- what was prepared left the output directory as it was, without a file
  have none : ∀ names, ¬files.IsFile
      (files.target (outDirectory (compiler.runDirectory workshop)) ++ names) := by
    rintro names ⟨contents, held⟩
    rw [FileSystem.target_congr preparing.working] at held
    refine unused names ⟨contents, (preparing.keeps _ ?_).noFile contents held⟩
    rintro ⟨text, same, staged⟩
    refine apart text same ?_
    rw [← staged]
    exact List.prefix_append _ _
  rw [lists.mem_iff, FileSystem.target_congr running.working]
  constructor
  · rintro ⟨names, rfl, contents, held⟩
    refine ⟨names, ?_, rfl, ⟨contents, held⟩, none names⟩
    rintro rfl
    rw [List.append_nil] at held
    have before := (running.keeps _ fun below => below.2 rfl).noFile contents held
    exact none [] ⟨contents, by rwa [List.append_nil]⟩
  · rintro ⟨names, -, rfl, isFile, -⟩
    exact ⟨names, rfl, isFile⟩

/-! ## Runs with one file -/

/-- A program that succeeds and leaves one file in its output directory. -/
theorem compile_singleton {compiler : CommandCompiler} {commands : Commands} {workshop : Workshop}
    {input : CompileInput} {sources : List Path} {files : FileSystem} (completion : Completion)
    (name contents : Bytes)
    (prepared : compiler.prepare workshop input = (.ok sources, files))
    (launched : launch commands files compiler.program
      (compiler.commandLine (compiler.runDirectory workshop) sources) = .ok completion)
    (succeeded : completion.status.isSuccess = true)
    (found : completion.files.find (outDirectory (compiler.runDirectory workshop)) =
      .ok (.directory [(name, .file contents)])) :
    (compiler.compile commands workshop input).result =
      .ok [(outDirectory (compiler.runDirectory workshop)).join ⟨name⟩] := by
  rw [(compiler.compile_ends commands workshop input).of_launched prepared launched,
    Completion.result, if_pos succeeded, FileSystem.artifacts, FileSystem.list_singleton found]

/-- A compiler that is known as `nc`. -/
def named (sourceFileName : String) : CommandCompiler where
  program := .ofText "nc"
  arguments := []
  outRoot := .ofText "runs"
  sourceFileName := sourceFileName

/-- There is only `nc`, which does what a script says. -/
def scripted (script : Script) : Commands :=
  [(Utf8.encode "nc", script.program)]

/-- Where a process makes its first call. -/
def opened (entries : List (Bytes × FileTree)) : Workshop where
  files := { root := .directory entries, working := [] }
  process := 7
  runs := 0

/-- What there is below `runs` once the first call has begun. -/
def begun (entries : List (Bytes × FileTree)) : FileSystem where
  root := .directory
    [(Utf8.encode "runs", .directory [(Utf8.encode "run_7_0", .directory entries)])]
  working := []

/-- The directory in which the source of a call is staged. -/
def staged (text : String) : Bytes × FileTree :=
  (Utf8.encode "src", .directory [(Utf8.encode "main.src", .file (Utf8.encode text))])

def oneObject : Script where
  outputs := [(.ofText "a.nir", some [0x2A])]

/-- A program that makes nothing. -/
def nothing : Script where
  outputs := []

theorem files_program_nothing (arguments : List Bytes) (files : FileSystem) :
    (nothing.program arguments files).files = files := by
  simp only [Script.program, nothing, List.foldl_nil]
  split <;> rfl

theorem oneObject_confined : ∀ command ∈ scripted oneObject, Confined command.2 := by
  intro command mem
  obtain rfl := List.mem_singleton.mp mem
  refine Script.confined fun output mem _ => ?_
  obtain rfl := List.mem_singleton.mp mem
  exact ⟨by decide, by decide, by decide⟩

theorem compile_returns_made_object :
    ∃ sources files completion,
      (named "main.src").prepare (opened []) (.source "text") = (.ok sources, files) ∧
      launch (scripted oneObject) files (.ofText "nc")
        ((named "main.src").commandLine (.ofText "runs/run_7_0") sources) = .ok completion ∧
      MadeBelow (.ofText "runs/run_7_0/out") files completion.files
        (.ofText "runs/run_7_0/out/a.nir") := by
  have unused : ∀ names, ¬(opened []).files.IsFile ((opened []).files.target
      (outDirectory ((named "main.src").runDirectory (opened []))) ++ names) := by
    rintro names ⟨contents, held⟩
    cases held
  have prepared : (named "main.src").prepare (opened []) (.source "text") =
      (.ok [.ofText "runs/run_7_0/src/main.src"],
        begun [(Utf8.encode "out", .empty), staged "text"]) := by rfl
  have returned :
      ((named "main.src").compile (scripted oneObject) (opened []) (.source "text")).result =
        .ok [.ofText "runs/run_7_0/out/a.nir"] :=
    compile_singleton (oneObject.program _ _) (Utf8.encode "a.nir") [0x2A] prepared (by rfl)
      (by rfl) (by rfl)
  obtain ⟨sources, files, completion, prepared, launched, -, -, made⟩ :=
    compile_returns_made oneObject_confined FileTree.proper_empty unused
      (fun _ _ => by decide) returned
  exact ⟨sources, files, completion, prepared, launched, (made _).mp (List.mem_singleton_self _)⟩

/-- An output directory in which a file was left earlier. -/
def stale : List (Bytes × FileTree) :=
  [(Utf8.encode "out", .directory [(Utf8.encode "old", .file [0x2A])])]

/-- A staged source is returned when its name leads into the output directory, and so is a file that
was left there earlier: the program has made neither. -/
theorem compile_returns_unmade :
    (∀ command ∈ scripted nothing, ∀ arguments files,
      (command.2 arguments files).files = files) ∧
    ((named "../out/x").compile (scripted nothing) (opened []) (.source "text")).result =
      .ok [.ofText "runs/run_7_0/out/x"] ∧
    ((named "main.src").compile (scripted nothing) { opened [] with files := begun stale }
      (.source "text")).result = .ok [.ofText "runs/run_7_0/out/old"] := by
  refine ⟨?_, ?_, ?_⟩
  · intro command mem arguments files
    obtain rfl := List.mem_singleton.mp mem
    exact files_program_nothing arguments files
  · have prepared : (named "../out/x").prepare (opened []) (.source "text") =
        (.ok [.ofText "runs/run_7_0/src/../out/x"], begun
          [(Utf8.encode "out", .directory [(Utf8.encode "x", .file (Utf8.encode "text"))]),
            (Utf8.encode "src", .empty)]) := by rfl
    exact compile_singleton (nothing.program _ _) (Utf8.encode "x") (Utf8.encode "text") prepared
      (by rfl) (by rfl) (by rfl)
  · have prepared : (named "main.src").prepare { opened [] with files := begun stale }
        (.source "text") =
          (.ok [.ofText "runs/run_7_0/src/main.src"], begun (stale ++ [staged "text"])) := by rfl
    exact compile_singleton (nothing.program _ _) (Utf8.encode "old") [0x2A] prepared
      (by rfl) (by rfl) (by rfl)

end LinkGate.CommandCompiler
