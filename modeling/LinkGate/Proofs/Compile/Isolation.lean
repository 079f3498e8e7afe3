import LinkGate.Proofs.Compile.Artifacts

/-!
# Compilations one after another

Calls of one process share a count, so no two have the same run directory.  A call changes nothing
outside its own, so later ones leave the run directories of earlier ones alone, whether those
succeeded or failed.  The compilers may differ in all but their `outRoot`.
-/

set_option autoImplicit false

namespace LinkGate

open CommandCompiler (outDirectory)
open FileSystem (Keeps ChangesIn)

/-- A call, and the workshop that it comes upon. -/
structure Compilation where
  compiler : CommandCompiler
  workshop : Workshop
  input : CompileInput

namespace Compilation

/-- Not to be unfolded by itself: comparing two calls would run both. -/
@[irreducible] def attempt (commands : Commands) (call : Compilation) : Attempt :=
  call.compiler.compile commands call.workshop call.input

theorem attempt_mk (commands : Commands) (compiler : CommandCompiler) (workshop : Workshop)
    (input : CompileInput) :
    attempt commands ⟨compiler, workshop, input⟩ = compiler.compile commands workshop input := by
  unfold attempt
  rfl

/-- The files that it leaves. -/
def left (commands : Commands) (call : Compilation) : FileSystem :=
  (call.attempt commands).workshop.files

def run (call : Compilation) : Path :=
  call.compiler.runDirectory call.workshop

/-- Where its run directory is. -/
def place (call : Compilation) : List Bytes :=
  call.workshop.files.target call.run

end Compilation

/-- Calls one after another, each by a compiler of its own. -/
def compilations (commands : Commands) :
    Workshop → List (CommandCompiler × CompileInput) → List Compilation
  | _, [] => []
  | workshop, (compiler, input) :: rest =>
    let call : Compilation := ⟨compiler, workshop, input⟩
    call :: compilations commands (call.attempt commands).workshop rest

theorem compileAll_eq (compiler : CommandCompiler) (commands : Commands) (workshop : Workshop)
    (inputs : List CompileInput) :
    compiler.compileAll commands workshop inputs =
      (compilations commands workshop (inputs.map (compiler, ·))).map
        (Compilation.attempt commands) := by
  induction inputs generalizing workshop with
  | nil => rfl
  | cons input rest ih =>
    rw [CommandCompiler.compileAll, ih, ← Compilation.attempt_mk]
    rfl

/-! ## Places -/

namespace Workshop

/-- Where the run directory with a number is. -/
def place (workshop : Workshop) (outRoot : Path) (number : Nat) : List Bytes :=
  workshop.files.target outRoot ++ [Utf8.encode { workshop with runs := number }.runName]

theorem place_congr {one two : Workshop} (working : two.files.working = one.files.working)
    (process : two.process = one.process) (outRoot : Path) (number : Nat) :
    two.place outRoot number = one.place outRoot number := by
  rw [place, place, FileSystem.target_congr working]
  simp only [runName, process]

/-- No run directory is at or below another. -/
theorem eq_of_place_prefix {workshop : Workshop} {outRoot : Path} {one two : Nat}
    {more : List Bytes}
    (within : workshop.place outRoot one <+: workshop.place outRoot two ++ more) : one = two := by
  have same : workshop.place outRoot one = workshop.place outRoot two := by
    refine List.IsPrefix.eq_of_length
      (List.prefix_of_prefix_length_le within (List.prefix_append _ _) ?_) ?_
    all_goals simp [place]
  have names := Utf8.encode_injective (List.singleton_inj.mp (List.append_cancel_left same))
  exact @runs_eq_of_runName { workshop with runs := one } { workshop with runs := two } rfl names

end Workshop

theorem Compilation.place_eq (call : Compilation) :
    call.place = call.workshop.place call.compiler.outRoot call.workshop.runs :=
  call.compiler.target_runDirectory call.workshop call.workshop.files

/-! ## One call -/

theorem Compilation.ends (commands : Commands) (call : Compilation) :
    call.compiler.Ends commands call.workshop call.input (call.attempt commands) := by
  obtain ⟨compiler, workshop, input⟩ := call
  rw [attempt_mk]
  exact compiler.compile_ends commands workshop input

theorem Compilation.attempt_of_launched {commands : Commands} (call : Compilation)
    {sources : List Path} {files : FileSystem} (completion : Completion)
    (prepared : call.compiler.prepare call.workshop call.input = (.ok sources, files))
    (launched : launch commands files call.compiler.program
      (call.compiler.commandLine call.run sources) = .ok completion) :
    call.attempt commands = ⟨completion.result (outDirectory call.run),
      some (call.compiler.commandLine call.run sources), call.workshop.after completion.files⟩ :=
  (call.ends commands).of_launched prepared launched

theorem Compilation.workshop_eq (commands : Commands) (call : Compilation) :
    (call.attempt commands).workshop = call.workshop.after (call.left commands) := by
  rw [left]
  exact (call.ends commands).workshop_eq

/-- A request to a compiler with this `outRoot` and a plain file name. -/
structure Fits (outRoot : Path) (request : CommandCompiler × CompileInput) : Prop where
  shared : request.1.outRoot = outRoot
  plain : Path.separator ∉ Utf8.encode request.1.sourceFileName

section
variable {commands : Commands} (confined : ∀ command ∈ commands, Confined command.2)
include confined

/-- A call leaves everything outside its run directory. -/
theorem Compilation.changes (call : Compilation) (proper : call.workshop.files.root.Proper)
    (plain : Path.separator ∉ Utf8.encode call.compiler.sourceFileName) :
    ChangesIn call.workshop.files (call.left commands) (call.place <+: ·) := by
  rw [left]
  refine ((call.ends commands).changes confined proper).mono ?_
  rintro names (⟨text, -, rfl⟩ | below)
  · exact call.compiler.run_prefix_sourcePath call.workshop.files call.run plain
  · have out := below.1
    rw [CommandCompiler.target_outDirectory] at out
    exact (List.prefix_append _ _).trans out

/-! ## All calls -/

variable {outRoot : Path} {start : Workshop} {requests : List (CommandCompiler × CompileInput)}

/-- At or below a run directory that is still to come. -/
def Workshop.InRuns (start : Workshop) (outRoot : Path) (names : List Bytes) : Prop :=
  ∃ number, start.runs ≤ number ∧ start.place outRoot number <+: names

/-- What a call has come upon since the calls began. -/
structure Follows (start : Workshop) (outRoot : Path) (call : Compilation) : Prop where
  process : call.workshop.process = start.process
  runs : start.runs ≤ call.workshop.runs
  fits : Fits outRoot (call.compiler, call.input)
  changes : ChangesIn start.files call.workshop.files (start.InRuns outRoot)

namespace Follows
variable {call : Compilation} (follows : Follows start outRoot call)
include follows

omit confined in
theorem place_eq : call.place = start.place outRoot call.workshop.runs := by
  rw [call.place_eq, follows.fits.shared]
  exact Workshop.place_congr follows.changes.working follows.process _ _

omit confined in
theorem inRuns : start.InRuns outRoot call.place :=
  ⟨call.workshop.runs, follows.runs, [], by rw [List.append_nil, follows.place_eq]⟩

theorem left (proper : start.files.root.Proper) :
    ChangesIn start.files (call.left commands) (start.InRuns outRoot) := by
  refine follows.changes.trans
    ((call.changes confined (follows.changes.proper proper) follows.fits.plain).mono ?_)
  intro names within
  refine ⟨call.workshop.runs, follows.runs, ?_⟩
  rw [← follows.place_eq]
  exact within

theorem place_after (proper : start.files.root.Proper) (number : Nat) :
    (call.workshop.after (call.left commands)).place outRoot number =
      start.place outRoot number :=
  @Workshop.place_congr start (call.workshop.after (call.left commands))
    (follows.left confined proper).working follows.process outRoot number

/-- What a call leaves has its run directory behind it. -/
theorem not_inRuns (proper : start.files.root.Proper) (names : List Bytes) :
    ¬(call.workshop.after (call.left commands)).InRuns outRoot (call.place ++ names) := by
  rintro ⟨number, beyond, within⟩
  rw [follows.place_after confined proper, follows.place_eq] at within
  have same : number = call.workshop.runs := Workshop.eq_of_place_prefix within
  exact Nat.ne_of_gt beyond same

end Follows

omit confined in
/-- The calls after the first start where it left off. -/
theorem compilations_cons (compiler : CommandCompiler) (input : CompileInput)
    (rest : List (CommandCompiler × CompileInput)) :
    compilations commands start ((compiler, input) :: rest) =
      ⟨compiler, start, input⟩ :: compilations commands
        (start.after (Compilation.left commands ⟨compiler, start, input⟩)) rest := by
  rw [compilations, Compilation.workshop_eq]

theorem compilations_follow (proper : start.files.root.Proper)
    (fit : ∀ request ∈ requests, Fits outRoot request) :
    ∀ call ∈ compilations commands start requests, Follows start outRoot call := by
  induction requests generalizing start with
  | nil => nofun
  | cons request rest ih =>
    obtain ⟨compiler, input⟩ := request
    obtain ⟨fits, later⟩ := List.forall_mem_cons.mp fit
    have first : Follows start outRoot ⟨compiler, start, input⟩ :=
      ⟨rfl, Nat.le_refl _, fits, .refl _ _⟩
    have changes := first.left confined proper
    have proper' : (start.after (Compilation.left commands
        ⟨compiler, start, input⟩)).files.root.Proper := changes.proper proper
    rw [compilations_cons, List.forall_mem_cons]
    refine ⟨first, fun call mem => ?_⟩
    have follows := ih proper' later call mem
    refine ⟨follows.process, Nat.le_of_succ_le follows.runs, follows.fits,
      changes.trans (follows.changes.mono ?_)⟩
    rintro names ⟨number, beyond, within⟩
    refine ⟨number, Nat.le_of_succ_le beyond, ?_⟩
    rw [← first.place_after confined proper]
    exact within

/-- Later calls follow on what an earlier one left. -/
theorem compilations_pairwise (proper : start.files.root.Proper)
    (fit : ∀ request ∈ requests, Fits outRoot request) :
    (compilations commands start requests).Pairwise fun earlier later =>
      Follows (earlier.workshop.after (earlier.left commands)) outRoot later := by
  induction requests generalizing start with
  | nil => exact .nil
  | cons request rest ih =>
    obtain ⟨compiler, input⟩ := request
    obtain ⟨fits, later⟩ := List.forall_mem_cons.mp fit
    have first : Follows start outRoot ⟨compiler, start, input⟩ :=
      ⟨rfl, Nat.le_refl _, fits, .refl _ _⟩
    have proper' := (first.left confined proper).proper proper
    rw [compilations_cons, List.pairwise_cons]
    exact ⟨compilations_follow confined proper' later, ih proper' later⟩

/-! ## What was returned -/

/-- The way of `outRoot` leads through no run directory that is still to come. -/
def Workshop.Clear (start : Workshop) (outRoot : Path) : Prop :=
  ∀ place, outRoot.Passes (start.files.origin outRoot) place → ¬start.InRuns outRoot place

/-- No name of a run directory that is still to come is part of the way to `outRoot`. -/
def Workshop.Unnamed (start : Workshop) (outRoot : Path) : Prop :=
  ∀ number, start.runs ≤ number →
    Utf8.encode { start with runs := number }.runName ∉
      start.files.origin outRoot ++ outRoot.segments

omit confined in
theorem Workshop.clear_of_unnamed (unnamed : start.Unnamed outRoot) : start.Clear outRoot := by
  rintro place ⟨front, isFront, rfl⟩ ⟨number, beyond, within⟩
  have mem := within.subset (List.mem_append_right _ (List.mem_singleton_self _))
  refine unnamed number beyond (List.mem_append.mpr ?_)
  exact (Path.mem_foldl_advance mem).imp_right (isFront.subset ·)

omit confined in
/-- A way that is there already does not lead through what is not. -/
theorem Workshop.clear_of_found {tree : FileTree} (found : start.files.find outRoot = .ok tree)
    (unused : ∀ number, start.runs ≤ number →
      start.files.kind? (start.place outRoot number) = none) : start.Clear outRoot := by
  rintro place passes ⟨number, beyond, more, rfl⟩
  exact FileSystem.find_passes found passes
    (FileTree.kind?_append_of_none (unused number beyond) more)

section
variable (call : Compilation) (changes : ChangesIn call.workshop.files (call.left commands)
  (call.place <+: ·))
include changes

/-- What a call returns are files in its run directory. -/
theorem Compilation.returned (proper : call.workshop.files.root.Proper)
    {paths : List Path} (returned : (call.attempt commands).result = .ok paths) {path : Path}
    (mem : path ∈ paths) :
    ∃ names, (∀ name ∈ names, IsName name) ∧ path = call.run.below names ∧
      (call.left commands).IsFile (call.place ++ names) := by
  obtain ⟨-, -, completion, -, -, same, lists⟩ :=
    (call.ends commands).of_ok confined proper returned
  have left : call.left commands = completion.files := same
  rw [← left] at lists
  obtain ⟨names, rfl, contents, held⟩ := (lists.mem_iff path).mp mem
  rw [CommandCompiler.target_outDirectory, FileSystem.target_congr changes.working,
    List.append_assoc, List.singleton_append] at held
  rw [CommandCompiler.outDirectory_below]
  refine ⟨Utf8.encode "out" :: names, fun name inside => ?_, ?_, contents, held⟩
  case refine_2 => rw [run]
  exact (changes.proper proper).names held name (List.mem_append_right _ inside)

end

omit confined in
/-- The way to what stands in a run directory is that of `outRoot`, and goes on in it. -/
theorem Compilation.way (call : Compilation) {names : List Bytes}
    (all : ∀ name ∈ names, IsName name) {here place : List Bytes}
    (passes : (call.run.below names).Passes here place) :
    call.compiler.outRoot.Passes here place ∨ call.run.walk here <+: place := by
  rcases passes.of_below all with before | below
  case inr => exact .inr below
  have isName := call.workshop.isName_runName
  rw [run, CommandCompiler.runDirectory, Path.ofText] at before ⊢
  rcases before.of_join_name isName with before | rfl
  · exact .inl before
  · rw [Path.walk_join _ (Path.isAbsolute_name isName), Path.walk_name isName]
    exact .inr List.prefix_rfl

/-- The same file stands where a path leads. -/
def SameFile (before after : FileSystem) (path : Path) : Prop :=
  ∃ contents, before.kind? (before.target path) = some (.file contents) ∧
    after.kind? (after.target path) = some (.file contents)

section
variable {earlier later : Compilation} (first : Follows start outRoot earlier)
  (second : Follows (earlier.workshop.after (earlier.left commands)) outRoot later)
  (proper : start.files.root.Proper)
include confined first second proper

theorem later_changes :
    ChangesIn (earlier.left commands) (later.left commands)
      ((earlier.workshop.after (earlier.left commands)).InRuns outRoot) :=
  second.left confined ((first.left confined proper).proper proper)

theorem later_keeps (names : List Bytes) :
    Keeps (earlier.left commands) (later.left commands) (earlier.place ++ names) :=
  (later_changes confined first second proper).keeps _ (first.not_inRuns confined proper names)

variable {paths : List Path} (returned : (earlier.attempt commands).result = .ok paths)
  {path : Path} (mem : path ∈ paths)
include returned mem

theorem returned_same : SameFile (earlier.left commands) (later.left commands) path := by
  have proper' := first.changes.proper proper
  have changes := earlier.changes confined proper' first.fits.plain
  obtain ⟨names, all, rfl, contents, held⟩ :=
    earlier.returned confined changes proper' returned mem
  have goal : (earlier.left commands).target (earlier.run.below names) =
      earlier.place ++ names := by
    rw [FileSystem.target_below _ _ all, FileSystem.target_congr changes.working]
    rfl
  rw [SameFile, FileSystem.target_congr (later_changes confined first second proper).working, goal]
  exact ⟨contents, held, (later_keeps confined first second proper names).stays _ held⟩

theorem returned_reads (clear : start.Clear outRoot) {contents : Bytes}
    (reads : (earlier.left commands).read path = .ok contents) :
    (later.left commands).read path = .ok contents := by
  have proper' := first.changes.proper proper
  have changes := earlier.changes confined proper' first.fits.plain
  have further := later_changes confined first second proper
  obtain ⟨names, all, rfl, -⟩ := earlier.returned confined changes proper' returned mem
  refine FileSystem.read_of_stays further.working reads fun place passes kind => ?_
  rw [FileSystem.origin_below _ _ all, FileSystem.origin_congr changes.working] at passes
  rcases earlier.way all passes with before | within
  · have isName := earlier.workshop.isName_runName
    rw [Compilation.run, CommandCompiler.runDirectory, Path.ofText,
      FileSystem.origin_join _ _ (Path.isAbsolute_name isName), first.fits.shared,
      FileSystem.origin_congr first.changes.working] at before
    refine (further.keeps place ?_).stays kind
    rintro ⟨number, beyond, inside⟩
    refine clear place before ⟨number, Nat.le_trans first.runs (Nat.le_of_succ_le beyond), ?_⟩
    rw [← first.place_after confined proper]
    exact inside
  · obtain ⟨more, rfl⟩ := within
    exact (later_keeps confined first second proper more).stays kind

end

/-- What a compiler has returned for one input is still there when it has compiled the next ones. -/
theorem compileAll_keeps_returned {compiler : CommandCompiler} {inputs : List CompileInput}
    (proper : start.files.root.Proper)
    (plain : Path.separator ∉ Utf8.encode compiler.sourceFileName) :
    (compiler.compileAll commands start inputs).Pairwise fun earlier later =>
      ∀ paths, earlier.result = .ok paths → ∀ path ∈ paths,
        SameFile earlier.workshop.files later.workshop.files path := by
  have fit : ∀ request ∈ inputs.map (compiler, ·), Fits compiler.outRoot request :=
    List.forall_mem_map.mpr fun _ _ => ⟨rfl, plain⟩
  have follow := compilations_follow confined proper fit
  rw [compileAll_eq, List.pairwise_map]
  refine (compilations_pairwise confined proper fit).imp_of_mem ?_
  intro earlier later memEarlier _ second paths returned path mem
  exact returned_same confined (follow earlier memEarlier) second proper returned mem

/-- Compilations of one process do not get in each other's way: they have run directories of their
own, each program is started with its own output directory and the sources of its own call, and what
earlier calls left and returned is still there after later ones.  By its paths it is found too, as
long as the way of `outRoot` leads through no run directory that is still to come. -/
theorem compilations_isolated (proper : start.files.root.Proper)
    (fit : ∀ request ∈ requests, Fits outRoot request) :
    ((compilations commands start requests).map Compilation.place).Nodup ∧
    (∀ call ∈ compilations commands start requests, ∀ arguments,
      (call.attempt commands).started = some arguments →
      ∃ sources files completion,
        call.compiler.Sources call.workshop files call.input sources ∧
        arguments = call.compiler.arguments.map Utf8.encode ++
          outFlag :: (outDirectory call.run).bytes :: sources.map Path.bytes ∧
        launch commands files call.compiler.program arguments = .ok completion ∧
        call.left commands = completion.files) ∧
    (compilations commands start requests).Pairwise fun earlier later =>
      (∀ names,
        Keeps (earlier.left commands) (later.left commands) (earlier.place ++ names)) ∧
      ∀ paths, (earlier.attempt commands).result = .ok paths → ∀ path ∈ paths,
        SameFile (earlier.left commands) (later.left commands) path ∧
        (start.Clear outRoot → ∀ contents, (earlier.left commands).read path = .ok contents →
          (later.left commands).read path = .ok contents) := by
  have follow := compilations_follow confined proper fit
  have pairwise := compilations_pairwise confined proper fit
  refine ⟨?_, ?_, ?_⟩
  · rw [List.Nodup, List.pairwise_map]
    refine pairwise.imp_of_mem fun {earlier later} mem _ second same => ?_
    refine (follow earlier mem).not_inRuns confined proper [] ?_
    rw [List.append_nil, same]
    exact second.inRuns
  · intro call mem arguments started
    exact (call.ends commands).of_started ((follow call mem).changes.proper proper) started
  · refine pairwise.imp_of_mem fun {earlier later} memEarlier _ second => ?_
    have first := follow earlier memEarlier
    exact ⟨later_keeps confined first second proper, fun paths returned path mem =>
      ⟨returned_same confined first second proper returned mem, fun clear contents reads =>
        returned_reads confined first second proper returned mem clear reads⟩⟩

end

/-! ## A call that fails after one that succeeds -/

open CommandCompiler (named opened begun staged oneObject compile_singleton)

/-- A program that leaves a file, and fails. -/
def failing : Script where
  outputs := [(.ofText "b.nir", some [0x2A])]
  status := .code 1

def bothCommands : Commands :=
  [(Utf8.encode "nc", oneObject.program), (Utf8.encode "nd", failing.program)]

def bothRequests : List (CommandCompiler × CompileInput) :=
  [(named "main.src", .source "one"),
    ({ named "main.src" with program := .ofText "nd" }, .source "two")]

/-- The first of the calls. -/
def opening : Compilation where
  compiler := named "main.src"
  workshop := opened []
  input := .source "one"

theorem bothCommands_confined : ∀ command ∈ bothCommands, Confined command.2 := by
  refine List.forall_mem_cons.mpr ⟨?_, List.forall_mem_singleton.mpr ?_⟩
  all_goals
    refine Script.confined fun output mem _ => ?_
    obtain rfl := List.mem_singleton.mp mem
    exact ⟨by decide, by decide, by decide⟩

theorem compilations_isolated_failing :
    ∃ first second,
      compilations bothCommands (opened []) bothRequests = [first, second] ∧
      (first.attempt bothCommands).result = .ok [.ofText "runs/run_7_0/out/a.nir"] ∧
      first.place ≠ second.place ∧
      (second.left bothCommands).read (.ofText "runs/run_7_0/out/a.nir") = .ok [0x2A] := by
  have fit : ∀ request ∈ bothRequests, Fits (.ofText "runs") request :=
    List.forall_mem_cons.mpr ⟨⟨rfl, by decide⟩, List.forall_mem_singleton.mpr ⟨rfl, by decide⟩⟩
  have unnamed : (opened []).Unnamed (.ofText "runs") := by
    intro number _ mem
    have way : (opened []).files.origin (.ofText "runs") ++
        Path.segments (.ofText "runs") = [Utf8.encode "runs"] := by
      decide
    rw [way] at mem
    have same := congrArg String.toList (Utf8.encode_injective (List.mem_singleton.mp mem))
    rw [Workshop.runName_toList] at same
    cases same
  have proper : (opened []).files.root.Proper := FileTree.proper_empty
  obtain ⟨distinct, -, undisturbed⟩ := compilations_isolated bothCommands_confined proper fit
  have prepared : opening.compiler.prepare opening.workshop opening.input =
      (.ok [.ofText "runs/run_7_0/src/main.src"],
        begun [(Utf8.encode "out", .empty), staged "one"]) := by rfl
  have ended : opening.attempt bothCommands = _ :=
    opening.attempt_of_launched (oneObject.program _ _) prepared (by rfl)
  rw [bothRequests, compilations_cons, compilations_cons] at distinct undisturbed ⊢
  have returned : (opening.attempt bothCommands).result =
      .ok [.ofText "runs/run_7_0/out/a.nir"] := by
    rw [opening, Compilation.attempt_mk]
    exact compile_singleton (oneObject.program _ _) (Utf8.encode "a.nir") [0x2A] prepared (by rfl)
      (by rfl) (by rfl)
  have reads : (opening.left bothCommands).read (.ofText "runs/run_7_0/out/a.nir") =
      .ok [0x2A] := by
    rw [Compilation.left, ended]
    rfl
  refine ⟨_, _, rfl, returned, ?_, ?_⟩
  · exact fun same => (List.nodup_cons.mp distinct).1 (by rw [same]; exact List.mem_cons_self)
  · have spared := (List.pairwise_cons.mp undisturbed).1 _ List.mem_cons_self
    exact (spared.2 _ returned _ List.mem_cons_self).2 (Workshop.clear_of_unnamed unnamed) _ reads

/-! ## A way through a run directory -/

/-- Puts a file where `x` is in its output directory, whatever was there. -/
def replacing : Program := fun arguments files =>
  { files :=
      match outDirectory? arguments with
      | none => files
      | some out =>
        { files with
          root := files.root.place (files.target out ++ [Utf8.encode "x"]) (.file [0x2A]) }
    stderr := []
    status := .code 0 }

theorem replacing_confined : Confined replacing := by
  intro arguments files out given
  have isName : IsName (Utf8.encode "x") := ⟨by decide, by decide, by decide, by decide⟩
  simp only [replacing, given]
  refine ⟨rfl, fun proper => proper.place isName (.file _), fun names apart => ?_⟩
  refine .of_same (FileTree.kind?_place_outside fun within => apart ?_)
  obtain ⟨more, rfl⟩ := within
  refine ⟨⟨Utf8.encode "x" :: more, ?_⟩, fun same => ?_⟩
  · rw [List.append_assoc, List.singleton_append]
  · rw [List.append_assoc, List.append_right_eq_self] at same
    cases same

def replaced : Commands :=
  [(Utf8.encode "nc", replacing)]

/-- Its way leads through the output directory of the second run. -/
def winding : CommandCompiler where
  program := .ofText "nc"
  arguments := []
  outRoot := .ofText "run_7_1/out/x/../../.."
  sourceFileName := "main.src"

/-- What a run has as `x` in its output directory. -/
def outWith (x : FileTree) : Bytes × FileTree :=
  (Utf8.encode "out", .directory [(Utf8.encode "x", x)])

/-- The directory of the second run is made on the way to that of the first. -/
def bothRuns (second first : List (Bytes × FileTree)) : FileSystem where
  root := .directory
    [(Utf8.encode "run_7_1", .directory second), (Utf8.encode "run_7_0", .directory first)]
  working := []

def windingFirst : Compilation where
  compiler := winding
  workshop := opened []
  input := .source "one"

def windingSecond : Compilation where
  compiler := winding
  workshop :=
    (opened []).after (bothRuns [outWith .empty] [outWith (.file [0x2A]), staged "one"])
  input := .source "two"

theorem windingFirst_prepared :
    winding.prepare (opened []) (.source "one") =
      (.ok [.ofText "run_7_1/out/x/../../../run_7_0/src/main.src"],
        bothRuns [outWith .empty] [(Utf8.encode "out", .empty), staged "one"]) := by
  rfl

theorem windingFirst_left :
    windingFirst.left replaced =
      bothRuns [outWith .empty] [outWith (.file [0x2A]), staged "one"] := by
  have ended : windingFirst.attempt replaced = _ :=
    windingFirst.attempt_of_launched (replacing _ _) windingFirst_prepared (by rfl)
  rw [Compilation.left, ended]
  rfl

theorem windingFirst_returned :
    (windingFirst.attempt replaced).result =
      .ok [.ofText "run_7_1/out/x/../../../run_7_0/out/x"] := by
  rw [windingFirst, Compilation.attempt_mk]
  exact compile_singleton (replacing _ _) (Utf8.encode "x") [0x2A] windingFirst_prepared (by rfl)
    (by rfl) (by rfl)

theorem windingSecond_left :
    windingSecond.left replaced = bothRuns [outWith (.file [0x2A]), staged "two"]
      [outWith (.file [0x2A]), staged "one"] := by
  have prepared : winding.prepare windingSecond.workshop (.source "two") =
      (.ok [.ofText "run_7_1/out/x/../../../run_7_1/src/main.src"],
        bothRuns [outWith .empty, staged "two"] [outWith (.file [0x2A]), staged "one"]) := by rfl
  have ended : windingSecond.attempt replaced = _ :=
    windingSecond.attempt_of_launched (replacing _ _) prepared (by rfl)
  rw [Compilation.left, ended]
  rfl

/-- Its input is a file. -/
def lone : Compilation where
  compiler := named "main.src"
  workshop := opened [(Utf8.encode "a.src", .file [0x2A])]
  input := .directory (.ofText "a.src")

def loneFiles : FileSystem where
  root := .directory [(Utf8.encode "a.src", .file [0x2A]),
    (Utf8.encode "runs", .directory [(Utf8.encode "run_7_0",
      .directory [(Utf8.encode "out", .empty)])])]
  working := []

/-- A later call can cut off the path that an earlier one returned, when the way to the run
directories leads through its own, with a program that keeps to its output directory and no run
directory there at first.  And a file that is given as a directory is passed on itself, though
nothing is below it. -/
theorem returned_path_lost :
    (∀ command ∈ replaced, Confined command.2) ∧
    (∀ number, (opened []).files.kind? ((opened []).place winding.outRoot number) = none) ∧
    compilations replaced (opened []) [(winding, .source "one"), (winding, .source "two")] =
      [windingFirst, windingSecond] ∧
    (windingFirst.attempt replaced).result =
      .ok [.ofText "run_7_1/out/x/../../../run_7_0/out/x"] ∧
    (windingFirst.left replaced).read (.ofText "run_7_1/out/x/../../../run_7_0/out/x") =
      .ok [0x2A] ∧
    (windingSecond.left replaced).read (.ofText "run_7_1/out/x/../../../run_7_0/out/x") =
      .error .notDirectory ∧
    (lone.attempt replaced).started =
      some [outFlag, Utf8.encode "runs/run_7_0/out", Utf8.encode "a.src"] ∧
    ∀ names, names ≠ [] →
      ¬lone.workshop.files.IsFile (lone.workshop.files.target (.ofText "a.src") ++ names) := by
  refine ⟨?_, fun _ => rfl, ?_, ?_, ?_, ?_, ?_, ?_⟩
  · intro command mem
    obtain rfl := List.mem_singleton.mp mem
    exact replacing_confined
  · rw [compilations_cons, compilations_cons, compilations]
    change
      [windingFirst, ⟨winding, (opened []).after (windingFirst.left replaced), .source "two"⟩] =
        [windingFirst, windingSecond]
    rw [windingFirst_left]
    rfl
  · exact windingFirst_returned
  · rw [windingFirst_left]
    rfl
  · rw [windingSecond_left]
    rfl
  · have made :
        lone.workshop.files.makeDirectories (outDirectory lone.run) = (.ok (), loneFiles) := by
      rfl
    have listed : loneFiles.list (.ofText "a.src") = .ok [.ofText "a.src"] :=
      FileSystem.list_file (by rfl)
    have prepared : lone.compiler.prepare lone.workshop lone.input =
        (.ok [.ofText "a.src"], loneFiles) := by
      unfold CommandCompiler.prepare
      rw [← Compilation.run, made]
      simp only [lone, CommandCompiler.stage, FileSystem.artifacts, listed]
    have ended : lone.attempt replaced = _ :=
      lone.attempt_of_launched (replacing _ _) prepared (by rfl)
    rw [ended]
    rfl
  · rintro names some ⟨contents, held⟩
    obtain ⟨name, rest, rfl⟩ := List.exists_cons_of_ne_nil some
    cases held

end LinkGate
