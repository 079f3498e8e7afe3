import LinkGate.CommandLine.Run
import LinkGate.Proofs.CallGraph.Documents
import LinkGate.Proofs.Gate.MarkerUses
import LinkGate.Proofs.Json.OneLine
import LinkGate.Proofs.Report.Members

/-!
# One verdict everywhere

The verdict of a check is in its hits, and shows in many places: in the state of the gate, in the
exit code, in a printed report, in the lines on the error stream, and in what a build is told that
asks to be stopped.  `SameVerdict` says that all of them agree, whichever way the command is run and
whatever it logs.
-/

set_option autoImplicit false

namespace LinkGate

/-! ## The check of a graph -/

namespace CallGraph

/-- The bytes are no document of a graph, or of one whose functions cannot be told apart. -/
def Unfit (text : Bytes) : Prop :=
  (∃ error, read text = .error error) ∨ ∃ graph, read text = .ok graph ∧ ¬graph.WellNamed

section
variable {graph : CallGraph} {config : LinkConfig} {outcome : Outcome} {text : Bytes}

theorem checkDocument_cases (text : Bytes) (config : LinkConfig) :
    (Unfit text ∧ ∃ error, checkDocument text config = .error error) ∨
      ∃ graph outcome events, read text = .ok graph ∧ graph.check config = .ok outcome ∧
        checkDocument text config = .ok (outcome, events) := by
  cases parsed : read text with
  | error error =>
    have failed : checkDocument text config = .error error := by
      rw [checkDocument, parsed]
      rfl
    exact .inl ⟨.inl ⟨error, parsed⟩, error, failed⟩
  | ok graph =>
    cases indexed : graph.index with
    | error error =>
      have unnamed : ¬graph.WellNamed := by
        rw [← valid_iff, Valid, indexed]
        simp
      have failed : checkDocument text config = .error error := by
        simp [checkDocument, parsed, indexed, bind, Except.bind]
      exact .inl ⟨.inr ⟨graph, parsed, unnamed⟩, error, failed⟩
    | ok index =>
      obtain ⟨outcome, checked⟩ :=
        (exists_check_iff config).mpr (valid_iff.mp ⟨index, indexed⟩)
      have passed : checkDocument text config = .ok (outcome, graph.checkEvents index outcome) := by
        simp [checkDocument, parsed, indexed, checked, bind, Except.bind, pure, Except.pure]
      exact .inr ⟨graph, outcome, _, rfl, checked, passed⟩

end

end CallGraph

theorem Outcome.exitCode_of_check {graph : CallGraph} {config : LinkConfig} {outcome : Outcome}
    (checked : graph.check config = .ok outcome) :
    outcome.exitCode = if outcome.hits = [] then 0 else 1 := by
  rw [exitCode, isOpen, CallGraph.state_of_check checked]
  by_cases none : outcome.hits = [] <;> simp [none]

/-! ## The command -/

/-- A world in which only the variable that the log filter is read from may differ. -/
def World.logging (world : World) (value : Option Bytes) : World where
  read := world.read
  environment name := if name = logVariable then value else world.environment name

theorem resolve_logging (world : World) (value : Option Bytes) (path : Option Path)
    (given : LinkConfig.Overrides) :
    LinkConfig.resolve (world.logging value) path given =
      LinkConfig.resolve world path given := by
  have apart (s : LinkConfig.Setting) :
      (world.logging value).environment s.environmentName =
        world.environment s.environmentName := by
    have other : s.environmentName ≠ logVariable := by
      cases s <;> decide
    exact if_neg other
  have same : LinkConfig.Overrides.ofEnvironment (world.logging value).environment =
      LinkConfig.Overrides.ofEnvironment world.environment := by
    simp only [LinkConfig.Overrides.ofEnvironment, LinkConfig.Setting.ofEnvironment, apart]
  rw [LinkConfig.resolve, LinkConfig.resolve, same]
  cases path <;> rfl

/-! ## What has to agree -/

/-- A printed report gives the exit code and the number of its diagnostics, and is fine when the
code says so. -/
structure Summary (members : Json.Members) (code count : Nat) : Prop where
  keys : (members.map Prod.fst).Nodup
  exitCode : members.lookup "exit_code" = some (.integer code)
  ok : members.lookup "ok" = some (.bool (code = 0))
  counted : members.lookup "diagnostics_count" = some (.integer count)
  diagnostics : ∃ listed, members.lookup "diagnostics" = some (.array listed) ∧
    listed.length = count

section
variable (text : Bytes) (config : LinkConfig) (code : Nat)

/-- The exit code that the bytes of a graph file call for. -/
structure CodeFor : Prop where
  unfit : code = 2 ↔ CallGraph.Unfit text
  closed : code = 1 ↔ ∃ graph outcome, CallGraph.read text = .ok graph ∧
    graph.check config = .ok outcome ∧ outcome.hits ≠ []
  opened : code = 0 ↔ ∃ graph outcome, CallGraph.read text = .ok graph ∧
    graph.check config = .ok outcome ∧ outcome.hits = []

structure ReportFor (members : Json.Members) (count : Nat) : Prop extends
    Summary members code count where
  unfit : CallGraph.Unfit text → count = 1
  hits : ∀ graph outcome, CallGraph.read text = .ok graph → graph.check config = .ok outcome →
    count = outcome.hits.length
  gate : ∀ graph, CallGraph.read text = .ok graph → graph.WellNamed →
    ∃ facts, members.lookup "meta" = some (.object facts) ∧
      facts.lookup "gate" = some (.string (if code = 0 then "open" else "closed"))

/-- What a build is told that asks to be stopped. -/
structure EnforcedBy (graph : CallGraph) : Prop where
  proceeds : (∃ outcome, graph.enforce config = .ok outcome) ↔ code = 0
  invalid : (∃ error, graph.enforce config = .error (.invalid error)) ↔ ¬graph.WellNamed
  aborts : code = 1 → ∃ outcome, graph.check config = .ok outcome ∧
    graph.enforce config = .error (.closed ⟨outcome.hits⟩)

end

/-- How the command ends on a graph file that holds `text`, with the standard output of a run that
prints a report and the error stream of one that does not. -/
structure SameVerdict (world : World) (link : LinkRequest) (path : Path) (text : Bytes)
    (config : LinkConfig) (code : Nat) : Prop where
  called : CodeFor text config code
  exits : ∀ value verbose reportJson, (Invocation.run (world.logging value)
    ⟨verbose, .check link path reportJson⟩).exitCode = code
  reports : ∀ value verbose, ∃ members count, (Invocation.run (world.logging value)
      ⟨verbose, .check link path true⟩).stdout = (Json.object members).text ++ "\n" ∧
    Json.Unbroken (Json.object members).chars ∧ ReportFor text config code members count
  blocks : ∀ value verbose graph outcome, CallGraph.read text = .ok graph →
    graph.check config = .ok outcome → ∃ noted : List Event,
      noted.Sublist
        (Invocation.run (world.logging value) ⟨verbose, .check link path false⟩).events ∧
      Invocation.errorStream (world.logging value) ⟨verbose, .check link path false⟩ =
        String.join (noted.map fun event => event.line ++ "\n") ++
          String.join (outcome.hits.map fun hit => "error: " ++ hit.text ++ "\n")
  enforced : ∀ graph, CallGraph.read text = .ok graph → EnforcedBy config code graph

/-! ## Why it agrees -/

theorem Report.summary (report : Report) (file : String) (code : Nat)
    (fine : report.ok = decide (code = 0)) :
    ∃ members, report.ofCheck file code = .object members ∧
      Summary members code report.diagnostics.length ∧
      (report.facts ≠ [] → members.lookup "meta" = some (.object report.facts)) := by
  refine ⟨_, rfl, ⟨?_, rfl, ?_, rfl, _, rfl, List.length_map _⟩, ?_⟩
  · rw [Report.members]
    cases report.facts.isEmpty <;> simp
  · rw [← fine]
    rfl
  · intro some
    rw [Report.members, if_neg (by simpa using some)]
    rfl

section
variable {world : World} {link : LinkRequest} {path : Path} {text : Bytes} {config : LinkConfig}
  {graph : CallGraph} {outcome : Outcome}

theorem run_check (resolved : LinkConfig.resolve world link.config link.given = .ok config)
    (value : Option Bytes) (verbose reportJson : Bool) :
    Invocation.run (world.logging value) ⟨verbose, .check link path reportJson⟩ =
      Command.checkFile world config path reportJson := by
  have again : LinkConfig.resolve (world.logging value) link.config link.given = .ok config :=
    (resolve_logging world value link.config link.given).trans resolved
  simp only [Invocation.run, Command.run, Command.link, again]
  rfl

theorem CallGraph.outcome_unique (parsed : read text = .ok graph)
    (checked : graph.check config = .ok outcome) {other : CallGraph} {found : Outcome}
    (parsed' : read text = .ok other) (checked' : other.check config = .ok found) :
    found = outcome := by
  rw [parsed, Except.ok.injEq] at parsed'
  subst parsed'
  rw [checked, Except.ok.injEq] at checked'
  exact checked'.symm

theorem CallGraph.not_unfit_of_check (parsed : read text = .ok graph)
    (checked : graph.check config = .ok outcome) : ¬Unfit text := by
  rintro (⟨error, failed⟩ | ⟨other, parsed', unnamed⟩)
  · rw [failed] at parsed
    cases parsed
  · rw [parsed', Except.ok.injEq] at parsed
    subst parsed
    exact unnamed ((exists_check_iff config).mp ⟨outcome, checked⟩)

theorem codeFor_unfit (unfit : CallGraph.Unfit text) : CodeFor text config 2 := by
  refine ⟨iff_of_true rfl unfit, iff_of_false (by decide) ?_, iff_of_false (by decide) ?_⟩
  all_goals
    rintro ⟨graph, outcome, parsed, checked, -⟩
    exact CallGraph.not_unfit_of_check parsed checked unfit

theorem codeFor_check (parsed : CallGraph.read text = .ok graph)
    (checked : graph.check config = .ok outcome) :
    CodeFor text config (if outcome.hits = [] then 0 else 1) := by
  have fit := CallGraph.not_unfit_of_check parsed checked
  constructor
  case unfit =>
    refine iff_of_false ?_ fit
    split <;> decide
  case closed =>
    constructor
    · intro one
      refine ⟨graph, outcome, parsed, checked, fun none => ?_⟩
      rw [if_pos none] at one
      cases one
    · rintro ⟨other, found, parsed', checked', some⟩
      rw [CallGraph.outcome_unique parsed checked parsed' checked'] at some
      exact if_neg some
  case opened =>
    constructor
    · intro zero
      refine ⟨graph, outcome, parsed, checked, ?_⟩
      by_contra some
      rw [if_neg some] at zero
      cases zero
    · rintro ⟨other, found, parsed', checked', none⟩
      rw [CallGraph.outcome_unique parsed checked parsed' checked'] at none
      exact if_pos none

theorem CallGraph.unnamed_of_unfit (unfit : Unfit text) (parsed : read text = .ok graph) :
    ¬graph.WellNamed := by
  intro named
  obtain ⟨outcome, checked⟩ := (exists_check_iff .standard).mpr named
  exact not_unfit_of_check parsed checked unfit

theorem enforcedBy_unnamed (unnamed : ¬graph.WellNamed) : EnforcedBy config 2 graph := by
  have failed : ∃ error, graph.enforce config = .error (.invalid error) := by
    obtain ⟨error, refused⟩ := CallGraph.check_of_invalid (mt CallGraph.valid_iff.mp unnamed) config
    exact ⟨error, by rw [CallGraph.enforce, refused]⟩
  constructor
  case proceeds =>
    obtain ⟨error, failed⟩ := failed
    simp [failed]
  case invalid => exact iff_of_true failed unnamed
  case aborts => exact fun one => absurd one (by decide)

theorem enforcedBy_check (checked : graph.check config = .ok outcome) :
    EnforcedBy config (if outcome.hits = [] then 0 else 1) graph := by
  have enforced := CallGraph.enforce_of_check checked
  have named : graph.WellNamed :=
    (CallGraph.exists_check_iff config).mp ⟨outcome, checked⟩
  by_cases none : outcome.hits = []
  · rw [if_pos none] at enforced ⊢
    exact ⟨by simp [enforced], by simp [enforced, named], nofun⟩
  · rw [if_neg none] at enforced ⊢
    exact ⟨by simp [enforced], by simp [enforced, named], fun _ => ⟨outcome, checked, enforced⟩⟩

theorem reportFor_unfit (config : LinkConfig) (unfit : CallGraph.Unfit text) (error : GraphError)
    (file : String) :
    ∃ members, (error.report file).ofCheck file 2 = .object members ∧
      ReportFor text config 2 members 1 := by
  have closed : (error.report file).ok = false := by simp [GraphError.report]
  obtain ⟨members, printed, summary, -⟩ := (error.report file).summary file 2 closed
  refine ⟨members, printed, ?_, fun _ => rfl, ?_, ?_⟩
  · simpa [GraphError.report] using summary
  · intro graph outcome parsed checked
    exact absurd unfit (CallGraph.not_unfit_of_check parsed checked)
  · intro graph parsed named
    exact absurd named (CallGraph.unnamed_of_unfit unfit parsed)

theorem reportFor_check (parsed : CallGraph.read text = .ok graph)
    (checked : graph.check config = .ok outcome) (file : String) :
    ∃ members, outcome.report.ofCheck file outcome.exitCode = .object members ∧
      ReportFor text config outcome.exitCode members outcome.hits.length := by
  have code := Outcome.exitCode_of_check checked
  have fine : outcome.report.ok = decide (outcome.exitCode = 0) := by
    rw [Outcome.ok_report, code]
    cases outcome.hits <;> simp
  have gate := outcome.gate_report
  obtain ⟨members, printed, summary, held⟩ := outcome.report.summary file _ fine
  rw [outcome.length_diagnostics_report] at summary
  refine ⟨members, printed, summary, ?_, ?_, ?_⟩
  · intro unfit
    exact absurd unfit (CallGraph.not_unfit_of_check parsed checked)
  · intro other found parsed' checked'
    rw [CallGraph.outcome_unique parsed checked parsed' checked']
  · intro other parsed' named
    refine ⟨_, held ?_, ?_⟩
    · intro none
      rw [none] at gate
      cases gate
    · rw [gate, CallGraph.state_of_check checked, code]
      by_cases none : outcome.hits = [] <;> simp [none, GateState.name]

theorem sameVerdict_unfit (readable : world.read path = .ok text)
    (resolved : LinkConfig.resolve world link.config link.given = .ok config)
    (unfit : CallGraph.Unfit text) {error : GraphError}
    (failed : CallGraph.checkDocument text config = .error error) :
    SameVerdict world link path text config 2 where
  called := codeFor_unfit unfit
  exits value verbose reportJson := by
    rw [run_check resolved]
    simp only [Command.checkFile, readable, failed]
    cases reportJson <;> rfl
  reports value verbose := by
    obtain ⟨members, printed, told⟩ := reportFor_unfit config unfit error path.text
    refine ⟨members, 1, ?_, Json.unbroken_chars _, told⟩
    rw [run_check resolved]
    simp only [Command.checkFile, readable, failed, printed]
    rfl
  blocks value verbose graph outcome parsed checked :=
    absurd unfit (CallGraph.not_unfit_of_check parsed checked)
  enforced graph parsed := enforcedBy_unnamed (CallGraph.unnamed_of_unfit unfit parsed)

theorem sameVerdict_check (readable : world.read path = .ok text)
    (resolved : LinkConfig.resolve world link.config link.given = .ok config)
    (parsed : CallGraph.read text = .ok graph) (checked : graph.check config = .ok outcome)
    {events : List Event} (passed : CallGraph.checkDocument text config = .ok (outcome, events)) :
    SameVerdict world link path text config outcome.exitCode where
  called := by
    rw [Outcome.exitCode_of_check checked]
    exact codeFor_check parsed checked
  exits value verbose reportJson := by
    rw [run_check resolved]
    simp only [Command.checkFile, readable, passed]
    cases reportJson <;> rfl
  reports value verbose := by
    obtain ⟨members, printed, told⟩ := reportFor_check parsed checked path.text
    refine ⟨members, _, ?_, Json.unbroken_chars _, told⟩
    rw [run_check resolved]
    simp only [Command.checkFile, readable, passed, printed]
    rfl
  blocks value verbose other found parsed' checked' := by
    rw [CallGraph.outcome_unique parsed checked parsed' checked', Invocation.errorStream,
      run_check resolved]
    simp only [Command.checkFile, readable, passed]
    exact ⟨_, List.filter_sublist, rfl⟩
  enforced other parsed' := by
    rw [parsed, Except.ok.injEq] at parsed'
    subst parsed'
    rw [Outcome.exitCode_of_check checked]
    exact enforcedBy_check checked

/-- For whatever a readable graph file holds, and whatever configuration resolves. -/
theorem check_same_verdict (readable : world.read path = .ok text)
    (resolved : LinkConfig.resolve world link.config link.given = .ok config) :
    ∃ code, SameVerdict world link path text config code := by
  rcases CallGraph.checkDocument_cases text config with
    ⟨unfit, error, failed⟩ | ⟨graph, outcome, events, parsed, checked, passed⟩
  · exact ⟨2, sameVerdict_unfit readable resolved unfit failed⟩
  · exact ⟨_, sameVerdict_check readable resolved parsed checked passed⟩

end

/-- A world in which every file is one graph, with uses that cannot pass. -/
def entangledWorld : World where
  read _ := .ok (Utf8.encode CallGraph.entangled.document)
  environment _ := none

theorem check_same_verdict_entangled :
    entangledWorld.read (.ofText "graph.json") =
        .ok (Utf8.encode CallGraph.entangled.document) ∧
      LinkConfig.resolve entangledWorld none {} = .ok .standard ∧
      SameVerdict entangledWorld {} (.ofText "graph.json")
        (Utf8.encode CallGraph.entangled.document) .standard 1 := by
  have resolved : LinkConfig.resolve entangledWorld none {} = .ok .standard := rfl
  have parsed : CallGraph.read (Utf8.encode CallGraph.entangled.document) =
      .ok CallGraph.entangled := by
    rw [CallGraph.read_document, if_pos (by decide +kernel)]
  have closed : ∃ outcome, CallGraph.entangled.check .standard = .ok outcome ∧
      outcome.hits ≠ [] := by
    have some : (CallGraph.entangled.check .standard).toOption.any (!·.hits.isEmpty) = true := by
      decide +kernel
    cases checked : CallGraph.entangled.check .standard with
    | error error =>
      rw [checked] at some
      cases some
    | ok outcome =>
      rw [checked] at some
      exact ⟨outcome, rfl, by simpa [Except.toOption] using some⟩
  obtain ⟨outcome, checked, some⟩ := closed
  have agreed : ∃ code, SameVerdict entangledWorld {} (.ofText "graph.json")
      (Utf8.encode CallGraph.entangled.document) .standard code :=
    check_same_verdict rfl resolved
  obtain ⟨code, same⟩ := agreed
  have one : code = 1 := same.called.closed.mpr ⟨_, outcome, parsed, checked, some⟩
  exact ⟨rfl, resolved, one ▸ same⟩

end LinkGate
