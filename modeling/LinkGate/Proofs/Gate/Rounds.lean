import LinkGate.Proofs.Gate.Trails
import Mathlib.Data.List.Dedup

/-!
# A check step by step

A check goes through the entry points, and then in rounds: it takes a name from the queue and goes
through the calls of that function, which may put further names in the queue.  `Stage` is where it
stands between two steps, and `Run` are the stages it comes to, with all that was done and all that
was put in the queue before.  A run is given no number of steps: it goes on while there is anything
left to do.

Still every run ends (`Run.exists_end`).  What has been done and what is left to do is always the
entry points and then the calls of one name after the other (`Held`), and these names are the ones
that were noted, so that none is put in the queue twice.  Since a name is noted behind its caller,
the notes lead from every name back to an entry point.
-/

set_option autoImplicit false

namespace LinkGate

namespace CallGraph

/-- The names among the entry points and the targets of calls that are no markers, each once. -/
def plainNames (graph : CallGraph) : List String :=
  ((Walk.namedBy graph).filter fun name => Capability.ofMarker? name = none).dedup

/-- The calls of a function, each with the function's name. -/
def Index.namedCalls (index : Index) (name : String) : List (String × CallSite) :=
  (index.calls name).map (name, ·)

end CallGraph

namespace Walk

/-- What is done about one entry point, or about one call that a function makes. -/
inductive Task where
  | enter (entry : String)
  | follow (name : String) (call : CallSite)

def Task.run (config : LinkConfig) (walk : Walk) : Task → Walk
  | enter entry => walk.enter config entry
  | follow name call => walk.follow config name call

inductive Act where
  | task (task : Task)
  /-- A round begins. -/
  | take (name : String)

namespace Act

def entry? : Act → Option String
  | task (.enter entry) => some entry
  | _ => none

def call? : Act → Option (String × CallSite)
  | task (.follow name call) => some (name, call)
  | _ => none

def taken? : Act → Option String
  | take name => some name
  | _ => none

/-- What is left of the queue, before anything is put in. -/
def kept (queue : List String) : Act → List String
  | task _ => queue
  | take _ => queue.tail

end Act

/-- The names that were taken, one for each round. -/
def rounds (acts : List Act) : List String :=
  acts.filterMap Act.taken?

/-- The calls of a function that were looked at. -/
def scanned (name : String) (acts : List Act) : List CallSite :=
  ((acts.filterMap Act.call?).filter (·.1 == name)).map (·.2)

structure Stage where
  /-- What is done before the next name is taken from the queue. -/
  tasks : List Task
  walk : Walk

def Stage.Ended (stage : Stage) : Prop :=
  stage.tasks = [] ∧ stage.walk.queue = []

inductive Step (config : LinkConfig) (index : CallGraph.Index) : Stage → Act → Stage → Prop where
  | task {task : Task} {tasks : List Task} {walk : Walk} :
    Step config index ⟨task :: tasks, walk⟩ (.task task) ⟨tasks, task.run config walk⟩
  | take {name : String} {rest : List String} {walk : Walk} (queue : walk.queue = name :: rest) :
    Step config index ⟨[], walk⟩ (.take name)
      ⟨(index.calls name).map (.follow name), { walk with queue := rest }⟩

/-- What has been done, the names that were put in the queue meanwhile, and the stage after it. -/
inductive Run (graph : CallGraph) (config : LinkConfig) (index : CallGraph.Index) :
    List Act → List String → Stage → Prop where
  | start : Run graph config index [] [] ⟨graph.entryPoints.map .enter, {}⟩
  | step {acts : List Act} {queued new : List String} {stage next : Stage} {act : Act}
    (run : Run graph config index acts queued stage) (step : Step config index stage act next)
    (added : next.walk.queue = act.kept stage.walk.queue ++ new) :
    Run graph config index (acts ++ [act]) (queued ++ new) next

/-- Where the notes lead from a name, link by link: to an entry point, over different names.  The
links come to an end by themselves, so that no more of them are followed where more are allowed. -/
structure LeadsBack (graph : CallGraph) (callers : Callers) (name : String) (names : List String) :
    Prop where
  back : callers.Back name names
  distinct : names.Nodup
  short : names.length ≤ callers.names.length
  ends : ∃ entry ∈ graph.entryPoints, names.getLast? = some entry
  enough : ∀ fuel, callers.names.length ≤ fuel → callers.backWithin fuel name = names
  trail : callers.trail name = names.reverse

/-- Nothing is done twice: no name is put in the queue again, each round has its own name, and the
calls of a function are looked at in their order and no further than to their end. -/
structure Thrifty (graph : CallGraph) (acts : List Act) (queued : List String) (stage : Stage) :
    Prop where
  once : queued.Nodup
  plain : ∀ name ∈ queued, name ∈ graph.plainNames
  inTurn : rounds acts <+: queued
  fewRounds : (rounds acts).length ≤ graph.plainNames.length
  scans : ∀ f ∈ graph.functions, scanned f.name acts <+: f.calls
  fewActs : acts.length ≤ graph.mentions + graph.plainNames.length
  recorded : stage.walk.callers.names = queued
  back : ∀ name ∈ queued, ∃ names, LeadsBack graph stage.walk.callers name names

/-! ## What one task does -/

section Tasks
variable {graph : CallGraph} {config : LinkConfig} {walk : Walk} {name : String}

/-- The same names are noted and put in the queue. -/
structure Notes (graph : CallGraph) (config : LinkConfig) (before after : Walk) (new : Callers) :
    Prop where
  callers : after.callers = before.callers ++ new
  queue : after.queue = before.queue ++ new.names
  grown : after.callers.Grown graph config

/-- A task that comes of the graph and of what was noted before. -/
def Task.Due (graph : CallGraph) (config : LinkConfig) (walk : Walk) : Task → Prop
  | enter entry => entry ∈ graph.entryPoints
  | follow name call => walk.callers.reached name ∧
    (call.Live config → graph.Calls config name call.target)

theorem notes_nothing (grown : walk.callers.Grown graph config) :
    Notes graph config walk walk [] where
  callers := (List.append_nil _).symm
  queue := (List.append_nil _).symm
  grown := grown

theorem notes_reach (grown : walk.callers.Grown graph config) {caller : Option String}
    (longer : ¬walk.callers.reached name →
      Callers.Grown graph config (walk.callers ++ [(name, caller)])) :
    ∃ new, Notes graph config walk (walk.reach name caller) new := by
  by_cases known : walk.callers.reached name
  · rw [reach_of_reached known]
    exact ⟨[], notes_nothing grown⟩
  · rw [reach_of_fresh known]
    exact ⟨[(name, caller)], rfl, rfl, longer known⟩

theorem notes_report (grown : walk.callers.Grown graph config) (hit : Hit) :
    Notes graph config walk (walk.report hit) [] where
  callers := (List.append_nil _).symm
  queue := (List.append_nil _).symm
  grown := grown

theorem notes_run (grown : walk.callers.Grown graph config) {task : Task}
    (due : task.Due graph config walk) :
    ∃ new, Notes graph config walk (task.run config walk) new := by
  cases task with
  | enter entry =>
    rw [Task.run, enter]
    cases marker : Capability.ofMarker? entry with
    | none => exact notes_reach grown fun fresh => .entry grown fresh due marker
    | some c => exact ⟨[], notes_report grown _⟩
  | follow name call =>
    obtain ⟨known, calls⟩ := due
    rw [Task.run, follow]
    by_cases live : call.Live config
    · rw [if_pos live]
      cases marker : Capability.ofMarker? call.target with
      | none => exact notes_reach grown fun fresh => .call grown fresh known (calls live) marker
      | some c => exact ⟨[], notes_report grown _⟩
    · rw [if_neg live]
      exact ⟨[], notes_nothing grown⟩

end Tasks

/-! ## What holds at every stage -/

/-- What has been done and what is to be done before the next round. -/
def plan (acts : List Act) (stage : Stage) : List Act :=
  acts ++ stage.tasks.map .task

/-- What has been done about calls, and what is to be done, is what the names call for that were
taken so far. -/
structure Held (graph : CallGraph) (config : LinkConfig) (index : CallGraph.Index)
    (acts : List Act) (queued : List String) (stage : Stage) : Prop where
  grown : stage.walk.callers.Grown graph config
  recorded : stage.walk.callers.names = queued
  order : queued = rounds acts ++ stage.walk.queue
  entered : (plan acts stage).filterMap Act.entry? = graph.entryPoints
  followed : (plan acts stage).filterMap Act.call? = (rounds acts).flatMap index.namedCalls

section Stages
variable {graph : CallGraph} {config : LinkConfig} {index : CallGraph.Index} {acts : List Act}
  {act : Act} {queued new : List String} {stage next : Stage}

theorem rounds_concat (acts : List Act) (act : Act) :
    rounds (acts ++ [act]) = rounds acts ++ act.taken?.toList := by
  rw [rounds, List.filterMap_append, filterMap_cons_toList, List.filterMap_nil, List.append_nil]
  rfl

theorem held_start : Held graph config index [] [] ⟨graph.entryPoints.map .enter, {}⟩ where
  grown := .start
  recorded := rfl
  order := rfl
  entered := by
    rw [plan, List.nil_append, List.map_map, List.filterMap_map]
    exact List.filterMap_some
  followed := by
    rw [plan, List.nil_append, List.map_map, List.filterMap_map]
    exact List.filterMap_eq_nil_iff.mpr fun _ _ => rfl

theorem plan_task (acts : List Act) (task : Task) (tasks : List Task) (walk after : Walk) :
    plan (acts ++ [.task task]) ⟨tasks, after⟩ = plan acts ⟨task :: tasks, walk⟩ := by
  rw [plan, plan, List.append_assoc, List.singleton_append, List.map_cons]

theorem Held.due (held : Held graph config index acts queued stage)
    (indexed : graph.index = .ok index) {task : Task} (ahead : task ∈ stage.tasks) :
    task.Due graph config stage.walk := by
  have planned : .task task ∈ plan acts stage :=
    List.mem_append_right acts (List.mem_map_of_mem ahead)
  cases task with
  | enter entry =>
    rw [Task.Due, ← held.entered]
    exact List.mem_filterMap.mpr ⟨_, planned, rfl⟩
  | follow name call =>
    have due : (name, call) ∈ (rounds acts).flatMap index.namedCalls := by
      rw [← held.followed]
      exact List.mem_filterMap.mpr ⟨_, planned, rfl⟩
    obtain ⟨taken, began, made⟩ := List.mem_flatMap.mp due
    obtain ⟨_, made, same⟩ := List.mem_map.mp made
    cases same
    constructor
    · rw [Callers.reached_iff, held.recorded, held.order]
      exact List.mem_append_left _ began
    · exact fun live => (CallGraph.calls_iff indexed).mpr ⟨call, made, live, rfl⟩

/-- Every step puts names behind what it keeps of the queue. -/
theorem Held.exists_added (held : Held graph config index acts queued stage)
    (indexed : graph.index = .ok index) (step : Step config index stage act next) :
    ∃ new, next.walk.queue = act.kept stage.walk.queue ++ new := by
  cases step with
  | task =>
    obtain ⟨new, notes⟩ := notes_run held.grown (held.due indexed List.mem_cons_self)
    exact ⟨_, notes.queue⟩
  | take queue => exact ⟨[], by simp [Act.kept, queue]⟩

theorem Held.step (held : Held graph config index acts queued stage)
    (indexed : graph.index = .ok index) (step : Step config index stage act next)
    (added : next.walk.queue = act.kept stage.walk.queue ++ new) :
    Held graph config index (acts ++ [act]) (queued ++ new) next := by
  cases step with
  | @task task tasks walk =>
    obtain ⟨more, notes⟩ := notes_run held.grown (held.due indexed List.mem_cons_self)
    have same : more.names = new := List.append_cancel_left (notes.queue.symm.trans added)
    have noRound : rounds (acts ++ [.task task]) = rounds acts := by
      rw [rounds_concat]
      exact List.append_nil _
    constructor
    · exact notes.grown
    · rw [notes.callers, Callers.names_append, held.recorded, same]
    · rw [noRound, notes.queue, same, ← List.append_assoc, ← held.order]
    · rw [plan_task acts task tasks walk, held.entered]
    · rw [plan_task acts task tasks walk, held.followed, noRound]
  | @take name rest walk queue =>
    have nothing : new = [] := by
      rw [Act.kept, queue] at added
      exact (List.append_right_eq_self.mp added.symm)
    have round : rounds (acts ++ [.take name]) = rounds acts ++ [name] := rounds_concat acts _
    have before : plan acts ⟨[], walk⟩ = acts := List.append_nil acts
    have entered := held.entered
    have followed := held.followed
    rw [before] at entered followed
    subst nothing
    rw [List.append_nil]
    constructor
    · exact held.grown
    · exact held.recorded
    · rw [round, held.order, queue, List.append_assoc, List.singleton_append]
    · rw [plan, List.filterMap_append, List.filterMap_append, entered, List.map_map,
        List.filterMap_map]
      simp [Act.entry?, Function.comp_def]
    · rw [plan, List.filterMap_append, List.filterMap_append, followed, round, List.flatMap_append,
        List.flatMap_singleton, List.map_map, List.filterMap_map, CallGraph.Index.namedCalls]
      simp [Act.call?, Function.comp_def]

theorem Run.held (indexed : graph.index = .ok index)
    (run : Run graph config index acts queued stage) :
    Held graph config index acts queued stage := by
  induction run with
  | start => exact held_start
  | step _ step added ih => exact ih.step indexed step added

/-! ## How often anything is done -/

theorem Held.once (held : Held graph config index acts queued stage) : queued.Nodup :=
  held.recorded ▸ held.grown.nodup

theorem Held.plain (held : Held graph config index acts queued stage) :
    ∀ name ∈ queued, name ∈ graph.plainNames := by
  intro name member
  rw [← held.recorded, ← Callers.reached_iff] at member
  have reachable := held.grown.reachable member
  rw [CallGraph.plainNames, List.mem_dedup, List.mem_filter]
  exact ⟨mem_namedBy reachable, decide_eq_true reachable.plain⟩

theorem Held.inTurn (held : Held graph config index acts queued stage) : rounds acts <+: queued :=
  ⟨stage.walk.queue, held.order.symm⟩

theorem Held.rounds_nodup (held : Held graph config index acts queued stage) :
    (rounds acts).Nodup :=
  held.once.sublist held.inTurn.sublist

theorem Held.fewRounds (held : Held graph config index acts queued stage) :
    (rounds acts).length ≤ graph.plainNames.length := by
  have inside : rounds acts ⊆ graph.plainNames := fun name member =>
    held.plain name (held.inTurn.subset member)
  exact (List.subperm_of_subset held.rounds_nodup inside).length_le

theorem length_plainNames (graph : CallGraph) : graph.plainNames.length ≤ graph.mentions := by
  rw [← length_namedBy, CallGraph.plainNames]
  exact (List.dedup_sublist _).length_le.trans (List.length_filter_le _ _)

/-- Of the calls of different names, those of one name are its own. -/
theorem scanned_namedCalls (index : CallGraph.Index) {names : List String} (distinct : names.Nodup)
    (name : String) :
    ((names.flatMap index.namedCalls).filter (·.1 == name)).map (·.2) =
      if name ∈ names then index.calls name else [] := by
  induction names with
  | nil => rfl
  | cons first rest ih =>
    rw [List.nodup_cons] at distinct
    have own : ((index.namedCalls first).filter (·.1 == name)).map (·.2) =
        if name = first then index.calls name else [] := by
      rw [CallGraph.Index.namedCalls]
      by_cases same : name = first
      · subst same
        simp [List.filter_map, Function.comp_def]
      · simp [List.filter_map, Function.comp_def, same, Ne.symm same]
    rw [List.flatMap_cons, List.filter_append, List.map_append, own, ih distinct.2]
    by_cases same : name = first
    · subst same
      simp [distinct.1]
    · simp [same]

theorem Held.scans (held : Held graph config index acts queued stage)
    (indexed : graph.index = .ok index) {f : FunctionNode} (member : f ∈ graph.functions) :
    scanned f.name acts <+: f.calls := by
  have whole : scanned f.name (plan acts stage) =
      if f.name ∈ rounds acts then f.calls else [] := by
    rw [scanned, held.followed, scanned_namedCalls index held.rounds_nodup,
      CallGraph.index_calls_eq indexed member]
  have front : scanned f.name acts <+: scanned f.name (plan acts stage) := by
    rw [plan, scanned, scanned, List.filterMap_append, List.filter_append, List.map_append]
    exact List.prefix_append _ _
  rw [whole] at front
  split at front
  · exact front
  · rw [List.prefix_nil.mp front]
    exact List.nil_prefix

/-- Different names have no more calls than the graph. -/
theorem length_namedCalls (indexed : graph.index = .ok index) {names : List String}
    (distinct : names.Nodup) :
    graph.entryPoints.length + (names.flatMap index.namedCalls).length ≤ graph.mentions := by
  have defined : names.flatMap index.namedCalls =
      (names.filter (· ∈ graph.functions.map FunctionNode.name)).flatMap index.namedCalls := by
    clear distinct
    induction names with
    | nil => rfl
    | cons name rest ih =>
      by_cases known : name ∈ graph.functions.map FunctionNode.name
      · rw [List.filter_cons_of_pos (by simpa using known), List.flatMap_cons, List.flatMap_cons,
          ih]
      · rw [List.filter_cons_of_neg (by simpa using known), List.flatMap_cons, ih,
          CallGraph.Index.namedCalls, CallGraph.index_calls_undefined indexed known]
        rfl
  have inside : (names.filter (· ∈ graph.functions.map FunctionNode.name)).Subperm
      (graph.functions.map FunctionNode.name) := by
    apply List.subperm_of_subset (distinct.filter _)
    intro name member
    exact of_decide_eq_true (List.mem_filter.mp member).2
  have calls := (subperm_flatMap inside fun name _ =>
    List.Subperm.refl (index.namedCalls name)).length_le
  rw [← defined, List.flatMap_map] at calls
  have counted : (graph.functions.flatMap fun f => index.namedCalls f.name).length =
      (graph.functions.flatMap fun f => f.calls.map CallSite.target).length := by
    rw [List.length_flatMap, List.length_flatMap]
    congr 1
    apply List.map_congr_left
    intro f member
    rw [CallGraph.Index.namedCalls, CallGraph.index_calls_eq indexed member, List.length_map,
      List.length_map]
  rw [← length_namedBy, namedBy, List.length_append, ← counted]
  exact Nat.add_le_add_left calls _

theorem length_acts (acts : List Act) :
    acts.length = (acts.filterMap Act.entry?).length + (acts.filterMap Act.call?).length +
      (rounds acts).length := by
  rw [rounds]
  induction acts with
  | nil => rfl
  | cons act rest ih =>
    rcases act with (_ | _) | _ <;>
      simp only [List.filterMap_cons, Act.entry?, Act.call?, Act.taken?, List.length_cons, ih] <;>
      omega

theorem Held.fewActs (held : Held graph config index acts queued stage)
    (indexed : graph.index = .ok index) :
    acts.length ≤ graph.mentions + graph.plainNames.length := by
  have entries : (acts.filterMap Act.entry?).length ≤ graph.entryPoints.length := by
    rw [← held.entered, plan, List.filterMap_append, List.length_append]
    exact Nat.le_add_right _ _
  have calls : (acts.filterMap Act.call?).length ≤
      ((rounds acts).flatMap index.namedCalls).length := by
    rw [← held.followed, plan, List.filterMap_append, List.length_append]
    exact Nat.le_add_right _ _
  have tasks := length_namedCalls indexed held.rounds_nodup
  have taken := held.fewRounds
  rw [length_acts]
  omega

theorem Held.leadsBack (held : Held graph config index acts queued stage) {name : String}
    (member : name ∈ queued) : ∃ names, LeadsBack graph stage.walk.callers name names := by
  rw [← held.recorded, ← Callers.reached_iff] at member
  obtain ⟨names, back⟩ := held.grown.back member
  have short : names.length ≤ stage.walk.callers.names.length := by
    rw [Callers.names, List.length_map]
    exact back.length_le
  obtain ⟨entry, listed, first⟩ := (back.way held.grown).starts
  rw [List.head?_reverse] at first
  exact ⟨names, back, back.nodup, short, ⟨entry, listed, first⟩,
    fun fuel enough => back.backWithin_eq (by omega), back.trail_eq⟩

theorem Held.thrifty (held : Held graph config index acts queued stage)
    (indexed : graph.index = .ok index) : Thrifty graph acts queued stage where
  once := held.once
  plain := held.plain
  inTurn := held.inTurn
  fewRounds := held.fewRounds
  scans := fun _ member => held.scans indexed member
  fewActs := held.fewActs indexed
  recorded := held.recorded
  back := fun _ member => held.leadsBack member

/-! ## The end -/

theorem exists_step (more : ¬stage.Ended) : ∃ act next, Step config index stage act next := by
  obtain ⟨tasks, walk⟩ := stage
  cases tasks with
  | cons task tasks => exact ⟨_, _, .task⟩
  | nil =>
    cases queue : walk.queue with
    | nil => exact absurd ⟨rfl, queue⟩ more
    | cons name rest => exact ⟨_, _, .take queue⟩

theorem Run.exists_next (indexed : graph.index = .ok index)
    (run : Run graph config index acts queued stage) (more : ¬stage.Ended) :
    ∃ act new next, Step config index stage act next ∧
      Run graph config index (acts ++ [act]) (queued ++ new) next := by
  obtain ⟨act, next, step⟩ := exists_step more
  obtain ⟨new, added⟩ := (run.held indexed).exists_added indexed step
  exact ⟨act, new, next, step, run.step step added⟩

/-- A run that is not at its end goes on, and it cannot do so more often than acts are possible. -/
theorem Run.exists_end (indexed : graph.index = .ok index) {acts : List Act} {queued : List String}
    {stage : Stage} (run : Run graph config index acts queued stage) :
    ∃ acts queued stage, Run graph config index acts queued stage ∧ stage.Ended := by
  by_cases ended : stage.Ended
  · exact ⟨acts, queued, stage, run, ended⟩
  · obtain ⟨act, new, next, -, further⟩ := run.exists_next indexed ended
    have few : acts.length + 1 ≤ graph.mentions + graph.plainNames.length := by
      have bound := (further.held indexed).fewActs indexed
      rwa [List.length_append, List.length_singleton] at bound
    exact further.exists_end indexed
termination_by graph.mentions + graph.plainNames.length - acts.length
decreasing_by
  rw [List.length_append, List.length_singleton]
  omega

/-- What a stage comes to when `fuel` more names are taken. -/
def Stage.finish (config : LinkConfig) (index : CallGraph.Index) (fuel : Nat) (stage : Stage) :
    Walk :=
  runWithin config index fuel (stage.tasks.foldl (Task.run config) stage.walk)

theorem Step.finish_eq (step : Step config index stage act next) (fuel : Nat) :
    stage.finish config index (act.taken?.toList.length + fuel) =
      next.finish config index fuel := by
  cases step with
  | @task task =>
    have noRound : (Act.task task).taken?.toList.length + fuel = fuel := Nat.zero_add fuel
    rw [noRound, Stage.finish, Stage.finish, List.foldl_cons]
  | @take name rest walk queue =>
    have round : (Act.take name).taken?.toList.length + fuel = fuel + 1 := Nat.add_comm 1 fuel
    rw [round, Stage.finish, Stage.finish, List.foldl_nil, runWithin, List.foldl_map]
    simp only [queue]
    rfl

theorem Run.finish_eq (run : Run graph config index acts queued stage) (fuel : Nat) :
    runWithin config index ((rounds acts).length + fuel) (graph.begin config) =
      stage.finish config index fuel := by
  induction run generalizing fuel with
  | start =>
    rw [Stage.finish, List.foldl_map, rounds, List.filterMap_nil, List.length_nil, Nat.zero_add]
    rfl
  | step _ step _ ih =>
    rw [rounds_concat, List.length_append, Nat.add_assoc, ih, step.finish_eq]

/-- Where a run ends, the walk is the one that a check tells of. -/
theorem Run.walk_eq (indexed : graph.index = .ok index)
    (run : Run graph config index acts queued stage) (ended : stage.Ended) :
    graph.walk config index = stage.walk := by
  have few := (run.held indexed).fewRounds.trans (length_plainNames graph)
  obtain ⟨fuel, enough⟩ := Nat.exists_eq_add_of_le few
  rw [CallGraph.walk, enough, run.finish_eq, Stage.finish, ended.1, List.foldl_nil]
  cases fuel with
  | zero => rfl
  | succ fuel => simp only [runWithin, ended.2]

end Stages

end Walk

namespace CallGraph

/-- A check of a valid graph comes to its end.  At every stage nothing has been done twice, and the
notes lead back from each name; a stage that is not the end is followed by another one; and the end
is what the check tells of, unless it is not asked for. -/
theorem check_ends {graph : CallGraph} {index : Index} (config : LinkConfig)
    (indexed : graph.index = .ok index) :
    (∃ acts queued stage, Walk.Run graph config index acts queued stage ∧ stage.Ended) ∧
      ∀ acts queued stage, Walk.Run graph config index acts queued stage →
        Walk.Thrifty graph acts queued stage ∧
        (¬stage.Ended → ∃ act new next, Walk.Step config index stage act next ∧
          Walk.Run graph config index (acts ++ [act]) (queued ++ new) next) ∧
        (stage.Ended → graph.check config =
          .ok (if config.checkFeatures then stage.walk.outcome else .skipped)) := by
  refine ⟨Walk.Run.start.exists_end indexed, fun acts queued stage run => ⟨?_, ?_, ?_⟩⟩
  · exact (run.held indexed).thrifty indexed
  · exact run.exists_next indexed
  · intro ended
    rw [← run.walk_eq indexed ended]
    cases asked : config.checkFeatures with
    | true => exact check_of_index indexed asked
    | false => exact check_of_unchecked ⟨index, indexed⟩ asked

/-- On a graph in which functions call themselves and each other. -/
theorem check_ends_detour :
    ∃ index, detour.index = .ok index ∧
      ∃ acts queued stage, Walk.Run detour .standard index acts queued stage ∧ stage.Ended ∧
        Walk.Thrifty detour acts queued stage ∧
        detour.check .standard = .ok stage.walk.outcome := by
  have indexed : detour.index = .ok (detour.functions.map CallGraph.indexed) := by
    decide +kernel
  obtain ⟨⟨acts, queued, stage, run, ended⟩, stages⟩ := check_ends .standard indexed
  obtain ⟨thrifty, -, outcome⟩ := stages acts queued stage run
  exact ⟨_, indexed, acts, queued, stage, run, ended, thrifty, outcome ended⟩

end CallGraph

end LinkGate
