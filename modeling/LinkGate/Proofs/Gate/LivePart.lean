import LinkGate.Proofs.Gate.Trails

/-!
# The live part of a graph

A check asks a graph for its entry points and, of each name that it reaches, for the calls that are
not folded away.  So two checks that get the same answers walk in step: they take the same names
from the queue, note the same callers and report the same uses by the same trails.  What else the
two graphs hold, and in which order they list their functions, does not show.
-/

set_option autoImplicit false

namespace LinkGate

/-- Where a call goes, and where it is made. -/
def CallSite.spot (call : CallSite) : String × Option SourcePos :=
  (call.target, call.pos)

/-- The spots of the calls that are not folded away. -/
def liveSpots (config : LinkConfig) (calls : List CallSite) : List (String × Option SourcePos) :=
  (calls.filter fun call => call.Live config).map CallSite.spot

/-- The live calls of a name, in order.  A name that is not defined makes none. -/
def CallGraph.liveCalls (graph : CallGraph) (config : LinkConfig) (name : String) :
    List (String × Option SourcePos) :=
  match graph.functions.find? fun f => f.name == name with
  | none => []
  | some f => liveSpots config f.calls

/-- Two hits of one use by one trail; they may differ in whether the capability is provided. -/
structure Hit.Alike (a b : Hit) : Prop where
  capability : a.capability = b.capability
  caller : a.caller = b.caller
  pos : a.pos = b.pos
  trail : a.trail = b.trail

theorem Hit.Alike.eq_of_enabled {a b : Hit} (alike : a.Alike b) (enabled : a.enabled = b.enabled) :
    a = b := by
  cases a
  cases b
  obtain ⟨rfl, rfl, rfl, rfl⟩ := alike
  cases enabled
  rfl

structure Outcome.Alike (a b : Outcome) : Prop where
  state : a.state = b.state
  reachable : a.reachable = b.reachable
  hits : List.Forall₂ Hit.Alike a.hits b.hits

namespace CallGraph

theorem find?_eq_lookup (functions : List FunctionNode) (name : String) :
    (functions.find? fun f => f.name == name) = List.lookup name (functions.map indexed) := by
  induction functions with
  | nil => rfl
  | cons f rest ih =>
    rw [List.map_cons, indexed, List.find?_cons, List.lookup_cons, ih]
    by_cases same : f.name = name
    · rw [same]
    · rw [beq_false_of_ne same, beq_false_of_ne (Ne.symm same)]

theorem liveCalls_eq {graph : CallGraph} {index : Index} (indexed : graph.index = .ok index)
    (config : LinkConfig) (name : String) :
    graph.liveCalls config name = liveSpots config (index.calls name) := by
  rw [liveCalls, find?_eq_lookup, ← index_eq_map indexed, Index.calls]
  cases index.lookup name <;> rfl

end CallGraph

namespace Walk

/-- Two walks that have come to the same point, each by its own configuration. -/
structure InStep (config other : LinkConfig) (first second : Walk) : Prop where
  callers : first.callers = second.callers
  queue : first.queue = second.queue
  hits : List.Forall₂ Hit.Alike first.hits second.hits

section Steps
variable {config other : LinkConfig} {first second : Walk}

theorem InStep.reach (together : InStep config other first second) (name : String)
    (caller : Option String) :
    InStep config other (first.reach name caller) (second.reach name caller) := by
  rw [Walk.reach, Walk.reach, ← together.callers]
  by_cases known : first.callers.reached name
  · rw [if_pos known, if_pos known]
    exact together
  · rw [if_neg known, if_neg known, ← together.queue]
    exact ⟨rfl, rfl, together.hits⟩

theorem InStep.report (together : InStep config other first second) {a b : Hit}
    (alike : a.Alike b) : InStep config other (first.report a) (second.report b) where
  callers := together.callers
  queue := together.queue
  hits := List.rel_append together.hits (.cons alike .nil)

theorem InStep.enter (together : InStep config other first second) (entry : String) :
    InStep config other (first.enter config entry) (second.enter other entry) := by
  rw [Walk.enter, Walk.enter]
  cases Capability.ofMarker? entry with
  | none => exact together.reach entry none
  | some c => exact together.report ⟨rfl, rfl, rfl, rfl⟩

theorem InStep.follow (together : InStep config other first second) (name : String)
    {call twin : CallSite} (live : call.Live config) (twinLive : twin.Live other)
    (same : call.spot = twin.spot) :
    InStep config other (first.follow config name call) (second.follow other name twin) := by
  obtain ⟨target, pos⟩ := Prod.mk.inj same
  rw [Walk.follow, Walk.follow, if_pos live, if_pos twinLive, ← target, ← pos]
  cases Capability.ofMarker? call.target with
  | none => exact together.reach call.target (some name)
  | some c => exact together.report ⟨rfl, rfl, rfl, by rw [together.callers]⟩

/-- What is folded away is passed over. -/
theorem foldl_follow_live (config : LinkConfig) (name : String) (calls : List CallSite)
    (walk : Walk) :
    calls.foldl (Walk.follow config name) walk =
      (calls.filter fun call => call.Live config).foldl (Walk.follow config name) walk := by
  induction calls generalizing walk with
  | nil => rfl
  | cons call rest ih =>
    by_cases live : call.Live config
    · rw [List.filter_cons_of_pos (by simpa using live), List.foldl_cons, List.foldl_cons, ih]
    · rw [List.filter_cons_of_neg (by simpa using live), List.foldl_cons, Walk.follow, if_neg live,
        ih]

theorem InStep.followAll (together : InStep config other first second) (name : String)
    {calls twins : List CallSite} (live : ∀ call ∈ calls, call.Live config)
    (twinLive : ∀ twin ∈ twins, twin.Live other)
    (same : calls.map CallSite.spot = twins.map CallSite.spot) :
    InStep config other (calls.foldl (Walk.follow config name) first)
      (twins.foldl (Walk.follow other name) second) := by
  induction calls generalizing twins first second with
  | nil =>
    have none : twins = [] := by simpa using same.symm
    rw [none]
    exact together
  | cons call rest ih =>
    cases twins with
    | nil => simp at same
    | cons twin others =>
      rw [List.map_cons, List.map_cons, List.cons.injEq] at same
      rw [List.forall_mem_cons] at live twinLive
      exact ih (together.follow name live.1 twinLive.1 same.1) live.2 twinLive.2 same.2

theorem InStep.visit (together : InStep config other first second) {graph twin : CallGraph}
    {index twinIndex : CallGraph.Index} (indexed : graph.index = .ok index)
    (twinIndexed : twin.index = .ok twinIndex) {name : String}
    (same : graph.liveCalls config name = twin.liveCalls other name) :
    InStep config other (first.visit config index name) (second.visit other twinIndex name) := by
  rw [CallGraph.liveCalls_eq indexed, CallGraph.liveCalls_eq twinIndexed] at same
  rw [Walk.visit, Walk.visit, foldl_follow_live config, foldl_follow_live other]
  apply together.followAll name _ _ same
  · intro call member
    simpa using (List.mem_filter.mp member).2
  · intro call member
    simpa using (List.mem_filter.mp member).2

end Steps

section Runs
variable {graph twin : CallGraph} {config other : LinkConfig} {index twinIndex : CallGraph.Index}

theorem InStep.enterAll (entries : List String) {first second : Walk}
    (together : InStep config other first second) :
    InStep config other (entries.foldl (Walk.enter config) first)
      (entries.foldl (Walk.enter other) second) := by
  induction entries generalizing first second with
  | nil => exact together
  | cons entry rest ih =>
    rw [List.foldl_cons, List.foldl_cons]
    exact ih (together.enter entry)

theorem InStep.begin (same : twin.entryPoints = graph.entryPoints) :
    InStep config other (graph.begin config) (twin.begin other) := by
  have start : InStep config other {} {} := ⟨rfl, rfl, .nil⟩
  rw [CallGraph.begin, CallGraph.begin, same]
  exact start.enterAll graph.entryPoints

theorem InStep.runWithin (indexed : graph.index = .ok index)
    (twinIndexed : twin.index = .ok twinIndex)
    (same : ∀ name, graph.Reachable config name →
      graph.liveCalls config name = twin.liveCalls other name)
    (fuel : Nat) {done : List String} {level : Nat} {first second : Walk}
    (sound : Sound graph config index done level first)
    (together : InStep config other first second) :
    InStep config other (Walk.runWithin config index fuel first)
      (Walk.runWithin other twinIndex fuel second) := by
  induction fuel generalizing done level first second with
  | zero => exact together
  | succ fuel ih =>
    rw [Walk.runWithin, Walk.runWithin, ← together.queue]
    cases queue : first.queue with
    | nil => exact together
    | cons name rest =>
      have queued : name ∈ done ++ first.queue := by simp [queue]
      have reachable : graph.Reachable config name :=
        sound.steady.grown.reachable (sound.reached_queued name queued)
      have taken : InStep config other { first with queue := rest }
          { second with queue := rest } := ⟨together.callers, rfl, together.hits⟩
      exact ih (sound.visit indexed queue) (taken.visit indexed twinIndexed (same name reachable))

/-- Fuel that is left when the queue is empty is not used. -/
theorem runWithin_add (fuel more : Nat) {walk : Walk}
    (empty : (Walk.runWithin config index fuel walk).queue = []) :
    Walk.runWithin config index (fuel + more) walk = Walk.runWithin config index fuel walk := by
  induction fuel generalizing walk with
  | zero =>
    rw [Walk.runWithin] at empty
    cases more with
    | zero => rfl
    | succ more =>
      simp only [Walk.runWithin, empty]
  | succ fuel ih =>
    rw [Nat.succ_add_eq_add_succ, Nat.add_succ, Walk.runWithin, Walk.runWithin]
    rw [Walk.runWithin] at empty
    cases queue : walk.queue with
    | nil => rfl
    | cons name rest =>
      rw [queue] at empty
      exact ih empty

theorem walk_eq_runWithin_add (indexed : graph.index = .ok index) (more : Nat) :
    graph.walk config index =
      Walk.runWithin config index (graph.mentions + more) (graph.begin config) := by
  have begun : Sound graph config index [] 0 (graph.begin config) := sound_begin
  have enough : graph.mentions ≤ ([] : List String).length + graph.mentions := by simp
  obtain ⟨_, _, _, empty⟩ := begun.runWithin indexed enough
  rw [CallGraph.walk, runWithin_add _ more empty]

theorem InStep.walk (indexed : graph.index = .ok index) (twinIndexed : twin.index = .ok twinIndex)
    (entries : twin.entryPoints = graph.entryPoints)
    (same : ∀ name, graph.Reachable config name →
      graph.liveCalls config name = twin.liveCalls other name) :
    InStep config other (graph.walk config index) (twin.walk other twinIndex) := by
  rw [walk_eq_runWithin_add indexed twin.mentions,
    walk_eq_runWithin_add twinIndexed graph.mentions, Nat.add_comm twin.mentions]
  exact (InStep.begin entries).runWithin indexed twinIndexed same _ sound_begin

theorem InStep.outcome {first second : Walk} (together : InStep config other first second) :
    first.outcome.Alike second.outcome where
  state := state_outcome_congr together.hits.length_eq
  reachable := by rw [Walk.outcome, Walk.outcome, together.callers]
  hits := together.hits

/-- Alike hits are equal where both configurations provide the same. -/
theorem InStep.outcome_eq {first second : Walk} (together : InStep config other first second)
    (supports : ∀ c, config.supports c = other.supports c)
    (told : ∀ hit ∈ first.hits, hit.enabled = config.supports hit.capability)
    (twinTold : ∀ hit ∈ second.hits, hit.enabled = other.supports hit.capability) :
    first.outcome = second.outcome := by
  have equal {hits twins : List Hit} (alike : List.Forall₂ Hit.Alike hits twins)
      (told : ∀ hit ∈ hits, hit.enabled = config.supports hit.capability)
      (twinTold : ∀ hit ∈ twins, hit.enabled = other.supports hit.capability) :
      hits = twins := by
    induction alike with
    | nil => rfl
    | @cons hit twin _ _ alike _ ih =>
      rw [List.forall_mem_cons] at told twinTold
      have enabled : hit.enabled = twin.enabled := by
        rw [told.1, twinTold.1, supports, alike.capability]
      rw [ih told.2 twinTold.2, alike.eq_of_enabled enabled]
  rw [Walk.outcome, Walk.outcome, equal together.hits told twinTold, together.callers]

end Runs

end Walk

end LinkGate
