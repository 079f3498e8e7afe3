import LinkGate.Proofs.Gate.Callers
import LinkGate.Proofs.Lists

/-!
# What a walk does

`Advance` says what one stretch of a walk does, be it one name that is entered, one call that is
followed or a whole list of them: it keeps the walk steady, notes the names it comes upon and adds
its hits.  `Sound` holds whenever the next name is taken from the queue, and a walk that has emptied
its queue is described by it in full.

A walk is steady when its notes are grown, the names already visited come first among them and the
queued ones after, in order of depth, and no name lies deeper than one below the level at hand.
-/

set_option autoImplicit false

namespace LinkGate

namespace Callers

/-- The number of names on the trail to a name. -/
def depth (callers : Callers) (name : String) : Nat :=
  (callers.trail name).length

theorem Grown.depth_append {graph : CallGraph} {config : LinkConfig} {callers : Callers}
    {name : String} (grown : Grown graph config callers) (more : Callers)
    (known : callers.reached name) : depth (callers ++ more) name = callers.depth name := by
  rw [depth, grown.trail_append more known, depth]

end Callers

namespace Walk

/-- The hit for an entry point, where it is a marker. -/
def entryHit? (config : LinkConfig) (entry : String) : Option Hit :=
  (Capability.ofMarker? entry).map fun c =>
    { capability := c
      caller := entry
      pos := none
      trail := [entry]
      enabled := config.supports c }

/-- The hit for a call that `name` makes, where it is live and goes to a marker. -/
def callHit? (config : LinkConfig) (name : String) (trail : List String) (call : CallSite) :
    Option Hit :=
  if call.Live config then
    (Capability.ofMarker? call.target).map fun c =>
      { capability := c
        caller := name
        pos := call.pos
        trail := trail ++ [call.target]
        enabled := config.supports c }
  else none

/-- All hits for the calls of `name`. -/
def callHits (config : LinkConfig) (index : CallGraph.Index) (callers : Callers)
    (name : String) : List Hit :=
  (index.calls name).filterMap (callHit? config name (callers.trail name))

/-- The name that an entry point adds to a walk, unless it is a marker. -/
def entryName? (entry : String) : Option String :=
  if Capability.ofMarker? entry = none then some entry else none

/-- The name that a call adds to a walk, where it is live and goes to no marker. -/
def target? (config : LinkConfig) (call : CallSite) : Option String :=
  if call.Live config ∧ Capability.ofMarker? call.target = none then some call.target else none

structure Steady (graph : CallGraph) (config : LinkConfig) (done : List String) (level : Nat)
    (walk : Walk) : Prop where
  grown : walk.callers.Grown graph config
  order : walk.callers.names = done ++ walk.queue
  sorted : walk.callers.names.Pairwise fun a b => walk.callers.depth a ≤ walk.callers.depth b
  bounded : ∀ n ∈ walk.callers.names, walk.callers.depth n ≤ level + 1

structure Advance (graph : CallGraph) (config : LinkConfig) (done : List String) (level : Nat)
    (names : List String) (hits : List Hit) (before after : Walk) : Prop where
  steady : Steady graph config done level after
  noted : before.callers <+: after.callers
  reaches : ∀ n ∈ names, after.callers.reached n
  hits : after.hits = before.hits ++ hits

section Stretches
variable {graph : CallGraph} {config : LinkConfig} {done : List String} {level : Nat}
  {walk : Walk} {name : String}

theorem reached_later {callers later : Callers} (noted : callers <+: later)
    (known : callers.reached name) : later.reached name := by
  obtain ⟨more, rfl⟩ := noted
  exact Callers.reached_append more known

theorem Advance.rest (steady : Steady graph config done level walk) :
    Advance graph config done level [] [] walk walk where
  steady := steady
  noted := List.prefix_rfl
  reaches := by simp
  hits := (List.append_nil _).symm

theorem Advance.trans {before middle after : Walk} {names more : List String}
    {hits later : List Hit} (first : Advance graph config done level names hits before middle)
    (second : Advance graph config done level more later middle after) :
    Advance graph config done level (names ++ more) (hits ++ later) before after where
  steady := second.steady
  noted := first.noted.trans second.noted
  reaches := by
    intro n member
    rcases List.mem_append.mp member with member | member
    · exact reached_later second.noted (first.reaches n member)
    · exact second.reaches n member
  hits := by rw [second.hits, first.hits, List.append_assoc]

/-- A name that is noted for the first time lies one below the level at hand, at the end of the
queue. -/
theorem Steady.note (steady : Steady graph config done level walk) {caller : Option String}
    (fresh : ¬walk.callers.reached name)
    (grown : Callers.Grown graph config (walk.callers ++ [(name, caller)]))
    (deep : Callers.depth (walk.callers ++ [(name, caller)]) name = level + 1) :
    Steady graph config done level
      { walk with
        callers := walk.callers ++ [(name, caller)]
        queue := walk.queue ++ [name] } := by
  have same : ∀ n ∈ walk.callers.names,
      Callers.depth (walk.callers ++ [(name, caller)]) n = walk.callers.depth n := by
    intro n member
    exact steady.grown.depth_append _ (Callers.reached_iff.mpr member)
  have names : Callers.names (walk.callers ++ [(name, caller)]) =
      walk.callers.names ++ [name] := by
    rw [Callers.names_append, Callers.names, Callers.names, List.map_singleton]
  constructor
  · exact grown
  · rw [names, steady.order, List.append_assoc]
  · rw [names, List.pairwise_append]
    refine ⟨?_, List.pairwise_singleton _ _, ?_⟩
    · apply steady.sorted.imp_of_mem
      intro a b memberA memberB ordered
      rw [same a memberA, same b memberB]
      exact ordered
    · intro a memberA b memberB
      rw [List.mem_singleton] at memberB
      subst memberB
      rw [same a memberA, deep]
      exact steady.bounded a memberA
  · intro n member
    rw [names, List.mem_append, List.mem_singleton] at member
    rcases member with old | rfl
    · rw [same n old]
      exact steady.bounded n old
    · exact Nat.le_of_eq deep

theorem reach_of_reached {caller : Option String} (known : walk.callers.reached name) :
    walk.reach name caller = walk := by
  rw [reach, if_pos known]

theorem reach_of_fresh {caller : Option String} (fresh : ¬walk.callers.reached name) :
    walk.reach name caller =
      { walk with
        callers := walk.callers ++ [(name, caller)]
        queue := walk.queue ++ [name] } := by
  rw [reach, if_neg fresh]

theorem advance_reach (steady : Steady graph config done level walk) {caller : Option String}
    (grown : ¬walk.callers.reached name →
      Callers.Grown graph config (walk.callers ++ [(name, caller)]))
    (deep : ¬walk.callers.reached name →
      Callers.depth (walk.callers ++ [(name, caller)]) name = level + 1) :
    Advance graph config done level [name] [] walk (walk.reach name caller) := by
  by_cases known : walk.callers.reached name
  · rw [reach_of_reached known]
    constructor
    · exact steady
    · exact List.prefix_rfl
    · intro n member
      rw [List.mem_singleton] at member
      exact member ▸ known
    · exact (List.append_nil _).symm
  · rw [reach_of_fresh known]
    constructor
    · exact steady.note known (grown known) (deep known)
    · exact List.prefix_append _ _
    · intro n member
      rw [List.mem_singleton] at member
      exact Callers.reached_concat.mpr (Or.inr member)
    · exact (List.append_nil _).symm

theorem advance_report (steady : Steady graph config done level walk) (hit : Hit) :
    Advance graph config done level [] [hit] walk (walk.report hit) where
  steady := ⟨steady.grown, steady.order, steady.sorted, steady.bounded⟩
  noted := List.prefix_rfl
  reaches := by simp
  hits := rfl

theorem advance_enter (steady : Steady graph config done 0 walk) {entry : String}
    (listed : entry ∈ graph.entryPoints) :
    Advance graph config done 0 (entryName? entry).toList (entryHit? config entry).toList walk
      (walk.enter config entry) := by
  rw [enter, entryName?, entryHit?]
  cases marker : Capability.ofMarker? entry with
  | none =>
    apply advance_reach steady
    · intro fresh
      exact .entry steady.grown fresh listed marker
    · intro fresh
      rw [Callers.depth, Callers.Grown.trail_entry fresh, List.length_singleton]
  | some c => exact advance_report steady _

theorem advance_follow (steady : Steady graph config done level walk)
    (known : walk.callers.reached name) (here : walk.callers.depth name = level)
    {call : CallSite} (calls : call.Live config → graph.Calls config name call.target) :
    Advance graph config done level (target? config call).toList
      (callHit? config name (walk.callers.trail name) call).toList walk
      (walk.follow config name call) := by
  rw [follow, target?, callHit?]
  by_cases live : call.Live config
  · simp only [live, true_and, if_true]
    cases marker : Capability.ofMarker? call.target with
    | none =>
      apply advance_reach steady
      · intro fresh
        exact .call steady.grown fresh known (calls live) marker
      · intro fresh
        rw [Callers.depth, steady.grown.trail_call fresh known, List.length_append,
          List.length_singleton, ← here, Callers.depth]
    | some c => exact advance_report steady _
  · simp only [live, false_and, if_false]
    exact Advance.rest steady

theorem advance_enterAll (steady : Steady graph config done 0 walk) (entries : List String)
    (listed : ∀ entry ∈ entries, entry ∈ graph.entryPoints) :
    Advance graph config done 0 (entries.filterMap entryName?)
      (entries.filterMap (entryHit? config)) walk (entries.foldl (enter config) walk) := by
  induction entries generalizing walk with
  | nil => exact Advance.rest steady
  | cons entry rest ih =>
    have first := advance_enter steady (listed entry List.mem_cons_self)
    have later := ih first.steady fun e member => listed e (List.mem_cons_of_mem _ member)
    rw [filterMap_cons_toList, filterMap_cons_toList, List.foldl_cons]
    exact first.trans later

theorem advance_followAll (steady : Steady graph config done level walk)
    (known : walk.callers.reached name) (here : walk.callers.depth name = level)
    (calls : List CallSite)
    (made : ∀ call ∈ calls, call.Live config → graph.Calls config name call.target) :
    Advance graph config done level (calls.filterMap (target? config))
      (calls.filterMap (callHit? config name (walk.callers.trail name))) walk
      (calls.foldl (follow config name) walk) := by
  induction calls generalizing walk with
  | nil => exact Advance.rest steady
  | cons call rest ih =>
    have first := advance_follow steady known here (made call List.mem_cons_self)
    obtain ⟨more, grown⟩ := first.noted
    have sameTrail : (walk.follow config name call).callers.trail name =
        walk.callers.trail name := by
      rw [← grown, steady.grown.trail_append more known]
    have later := ih first.steady (reached_later first.noted known)
      (by rw [Callers.depth, sameTrail]; exact here)
      fun c member => made c (List.mem_cons_of_mem _ member)
    rw [sameTrail] at later
    rw [filterMap_cons_toList, filterMap_cons_toList, List.foldl_cons]
    exact first.trans later

end Stretches

/-! ## From the first name in the queue to the last -/

/-- What holds whenever a name is about to be taken from the queue.  `done` are the names that were
taken before. -/
structure Sound (graph : CallGraph) (config : LinkConfig) (index : CallGraph.Index)
    (done : List String) (level : Nat) (walk : Walk) : Prop where
  steady : Steady graph config done level walk
  ahead : ∀ n ∈ walk.queue, level ≤ walk.callers.depth n
  entries : ∀ entry ∈ graph.entryPoints, Capability.ofMarker? entry = none →
    walk.callers.reached entry ∧ walk.callers.depth entry ≤ 1
  closed : ∀ name ∈ done, ∀ target, graph.Calls config name target →
    Capability.ofMarker? target = none →
      walk.callers.reached target ∧ walk.callers.depth target ≤ walk.callers.depth name + 1
  hits : walk.hits = graph.entryPoints.filterMap (entryHit? config) ++
    done.flatMap (callHits config index walk.callers)

section Run
variable {graph : CallGraph} {config : LinkConfig} {index : CallGraph.Index}
  {done : List String} {level : Nat} {walk : Walk}

theorem sound_begin : Sound graph config index [] 0 (graph.begin config) := by
  have empty : Steady graph config [] 0 {} := by
    constructor
    · exact .start
    · rfl
    · exact List.Pairwise.nil
    · simp [Callers.names]
  have entered := advance_enterAll empty graph.entryPoints fun _ member => member
  constructor
  · exact entered.steady
  · exact fun _ _ => Nat.zero_le _
  · intro entry listed plain
    have reached := entered.reaches entry
      (List.mem_filterMap.mpr ⟨entry, listed, by rw [entryName?, if_pos plain]⟩)
    exact ⟨reached, entered.steady.bounded entry (Callers.reached_iff.mp reached)⟩
  · simp
  · rw [CallGraph.begin, entered.hits]
    simp

theorem Sound.reached_queued (sound : Sound graph config index done level walk) :
    ∀ n ∈ done ++ walk.queue, walk.callers.reached n := by
  intro n member
  rw [← sound.steady.order] at member
  exact Callers.reached_iff.mpr member

/-- Taking a name from the queue, before its calls are followed. -/
theorem Sound.take (sound : Sound graph config index done level walk) {name : String}
    {rest : List String} (queue : walk.queue = name :: rest) :
    Steady graph config (done ++ [name]) (walk.callers.depth name)
      { walk with queue := rest } := by
  constructor
  · exact sound.steady.grown
  · rw [sound.steady.order, queue, List.append_assoc, List.singleton_append]
  · exact sound.steady.sorted
  · intro n member
    have near := sound.steady.bounded n member
    have front := sound.ahead name (queue ▸ List.mem_cons_self)
    exact Nat.le_trans near (Nat.succ_le_succ front)

theorem Sound.visit (indexed : graph.index = .ok index)
    (sound : Sound graph config index done level walk) {name : String} {rest : List String}
    (queue : walk.queue = name :: rest) :
    Sound graph config index (done ++ [name]) (walk.callers.depth name)
      (visit config index { walk with queue := rest } name) := by
  have known : walk.callers.reached name := by
    apply sound.reached_queued
    simp [queue]
  have advance := advance_followAll (sound.take queue) known rfl (index.calls name) (by
    intro call made live
    exact (CallGraph.calls_iff indexed).mpr ⟨call, made, live, rfl⟩)
  change Advance graph config (done ++ [name]) (walk.callers.depth name) _ _
    { walk with queue := rest } (Walk.visit config index { walk with queue := rest } name)
    at advance
  generalize Walk.visit config index { walk with queue := rest } name = after at advance ⊢
  obtain ⟨more, grown⟩ := advance.noted
  have sameTrail : ∀ n, walk.callers.reached n →
      after.callers.trail n = walk.callers.trail n := by
    intro n member
    rw [← grown, sound.steady.grown.trail_append more member]
  have sameDepth : ∀ n, walk.callers.reached n →
      after.callers.depth n = walk.callers.depth n := by
    intro n member
    rw [Callers.depth, sameTrail n member, Callers.depth]
  constructor
  · exact advance.steady
  · intro n member
    have sorted := advance.steady.sorted
    rw [advance.steady.order, List.append_assoc, List.pairwise_append] at sorted
    have behind := (List.pairwise_cons.mp sorted.2.1).1 n member
    rwa [sameDepth name known] at behind
  · intro entry listed plain
    obtain ⟨reached, near⟩ := sound.entries entry listed plain
    rw [sameDepth entry reached]
    exact ⟨reached_later advance.noted reached, near⟩
  · intro caller member target calls plain
    rcases List.mem_append.mp member with old | new
    · have knownCaller := sound.reached_queued caller (List.mem_append_left _ old)
      obtain ⟨knownTarget, near⟩ := sound.closed caller old target calls plain
      rw [sameDepth caller knownCaller, sameDepth target knownTarget]
      exact ⟨reached_later advance.noted knownTarget, near⟩
    · rw [List.mem_singleton] at new
      subst new
      obtain ⟨call, made, live, rfl⟩ := (CallGraph.calls_iff indexed).mp calls
      have reached := advance.reaches call.target
        (List.mem_filterMap.mpr ⟨call, made, by rw [target?, if_pos ⟨live, plain⟩]⟩)
      refine ⟨reached, ?_⟩
      rw [sameDepth caller known]
      exact advance.steady.bounded call.target (Callers.reached_iff.mp reached)
  · have sameHits : done.flatMap (callHits config index after.callers) =
        done.flatMap (callHits config index walk.callers) := by
      apply List.flatMap_congr
      intro n member
      rw [callHits, sameTrail n (sound.reached_queued n (List.mem_append_left _ member)),
        callHits]
    rw [advance.hits, sound.hits, List.flatMap_append, sameHits, List.flatMap_singleton,
      List.append_assoc, callHits, sameTrail name known]

/-! ## The queue runs empty -/

/-- Everything that a graph names, once for each time. -/
def namedBy (graph : CallGraph) : List String :=
  graph.entryPoints ++ graph.functions.flatMap fun f => f.calls.map CallSite.target

theorem length_namedBy (graph : CallGraph) : (namedBy graph).length = graph.mentions := by
  have count (functions : List FunctionNode) (start : Nat) :
      functions.foldl (fun count f => count + f.calls.length) start =
        start + (functions.flatMap fun f => f.calls.map CallSite.target).length := by
    induction functions generalizing start with
    | nil => rfl
    | cons f rest ih =>
      rw [List.foldl_cons, ih, List.flatMap_cons, List.length_append, List.length_map]
      omega
  rw [namedBy, List.length_append, CallGraph.mentions, count]

theorem mem_namedBy {name : String} (reachable : graph.Reachable config name) :
    name ∈ namedBy graph := by
  cases reachable with
  | entry listed => exact List.mem_append_left _ listed
  | call _ calls _ =>
    obtain ⟨f, member, _, call, made, _, rfl⟩ := calls
    apply List.mem_append_right
    exact List.mem_flatMap.mpr ⟨f, member, List.mem_map_of_mem made⟩

theorem Sound.length_le (sound : Sound graph config index done level walk) :
    done.length + walk.queue.length ≤ graph.mentions := by
  have inside : walk.callers.names ⊆ namedBy graph := by
    intro n member
    exact mem_namedBy (sound.steady.grown.reachable (Callers.reached_iff.mpr member))
  have bound := (List.subperm_of_subset sound.steady.grown.nodup inside).length_le
  rwa [sound.steady.order, List.length_append, length_namedBy] at bound

theorem Sound.runWithin (indexed : graph.index = .ok index) {fuel : Nat}
    (sound : Sound graph config index done level walk)
    (enough : graph.mentions ≤ done.length + fuel) :
    ∃ visited deepest, Sound graph config index visited deepest
      (Walk.runWithin config index fuel walk) ∧
        (Walk.runWithin config index fuel walk).queue = [] := by
  induction fuel generalizing done level walk with
  | zero =>
    have room := sound.length_le
    have empty : walk.queue = [] := List.length_eq_zero_iff.mp (by omega)
    exact ⟨done, level, sound, empty⟩
  | succ fuel ih =>
    rw [Walk.runWithin]
    cases queue : walk.queue with
    | nil => exact ⟨done, level, sound, queue⟩
    | cons name rest =>
      apply ih (sound.visit indexed queue)
      rw [List.length_append, List.length_singleton]
      omega

/-- A walk that is over: every name that was noted has been visited. -/
structure Finished (graph : CallGraph) (config : LinkConfig) (index : CallGraph.Index)
    (walk : Walk) : Prop where
  grown : walk.callers.Grown graph config
  sorted : walk.callers.names.Pairwise fun a b => walk.callers.depth a ≤ walk.callers.depth b
  entries : ∀ entry ∈ graph.entryPoints, Capability.ofMarker? entry = none →
    walk.callers.reached entry ∧ walk.callers.depth entry ≤ 1
  closed : ∀ name, walk.callers.reached name → ∀ target, graph.Calls config name target →
    Capability.ofMarker? target = none →
      walk.callers.reached target ∧ walk.callers.depth target ≤ walk.callers.depth name + 1
  hits : walk.hits = graph.entryPoints.filterMap (entryHit? config) ++
    walk.callers.names.flatMap (callHits config index walk.callers)

theorem finished_walk (indexed : graph.index = .ok index) :
    Finished graph config index (graph.walk config index) := by
  have enough : graph.mentions ≤ ([] : List String).length + graph.mentions := by simp
  obtain ⟨visited, deepest, sound, empty⟩ :=
    (sound_begin : Sound graph config index [] 0 _).runWithin indexed enough
  rw [← CallGraph.walk] at sound empty
  have all := sound.steady.order
  rw [empty, List.append_nil] at all
  constructor
  · exact sound.steady.grown
  · exact sound.steady.sorted
  · exact sound.entries
  · intro name known
    rw [Callers.reached_iff, all] at known
    exact sound.closed name known
  · rw [all]
    exact sound.hits

theorem Finished.reached_iff (finished : Finished graph config index walk) {name : String} :
    walk.callers.reached name ↔ graph.Reachable config name := by
  constructor
  · exact finished.grown.reachable
  · intro reachable
    induction reachable with
    | entry listed plain => exact (finished.entries _ listed plain).1
    | call _ calls plain ih => exact (finished.closed _ ih _ calls plain).1

theorem Finished.mem_names_iff (finished : Finished graph config index walk) {name : String} :
    name ∈ walk.callers.names ↔ graph.Reachable config name := by
  rw [← Callers.reached_iff, finished.reached_iff]

end Run

theorem state_outcome_congr {first second : Walk}
    (count : first.hits.length = second.hits.length) :
    first.outcome.state = second.outcome.state := by
  have none : first.hits = [] ↔ second.hits = [] := by
    rw [← List.length_eq_zero_iff, ← List.length_eq_zero_iff, count]
  simp only [outcome, none]

end Walk

namespace CallGraph
variable {graph : CallGraph} {config : LinkConfig} {outcome : Outcome}

theorem check_of_index {index : Index} (indexed : graph.index = .ok index)
    (checking : config.checkFeatures = true) :
    graph.check config = .ok (graph.walk config index).outcome := by
  rw [check, indexed]
  simp only [checking, if_true]

theorem check_of_unchecked (valid : graph.Valid) (unchecked : config.checkFeatures = false) :
    graph.check config = .ok .skipped := by
  obtain ⟨index, indexed⟩ := valid
  rw [check, indexed]
  simp [unchecked]

theorem exists_check_iff (config : LinkConfig) :
    (∃ outcome, graph.check config = .ok outcome) ↔ graph.WellNamed := by
  rw [← valid_iff, Valid, check]
  cases graph.index with
  | error error => simp
  | ok index => cases config.checkFeatures <;> simp

theorem check_of_invalid (invalid : ¬graph.Valid) (config : LinkConfig) :
    ∃ error, graph.check config = .error error := by
  cases checked : graph.check config with
  | error error => exact ⟨error, rfl⟩
  | ok outcome =>
    exact absurd (valid_iff.mpr ((exists_check_iff config).mp ⟨outcome, checked⟩)) invalid

/-- A gate is closed by hits and by nothing else. -/
theorem state_of_check (checked : graph.check config = .ok outcome) :
    outcome.state = if outcome.hits = [] then .opened else .closed := by
  rw [check] at checked
  split at checked
  case h_1 => cases checked
  case h_2 => split at checked <;> cases checked <;> rfl

theorem enforce_of_check (checked : graph.check config = .ok outcome) :
    graph.enforce config =
      if outcome.hits = [] then .ok outcome else .error (.closed ⟨outcome.hits⟩) := by
  simp only [enforce, checked, Outcome.result, state_of_check checked]
  by_cases none : outcome.hits = []
  · simp only [if_pos none]
    rfl
  · simp only [if_neg none]
    rfl

end CallGraph

end LinkGate
