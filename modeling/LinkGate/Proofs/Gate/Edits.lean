import LinkGate.Proofs.Gate.LivePart

/-!
# Edits that do not show

An `Edit` changes a graph, or the configuration, outside the live part: it folds guards away,
deletes calls that are folded away or functions that cannot be reached, adds functions, lists them
in another order, or switches what no guard asks for.  None changes the verdict or any trail.
-/

set_option autoImplicit false

namespace LinkGate

/-- Some calls that are folded away are left out. -/
inductive Pruned (config : LinkConfig) : List CallSite → List CallSite → Prop where
  | nil : Pruned config [] []
  | keep {calls rest : List CallSite} (call : CallSite) (pruned : Pruned config calls rest) :
      Pruned config (call :: calls) (call :: rest)
  | drop {calls rest : List CallSite} {call : CallSite} (dead : ¬call.Live config)
      (pruned : Pruned config calls rest) : Pruned config (call :: calls) rest

/-- What stands where the guards of a function have been folded away. -/
def FunctionNode.folded (config : LinkConfig) (f : FunctionNode) : FunctionNode :=
  { f with
    calls := (f.calls.filter fun call => call.Live config).map fun call =>
      { call with guard := none } }

theorem Pruned.liveSpots_eq {config : LinkConfig} {calls rest : List CallSite}
    (pruned : Pruned config calls rest) : liveSpots config rest = liveSpots config calls := by
  rw [liveSpots, liveSpots]
  induction pruned with
  | nil => rfl
  | keep call _ ih =>
    by_cases live : call.Live config
    · rw [List.filter_cons_of_pos (by simpa using live),
        List.filter_cons_of_pos (by simpa using live), List.map_cons, List.map_cons, ih]
    · rw [List.filter_cons_of_neg (by simpa using live),
        List.filter_cons_of_neg (by simpa using live), ih]
  | drop dead _ ih => rw [List.filter_cons_of_neg (by simpa using dead), ih]

theorem liveSpots_folded (config : LinkConfig) (f : FunctionNode) :
    liveSpots config (f.folded config).calls = liveSpots config f.calls := by
  have unguarded : ∀ call ∈ (f.folded config).calls, call.Live config := by
    intro call member
    obtain ⟨before, _, rfl⟩ := List.mem_map.mp member
    simp [CallSite.Live]
  rw [liveSpots, List.filter_eq_self.mpr (by simpa using unguarded), FunctionNode.folded,
    List.map_map]
  rfl

theorem liveSpots_switched {config other : LinkConfig} {calls : List CallSite}
    (unasked : ∀ call ∈ calls, ∀ guard ∈ call.guard,
      config.supports guard.capability = other.supports guard.capability) :
    liveSpots other calls = liveSpots config calls := by
  have same : ∀ call ∈ calls, (call.Live other ↔ call.Live config) := by
    intro call member
    constructor
    · intro live guard guarded
      exact (unasked call member guard guarded).trans (live guard guarded)
    · intro live guard guarded
      exact (unasked call member guard guarded).symm.trans (live guard guarded)
  rw [liveSpots, liveSpots]
  congr 1
  apply List.filter_congr
  intro call member
  rw [decide_eq_decide]
  exact same call member

namespace CallGraph

inductive Edit (graph : CallGraph) (config : LinkConfig) : CallGraph → LinkConfig → Prop where
  | fold : Edit graph config
      { graph with functions := graph.functions.map (FunctionNode.folded config) } config
  | prune {functions : List FunctionNode}
      (pruned : List.Forall₂ (fun f g => g.name = f.name ∧ Pruned config f.calls g.calls)
        graph.functions functions) :
      Edit graph config { graph with functions := functions } config
  | delete (keeps : FunctionNode → Bool)
      (kept : ∀ f ∈ graph.functions, graph.Reachable config f.name → keeps f = true) :
      Edit graph config { graph with functions := graph.functions.filter keeps } config
  | add {more : List FunctionNode} (apart : ∀ f ∈ more, ¬graph.Reachable config f.name)
      (valid : Valid { graph with functions := graph.functions ++ more }) :
      Edit graph config { graph with functions := graph.functions ++ more } config
  | reorder {functions : List FunctionNode} (permuted : graph.functions.Perm functions) :
      Edit graph config { graph with functions := functions } config
  /-- Names that were external get a definition without calls. -/
  | define {names : List String}
      (valid : Valid { graph with functions := graph.functions ++ names.map (⟨·, []⟩) }) :
      Edit graph config { graph with functions := graph.functions ++ names.map (⟨·, []⟩) } config
  | switch {other : LinkConfig} (checking : other.checkFeatures = true)
      (unasked : ∀ f ∈ graph.functions, ∀ call ∈ f.calls, ∀ guard ∈ call.guard,
        config.supports guard.capability = other.supports guard.capability) :
      Edit graph config graph other

theorem valid_of_sublist {graph twin : CallGraph} (valid : graph.Valid)
    (sublist : twin.functions.Sublist graph.functions) : twin.Valid := by
  obtain ⟨distinct, named⟩ := valid_iff.mp valid
  have names := sublist.map FunctionNode.name
  exact valid_iff.mpr ⟨distinct.sublist names, fun name member =>
    named name (names.subset member)⟩

section LiveCalls
variable {graph twin : CallGraph} {config other : LinkConfig}

theorem liveCalls_of_mem (valid : graph.Valid) (config : LinkConfig) {f : FunctionNode}
    (member : f ∈ graph.functions) :
    graph.liveCalls config f.name = liveSpots config f.calls := by
  obtain ⟨index, indexed⟩ := valid
  rw [liveCalls_eq indexed, index_calls_eq indexed member]

theorem liveCalls_of_undefined (valid : graph.Valid) (config : LinkConfig) {name : String}
    (undefined : ¬∃ f ∈ graph.functions, f.name = name) : graph.liveCalls config name = [] := by
  obtain ⟨index, indexed⟩ := valid
  have absent : name ∉ graph.functions.map FunctionNode.name := by
    rw [List.mem_map]
    exact undefined
  rw [liveCalls_eq indexed, index_calls_undefined indexed absent]
  rfl

/-- Function by function, the live calls are the same. -/
theorem liveCalls_paired
    (paired : List.Forall₂
      (fun f g => g.name = f.name ∧ liveSpots other g.calls = liveSpots config f.calls)
      graph.functions twin.functions) (name : String) :
    graph.liveCalls config name = twin.liveCalls other name := by
  rw [liveCalls, liveCalls]
  generalize graph.functions = functions at paired ⊢
  generalize twin.functions = twins at paired ⊢
  induction paired with
  | nil => rfl
  | @cons f g _ _ same _ ih =>
    rw [List.find?_cons, List.find?_cons, same.1]
    by_cases named : f.name = name
    · rw [beq_iff_eq.mpr named]
      exact same.2.symm
    · rw [beq_false_of_ne named]
      exact ih

/-- The functions of one name are the same. -/
theorem liveCalls_of_mem_iff (valid : graph.Valid) (twinValid : twin.Valid) {name : String}
    (same : ∀ f : FunctionNode, f.name = name → (f ∈ graph.functions ↔ f ∈ twin.functions)) :
    graph.liveCalls config name = twin.liveCalls config name := by
  by_cases defined : ∃ f ∈ graph.functions, f.name = name
  · obtain ⟨f, member, rfl⟩ := defined
    rw [liveCalls_of_mem valid config member,
      liveCalls_of_mem twinValid config ((same f rfl).mp member)]
  · have twinUndefined : ¬∃ f ∈ twin.functions, f.name = name := by
      rintro ⟨f, member, named⟩
      exact defined ⟨f, (same f named).mpr member, named⟩
    rw [liveCalls_of_undefined valid config defined,
      liveCalls_of_undefined twinValid config twinUndefined]

/-- A definition without calls is as good as none. -/
theorem liveCalls_defined (valid : graph.Valid) {names : List String}
    (twinValid : Valid { graph with functions := graph.functions ++ names.map (⟨·, []⟩) })
    (name : String) :
    graph.liveCalls config name =
      liveCalls { graph with functions := graph.functions ++ names.map (⟨·, []⟩) } config name := by
  by_cases defined : ∃ f ∈ graph.functions, f.name = name
  · obtain ⟨f, member, rfl⟩ := defined
    rw [liveCalls_of_mem valid config member,
      liveCalls_of_mem twinValid config (List.mem_append_left _ member)]
  rw [liveCalls_of_undefined valid config defined]
  by_cases added : name ∈ names
  · have member : ⟨name, []⟩ ∈ graph.functions ++ names.map (FunctionNode.mk · []) :=
      List.mem_append_right _ (List.mem_map_of_mem added)
    exact (liveCalls_of_mem twinValid config member).symm
  · rw [liveCalls_of_undefined twinValid config]
    rintro ⟨f, member, named⟩
    rcases List.mem_append.mp member with old | new
    · exact defined ⟨f, old, named⟩
    · obtain ⟨name, listed, rfl⟩ := List.mem_map.mp new
      exact added (named ▸ listed)

end LiveCalls

section Edits
variable {graph twin : CallGraph} {config other : LinkConfig}

theorem Edit.valid (edit : Edit graph config twin other) (valid : graph.Valid) : twin.Valid := by
  cases edit with
  | fold =>
    apply (valid_congr (.of_eq _)).mp valid
    rw [List.map_map]
    rfl
  | prune pruned => exact (valid_congr (.of_eq (names_paired pruned).symm)).mp valid
  | delete keeps _ => exact valid_of_sublist valid List.filter_sublist
  | add _ valid | define valid => exact valid
  | reorder permuted => exact (valid_congr (permuted.map FunctionNode.name)).mp valid
  | switch _ _ => exact valid

theorem Edit.liveCalls_eq (edit : Edit graph config twin other) (valid : graph.Valid)
    {name : String} (reachable : graph.Reachable config name) :
    graph.liveCalls config name = twin.liveCalls other name := by
  have twinValid := edit.valid valid
  cases edit with
  | fold =>
    apply liveCalls_paired
    rw [List.forall₂_map_right_iff, List.forall₂_same]
    exact fun f _ => ⟨rfl, liveSpots_folded config f⟩
  | prune pruned =>
    apply liveCalls_paired
    exact pruned.imp fun f g same => ⟨same.1, same.2.liveSpots_eq⟩
  | delete keeps kept =>
    apply liveCalls_of_mem_iff valid twinValid
    rintro f rfl
    rw [List.mem_filter]
    exact ⟨fun member => ⟨member, kept f member reachable⟩, And.left⟩
  | add apart _ =>
    apply liveCalls_of_mem_iff valid twinValid
    rintro f rfl
    rw [List.mem_append]
    refine ⟨Or.inl, ?_⟩
    rintro (member | member)
    · exact member
    · exact absurd reachable (apart f member)
  | reorder permuted =>
    apply liveCalls_of_mem_iff valid twinValid
    exact fun f _ => permuted.mem_iff
  | define _ => exact liveCalls_defined valid twinValid name
  | switch _ unasked =>
    apply liveCalls_paired
    rw [List.forall₂_same]
    exact fun f member => ⟨rfl, liveSpots_switched (unasked f member)⟩

theorem Edit.entryPoints_eq (edit : Edit graph config twin other) :
    twin.entryPoints = graph.entryPoints := by
  cases edit <;> rfl

theorem Edit.checkFeatures (edit : Edit graph config twin other)
    (checking : config.checkFeatures = true) : other.checkFeatures = true := by
  cases edit with
  | fold | prune _ | delete _ _ | add _ _ | reorder _ | define _ => exact checking
  | switch checking _ => exact checking

end Edits

theorem enabled_of_mem_hits {graph : CallGraph} {config : LinkConfig} {index : Index}
    (indexed : graph.index = .ok index) :
    ∀ hit ∈ (graph.walk config index).hits, hit.enabled = config.supports hit.capability := by
  intro hit member
  obtain ⟨mention, shown, _⟩ := traced_of_mem_hits indexed (Walk.finished_walk indexed) member
  exact shown.enabled

/-- A check gives the same verdict and the same trails for every graph with the same live part, and
so for every edit outside of it. -/
theorem check_live_part {graph : CallGraph} {config : LinkConfig} (valid : graph.Valid)
    (checking : config.checkFeatures = true) :
    ∃ outcome, graph.check config = .ok outcome ∧
      (∀ (twin : CallGraph) (other : LinkConfig), twin.Valid → other.checkFeatures = true →
        twin.entryPoints = graph.entryPoints →
        (∀ name, graph.Reachable config name →
          graph.liveCalls config name = twin.liveCalls other name) →
        ∃ twinOutcome, twin.check other = .ok twinOutcome ∧ outcome.Alike twinOutcome ∧
          ((∀ c, config.supports c = other.supports c) → outcome = twinOutcome)) ∧
      ∀ (twin : CallGraph) (other : LinkConfig), graph.Edit config twin other →
        ∃ twinOutcome, twin.check other = .ok twinOutcome ∧ outcome.Alike twinOutcome := by
  obtain ⟨index, indexed⟩ := valid
  refine ⟨_, check_of_index indexed checking, ?_, ?_⟩
  · rintro twin other ⟨twinIndex, twinIndexed⟩ twinChecking entries same
    have together := Walk.InStep.walk indexed twinIndexed entries same
    refine ⟨_, check_of_index twinIndexed twinChecking, together.outcome, fun supports => ?_⟩
    exact together.outcome_eq supports (enabled_of_mem_hits indexed)
      (enabled_of_mem_hits twinIndexed)
  · intro twin other edit
    obtain ⟨twinIndex, twinIndexed⟩ := edit.valid ⟨index, indexed⟩
    have together := Walk.InStep.walk indexed twinIndexed edit.entryPoints_eq
      fun name reachable => edit.liveCalls_eq ⟨index, indexed⟩ reachable
    exact ⟨_, check_of_index twinIndexed (edit.checkFeatures checking), together.outcome⟩

theorem check_live_part_entangled :
    let other : LinkConfig := { continuations := true, virtualThreads := true }
    entangled.Valid ∧ LinkConfig.standard.checkFeatures = true ∧
      ∃ outcome, entangled.check .standard = .ok outcome ∧ outcome.state = .closed ∧
        outcome.hits.map Hit.trail = [["nbridge_unsupported_threads"],
          ["main", "nbridge_unsupported_threads"],
          ["main", "loop", " nbridge_caps::unsupported::continuations"]] ∧
        outcome.hits.map Hit.enabled = [false, false, false] ∧
        (∃ twinOutcome, entangled.check other = .ok twinOutcome ∧
          twinOutcome.hits.map Hit.enabled = [false, false, true] ∧
          outcome.Alike twinOutcome) ∧
        (∃ twinOutcome,
          check { entangled with functions := entangled.functions.reverse } .standard =
            .ok twinOutcome ∧ outcome.Alike twinOutcome) ∧
        ∃ twinOutcome, check { entangled with
          functions := entangled.functions.map (FunctionNode.folded .standard) } .standard =
          .ok twinOutcome ∧ outcome.Alike twinOutcome := by
  intro other
  have indexed : entangled.index = .ok (entangled.functions.map CallGraph.indexed) := by
    decide +kernel
  have valid : entangled.Valid := ⟨_, indexed⟩
  have switched : entangled.Edit .standard entangled other := .switch rfl (by decide +kernel)
  have checking : LinkConfig.standard.checkFeatures = true := rfl
  obtain ⟨outcome, checked, general, edited⟩ := check_live_part valid checking
  obtain ⟨twinOutcome, twinChecked, alike, _⟩ := general entangled other valid rfl rfl
    fun _ reachable => switched.liveCalls_eq valid reachable
  cases checked.symm.trans (check_of_index indexed rfl)
  cases twinChecked.symm.trans (check_of_index indexed rfl)
  exact ⟨valid, checking, _, checked, by decide +kernel, by decide +kernel, by decide +kernel,
    ⟨_, twinChecked, by decide +kernel, alike⟩,
    edited _ _ (.reorder entangled.functions.reverse_perm.symm), edited _ _ .fold⟩

end CallGraph

end LinkGate
