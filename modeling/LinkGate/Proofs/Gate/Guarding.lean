import LinkGate.Proofs.Gate.MarkerUses

/-!
# Guards in front of markers

Code that relies on a capability tests for it, and touches the marker only where the test fails.  So
a hit for a capability that is provided tells of a guard that is missing, tests something else or is
turned around, whatever the guards on the way to the caller are.  A graph whose markers are all
guarded as they should be is never blamed for it, and its gate is open as soon as everything is
provided that it asks for (`check_blames_guards`).
-/

set_option autoImplicit false

namespace LinkGate

/-- The call of a marker of `c` has no guard, one about another capability, or one that keeps it
where `c` is provided. -/
def CallSite.Misguarded (call : CallSite) (c : Capability) : Prop :=
  call.guard = none ∨
    ∃ guard, call.guard = some guard ∧ (guard.capability ≠ c ∨ guard = ⟨c, true⟩)

theorem CallSite.misguarded_of_live {call : CallSite} {config : LinkConfig} {c : Capability}
    (live : call.Live config) (provided : config.supports c = true) : call.Misguarded c := by
  cases guarded : call.guard with
  | none => exact Or.inl guarded
  | some guard =>
    have holds : config.supports guard.capability = guard.enabled := live guard guarded
    refine Or.inr ⟨guard, guarded, ?_⟩
    by_cases about : guard.capability = c
    · right
      rw [about, provided] at holds
      rw [← about, holds]
    · exact Or.inl about

namespace CallGraph

/-- What is wrong where the marker of `c` is used although `c` is provided. -/
inductive Blames (graph : CallGraph) : Mention → Capability → Prop where
  | entry {position : Nat} {entry : String} {c : Capability}
      (listed : graph.entryPoints[position]? = some entry)
      (marker : Capability.ofMarker? entry = some c) : Blames graph (.entry position) c
  | call {function position : Nat} {f : FunctionNode} {call : CallSite} {c : Capability}
      (defined : graph.functions[function]? = some f) (made : f.calls[position]? = some call)
      (marker : Capability.ofMarker? call.target = some c) (misguarded : call.Misguarded c) :
      Blames graph (.call function position) c

/-- No entry point is a marker, and the call of a marker is made only where the capability is
missing. -/
structure WellGuarded (graph : CallGraph) : Prop where
  entries : ∀ entry ∈ graph.entryPoints, Capability.ofMarker? entry = none
  calls : ∀ f ∈ graph.functions, ∀ call ∈ f.calls, ∀ c ∈ Capability.ofMarker? call.target,
    call.guard = some ⟨c, false⟩

/-- A function that can be reached has a call of the marker of `c`, be it folded away or not. -/
def AsksFor (graph : CallGraph) (config : LinkConfig) (c : Capability) : Prop :=
  ∃ f ∈ graph.functions, graph.Reachable config f.name ∧
    ∃ call ∈ f.calls, Capability.ofMarker? call.target = some c

/-- Each hit tells of a marker use of its own, and of what is wrong there if its capability is
provided. -/
def Blamed (graph : CallGraph) (config : LinkConfig) (hits : List Hit) : Prop :=
  ∃ mentions : List Mention, mentions.Nodup ∧
    List.Forall₂ (fun mention hit => graph.Shows config mention hit ∧
      (hit.enabled = true → graph.Blames mention hit.capability)) mentions hits

/-- Nothing but missing capabilities closes the gate. -/
structure Cleared (graph : CallGraph) (config : LinkConfig) (outcome : Outcome) : Prop where
  missing : ∀ hit ∈ outcome.hits, config.supports hit.capability = false ∧ hit.enabled = false
  opened : outcome.state = .opened ↔
    (config.checkFeatures = true → ∀ c, graph.AsksFor config c → config.supports c = true)

section Guards
variable {graph : CallGraph} {config : LinkConfig} {mention : Mention} {c : Capability}

theorem MarkerUse.blames {caller : String} {pos : Option SourcePos}
    (use : graph.MarkerUse config mention c caller pos) (provided : config.supports c = true) :
    graph.Blames mention c := by
  cases use with
  | entry listed marker => exact .entry listed marker
  | call defined made _ live marker =>
    exact .call defined made marker (CallSite.misguarded_of_live live provided)

theorem WellGuarded.not_blames (guarded : graph.WellGuarded) : ¬graph.Blames mention c := by
  intro blames
  cases blames with
  | entry listed marker =>
    rw [guarded.entries _ (List.mem_of_getElem? listed)] at marker
    cases marker
  | call defined made marker misguarded =>
    have right :=
      guarded.calls _ (List.mem_of_getElem? defined) _ (List.mem_of_getElem? made) c marker
    rcases misguarded with none | ⟨guard, found, wrong⟩
    · rw [right] at none
      cases none
    · rw [right, Option.some.injEq] at found
      subst found
      rcases wrong with other | inverted
      · exact other rfl
      · cases inverted

/-- Where markers are guarded as they should be, one is used as soon as a capability is asked for
that is not provided. -/
theorem WellGuarded.usesMarker_iff (guarded : graph.WellGuarded) :
    (∃ m, graph.UsesMarker config m) ↔ ∃ c, graph.AsksFor config c ∧ config.supports c = false := by
  constructor
  · rintro ⟨m, c, caller, pos, use⟩
    have missing : config.supports c = false := by
      rw [← Bool.not_eq_true]
      exact fun provided => guarded.not_blames (use.blames provided)
    refine ⟨c, ?_, missing⟩
    cases use with
    | entry listed marker =>
      rw [guarded.entries _ (List.mem_of_getElem? listed)] at marker
      cases marker
    | call defined made reached _ marker =>
      exact ⟨_, List.mem_of_getElem? defined, reached, _, List.mem_of_getElem? made, marker⟩
  · rintro ⟨c, ⟨f, member, reached, call, made, marker⟩, missing⟩
    obtain ⟨function, defined⟩ := List.mem_iff_getElem?.mp member
    obtain ⟨position, madeAt⟩ := List.mem_iff_getElem?.mp made
    have live : call.Live config := by
      intro guard found
      rw [guarded.calls f member call made c marker, Option.mem_some_iff] at found
      rw [← found]
      exact missing
    exact ⟨_, c, _, _, .call defined madeAt reached live marker⟩

end Guards

section Walks
variable {graph : CallGraph} {config : LinkConfig} {index : Index} {walk : Walk}

theorem blamed_finished (indexed : graph.index = .ok index)
    (finished : Walk.Finished graph config index walk) :
    graph.Blamed config walk.hits := by
  obtain ⟨mentions, distinct, _, shown⟩ := tally_finished indexed finished
  refine ⟨mentions, distinct, shown.imp fun mention hit shows_ => ⟨shows_, fun enabled => ?_⟩⟩
  exact shows_.use.blames (shows_.enabled.symm.trans enabled)

theorem WellGuarded.missing_of_mem (guarded : graph.WellGuarded) (indexed : graph.index = .ok index)
    (finished : Walk.Finished graph config index walk) {hit : Hit} (member : hit ∈ walk.hits) :
    config.supports hit.capability = false ∧ hit.enabled = false := by
  obtain ⟨mentions, _, paired⟩ := blamed_finished indexed finished
  obtain ⟨mention, _, shows_, blames⟩ := exists_of_forall₂ paired.flip hit member
  have disabled : hit.enabled = false := by
    rw [← Bool.not_eq_true]
    exact fun enabled => guarded.not_blames (blames enabled)
  exact ⟨shows_.enabled.symm.trans disabled, disabled⟩

theorem WellGuarded.opened_iff (guarded : graph.WellGuarded) (indexed : graph.index = .ok index)
    (finished : Walk.Finished graph config index walk) :
    walk.outcome.state = .opened ↔ ∀ c, graph.AsksFor config c → config.supports c = true := by
  have closed := (exact_finished indexed finished).state
  rw [guarded.usesMarker_iff] at closed
  constructor
  · intro opened c asks
    rw [← Bool.not_eq_false]
    intro missing
    rw [closed.mpr ⟨c, asks, missing⟩] at opened
    cases opened
  · intro provided
    cases state : walk.outcome.state with
    | opened => rfl
    | closed =>
      obtain ⟨c, asks, missing⟩ := closed.mp state
      rw [provided c asks] at missing
      cases missing

end Walks

theorem check_blames_guards {graph : CallGraph} (valid : graph.Valid) :
    (∀ config : LinkConfig, config.checkFeatures = true →
      ∃ outcome, graph.check config = .ok outcome ∧ graph.Blamed config outcome.hits) ∧
    (graph.WellGuarded → ∀ config : LinkConfig,
      ∃ outcome, graph.check config = .ok outcome ∧ graph.Cleared config outcome) := by
  constructor
  · intro config checking
    obtain ⟨index, indexed⟩ := valid
    exact ⟨_, check_of_index indexed checking,
      blamed_finished indexed (Walk.finished_walk indexed)⟩
  · intro guarded config
    cases checking : config.checkFeatures with
    | false =>
      refine ⟨_, check_of_unchecked valid checking, ?_, ?_⟩
      · simp [Outcome.skipped]
      · simp [Outcome.skipped, checking]
    | true =>
      obtain ⟨index, indexed⟩ := valid
      have finished : Walk.Finished graph config index _ := Walk.finished_walk indexed
      refine ⟨_, check_of_index indexed checking, ?_, ?_⟩
      · intro hit member
        exact guarded.missing_of_mem indexed finished member
      · rw [guarded.opened_iff indexed finished]
        simp [checking]

/-- Every marker is used although threads and continuations are provided: an entry point is one, one
call has no guard, one has a guard that is turned around and one is behind a guard about the other
capability.  What lies between is guarded either way. -/
def careless : CallGraph where
  schemaVersion := schema
  entryPoints := ["main", "nbridge_unsupported_threads"]
  functions := [
    ⟨"main", [⟨"spawn", none, some ⟨.threads, true⟩⟩,
      ⟨"yield", none, some ⟨.virtualThreads, false⟩⟩,
      ⟨"nbridge_unsupported_threads", some ⟨"a.rs", 3, 0⟩, none⟩]⟩,
    ⟨"spawn", [⟨" nbridge_caps::unsupported::threads ", none, some ⟨.threads, true⟩⟩]⟩,
    ⟨"yield", [⟨"nbridge_unsupported_continuations", none, some ⟨.threads, true⟩⟩]⟩]

/-- Each marker is called where its capability is missing, behind other guards or none. -/
def careful : CallGraph where
  schemaVersion := schema
  entryPoints := ["main"]
  functions := [
    ⟨"main", [⟨"spawn", none, none⟩, ⟨"yield", none, some ⟨.threads, true⟩⟩]⟩,
    ⟨"spawn", [⟨"nbridge_unsupported_threads", none, some ⟨.threads, false⟩⟩]⟩,
    ⟨"yield", [⟨"nbridge_unsupported_continuations", none, some ⟨.continuations, false⟩⟩]⟩]

theorem check_blames_guards_careless :
    careless.Valid ∧ careful.Valid ∧ careful.WellGuarded ∧
    (∃ outcome, careless.check { multithreading := true, continuations := true } = .ok outcome ∧
      careless.Blamed { multithreading := true, continuations := true } outcome.hits) ∧
    ∃ outcome, careful.check .standard = .ok outcome ∧ careful.Cleared .standard outcome := by
  have valid : careless.Valid := ⟨careless.functions.map CallGraph.indexed, by decide +kernel⟩
  have carefulValid : careful.Valid := ⟨careful.functions.map CallGraph.indexed, by decide +kernel⟩
  have guarded : careful.WellGuarded := ⟨by decide +kernel, by decide +kernel⟩
  exact ⟨valid, carefulValid, guarded, (check_blames_guards valid).1 _ rfl,
    (check_blames_guards carefulValid).2 guarded _⟩

end CallGraph

end LinkGate
