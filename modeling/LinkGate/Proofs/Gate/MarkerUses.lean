import LinkGate.Proofs.Gate.Walk

/-!
# Hits are marker uses

A check of a graph reports every marker use, each once, and nothing else.  `Tally` says so for some
of the mentions in a graph; the mentions of a whole graph are tallied list by list, in the order in
which the walk comes upon them.
-/

set_option autoImplicit false

namespace LinkGate

namespace CallGraph

/-- The hit tells of the marker use at the mention, and its trail ends in what is written there. -/
structure Shows (graph : CallGraph) (config : LinkConfig) (mention : Mention) (hit : Hit) :
    Prop where
  use : graph.MarkerUse config mention hit.capability hit.caller hit.pos
  enabled : hit.enabled = config.supports hit.capability
  last : hit.trail.getLast? = graph.textAt? mention

/-- The hits are those of the marker uses among some mentions, one for each. -/
def Tally (graph : CallGraph) (config : LinkConfig) (among : Mention → Prop)
    (hits : List Hit) : Prop :=
  ∃ mentions : List Mention, mentions.Nodup ∧
    (∀ m, m ∈ mentions ↔ among m ∧ graph.UsesMarker config m) ∧
      List.Forall₂ (graph.Shows config) mentions hits

namespace Tally
variable {graph : CallGraph} {config : LinkConfig} {among other : Mention → Prop}
  {hits more : List Hit}

theorem nothing (silent : ∀ m, among m → ¬graph.UsesMarker config m) :
    Tally graph config among [] := by
  refine ⟨[], List.nodup_nil, ?_, .nil⟩
  intro m
  constructor
  · intro member
    simp at member
  · rintro ⟨inside, uses⟩
    exact absurd uses (silent m inside)

theorem congr (tally : Tally graph config among hits)
    (same : ∀ m, graph.UsesMarker config m → (among m ↔ other m)) :
    Tally graph config other hits := by
  obtain ⟨mentions, distinct, exactly, shown⟩ := tally
  refine ⟨mentions, distinct, ?_, shown⟩
  intro m
  rw [exactly]
  constructor
  · rintro ⟨inside, uses⟩
    exact ⟨(same m uses).mp inside, uses⟩
  · rintro ⟨inside, uses⟩
    exact ⟨(same m uses).mpr inside, uses⟩

theorem append (first : Tally graph config among hits) (second : Tally graph config other more)
    (apart : ∀ m, among m → ¬other m) :
    Tally graph config (fun m => among m ∨ other m) (hits ++ more) := by
  obtain ⟨mentions, distinct, exactly, shown⟩ := first
  obtain ⟨later, laterDistinct, laterExactly, laterShown⟩ := second
  refine ⟨mentions ++ later, ?_, ?_, List.rel_append shown laterShown⟩
  · rw [List.nodup_append]
    refine ⟨distinct, laterDistinct, ?_⟩
    rintro m member n laterMember rfl
    exact apart m ((exactly m).mp member).1 ((laterExactly m).mp laterMember).1
  · intro m
    rw [List.mem_append, exactly, laterExactly, or_and_right]

/-- A list is tallied item by item; `place` says where an item is mentioned. -/
theorem filterMap {α : Type} (place : Nat → Mention) (distinct : Function.Injective place)
    (hit? : α → Option Hit) (items : List α)
    (shown : ∀ position item hit, items[position]? = some item → hit? item = some hit →
      graph.Shows config (place position) hit)
    (silent : ∀ position item, items[position]? = some item → hit? item = none →
      ¬graph.UsesMarker config (place position)) :
    Tally graph config (fun m => ∃ position < items.length, m = place position)
      (items.filterMap hit?) := by
  refine ⟨(keptAt hit? items).map place, (pairwise_keptAt hit? items).nodup.map distinct, ?_, ?_⟩
  · intro m
    rw [List.mem_map]
    constructor
    · rintro ⟨position, kept, rfl⟩
      obtain ⟨item, hit, here, found⟩ := mem_keptAt.mp kept
      exact ⟨⟨position, (List.getElem?_eq_some_iff.mp here).1, rfl⟩, _, _, _,
        (shown position item hit here found).use⟩
    · rintro ⟨⟨position, inside, rfl⟩, uses⟩
      have here := List.getElem?_eq_getElem inside
      cases found : hit? items[position] with
      | none => exact absurd uses (silent position _ here found)
      | some hit => exact ⟨position, mem_keptAt.mpr ⟨_, hit, here, found⟩, rfl⟩
  · rw [List.forall₂_map_left_iff]
    apply (forall₂_keptAt hit? items).imp
    rintro position hit ⟨item, here, found⟩
    exact shown position item hit here found

end Tally

section Walked
variable {graph : CallGraph} {config : LinkConfig} {index : Index}

theorem callHit?_eq_some_iff {name : String} {trail : List String} {call : CallSite} {hit : Hit} :
    Walk.callHit? config name trail call = some hit ↔
      call.Live config ∧ ∃ c, Capability.ofMarker? call.target = some c ∧
        hit = ⟨c, name, call.pos, trail ++ [call.target], config.supports c⟩ := by
  rw [Walk.callHit?]
  split
  · rename_i live
    rw [Option.map_eq_some_iff]
    simp only [live, true_and, eq_comm (b := hit)]
  · rename_i dead
    simp [dead]

theorem shows_entryHit {position : Nat} {entry : String} {hit : Hit}
    (listed : graph.entryPoints[position]? = some entry)
    (found : Walk.entryHit? config entry = some hit) :
    graph.Shows config (.entry position) hit := by
  obtain ⟨c, marker, rfl⟩ := Option.map_eq_some_iff.mp found
  exact ⟨.entry listed marker, rfl, listed.symm⟩

theorem shows_callHit {function position : Nat} {f : FunctionNode} {call : CallSite} {hit : Hit}
    {trail : List String} (defined : graph.functions[function]? = some f)
    (made : f.calls[position]? = some call) (reached : graph.Reachable config f.name)
    (found : Walk.callHit? config f.name trail call = some hit) :
    graph.Shows config (.call function position) hit := by
  obtain ⟨live, c, marker, rfl⟩ := callHit?_eq_some_iff.mp found
  refine ⟨.call defined made reached live marker, rfl, ?_⟩
  rw [textAt?, defined, List.getLast?_concat]
  simp [made]

theorem tally_entries : Tally graph config
    (fun m => ∃ position < graph.entryPoints.length, m = .entry position)
    (graph.entryPoints.filterMap (Walk.entryHit? config)) := by
  apply Tally.filterMap Mention.entry
  · intro a b same
    exact Mention.entry.inj same
  · intro position entry hit listed found
    exact shows_entryHit listed found
  · rintro position entry listed found ⟨c, caller, pos, use⟩
    rw [Walk.entryHit?, Option.map_eq_none_iff] at found
    cases use with
    | entry listed' marker =>
      rw [listed, Option.some.injEq] at listed'
      rw [← listed', found] at marker
      exact Option.some_ne_none c marker.symm

/-- The mention is a call that a function named `name` makes. -/
def CallOf (graph : CallGraph) (name : String) (mention : Mention) : Prop :=
  ∃ function f, graph.functions[function]? = some f ∧ f.name = name ∧
    ∃ position < f.calls.length, mention = .call function position

theorem tally_callHits (indexed : graph.index = .ok index) (callers : Callers) {name : String}
    (reachable : graph.Reachable config name) :
    Tally graph config (graph.CallOf name) (Walk.callHits config index callers name) := by
  rw [Walk.callHits]
  by_cases known : name ∈ graph.functions.map FunctionNode.name
  · obtain ⟨f, member, rfl⟩ := List.mem_map.mp known
    obtain ⟨function, defined⟩ := List.mem_iff_getElem?.mp member
    rw [index_calls_eq indexed member]
    have tally : Tally graph config
        (fun m => ∃ position < f.calls.length, m = .call function position)
        (f.calls.filterMap (Walk.callHit? config f.name (callers.trail f.name))) := by
      apply Tally.filterMap (Mention.call function)
      · intro a b same
        exact (Mention.call.inj same).2
      · intro position call hit made found
        exact shows_callHit defined made reachable found
      · rintro position call made found ⟨c, caller, pos, use⟩
        cases use with
        | call defined' made' _ live marker =>
          rw [defined, Option.some.injEq] at defined'
          subst defined'
          rw [made, Option.some.injEq] at made'
          subst made'
          rw [callHit?_eq_some_iff.mpr ⟨live, c, marker, rfl⟩] at found
          exact Option.some_ne_none _ found
    apply tally.congr
    intro m _
    constructor
    · intro here
      exact ⟨function, f, defined, rfl, here⟩
    · rintro ⟨function', f', defined', same, here⟩
      obtain rfl := function_unique indexed defined' defined same
      rw [defined, Option.some.injEq] at defined'
      exact defined' ▸ here
  · rw [index_calls_undefined indexed known]
    apply Tally.nothing
    rintro m ⟨function, f, defined, rfl, _⟩
    exact absurd (List.mem_map_of_mem (List.mem_of_getElem? defined)) known

theorem tally_names (indexed : graph.index = .ok index) (callers : Callers) {names : List String}
    (distinct : names.Nodup) (reachable : ∀ name ∈ names, graph.Reachable config name) :
    Tally graph config (fun m => ∃ name ∈ names, graph.CallOf name m)
      (names.flatMap (Walk.callHits config index callers)) := by
  induction names with
  | nil =>
    apply Tally.nothing
    rintro m ⟨name, member, _⟩
    simp at member
  | cons name rest ih =>
    rw [List.nodup_cons] at distinct
    have first := tally_callHits indexed callers (reachable name List.mem_cons_self)
    have later := ih distinct.2 fun n member => reachable n (List.mem_cons_of_mem _ member)
    rw [List.flatMap_cons]
    refine (first.append later ?_).congr ?_
    · rintro m ⟨function, f, defined, rfl, position, _, rfl⟩
        ⟨name, member, function', f', defined', rfl, position', _, same⟩
      rw [← (Mention.call.inj same).1, defined, Option.some.injEq] at defined'
      exact distinct.1 (defined' ▸ member)
    · intro m _
      simp only [List.mem_cons, exists_eq_or_imp]

/-- Every marker use is a mention that a finished walk has come upon. -/
theorem tally_finished (indexed : graph.index = .ok index) {walk : Walk}
    (finished : Walk.Finished graph config index walk) :
    Tally graph config (fun _ => True) walk.hits := by
  have calls := tally_names indexed walk.callers finished.grown.nodup fun name member =>
    finished.mem_names_iff.mp member
  rw [finished.hits]
  refine (tally_entries.append calls ?_).congr ?_
  · rintro m ⟨position, _, rfl⟩ ⟨name, _, function, f, _, _, position', _, same⟩
    exact Mention.noConfusion same
  · rintro m ⟨c, caller, pos, use⟩
    refine ⟨fun _ => trivial, fun _ => ?_⟩
    cases use with
    | @entry position _ _ listed _ =>
      exact Or.inl ⟨position, (List.getElem?_eq_some_iff.mp listed).1, rfl⟩
    | @call function position f _ _ defined made reached _ _ =>
      refine Or.inr ⟨f.name, ?_, function, f, defined, rfl, position, ?_, rfl⟩
      · exact finished.mem_names_iff.mpr reached
      · exact (List.getElem?_eq_some_iff.mp made).1

/-- What an outcome has to say about the graph that was checked. -/
structure Exact (graph : CallGraph) (config : LinkConfig) (outcome : Outcome) : Prop where
  /-- The hits are the marker uses, each once; a function that is named like a marker has none. -/
  hits : ∃ mentions : List Mention, mentions.Nodup ∧
    (∀ m, m ∈ mentions ↔ graph.UsesMarker config m) ∧
    (∀ function position f, .call function position ∈ mentions →
      graph.functions[function]? = some f → Capability.ofMarker? f.name = none) ∧
      List.Forall₂ (graph.Shows config) mentions outcome.hits
  state : outcome.state = .closed ↔ ∃ m, graph.UsesMarker config m
  reachable : ∃ names : List String, names.Nodup ∧
    (∀ name, name ∈ names ↔ graph.Reachable config name) ∧ outcome.reachable = names.length

theorem Reachable.plain {name : String} (reachable : graph.Reachable config name) :
    Capability.ofMarker? name = none := by
  cases reachable <;> assumption

theorem exact_finished (indexed : graph.index = .ok index) {walk : Walk}
    (finished : Walk.Finished graph config index walk) : Exact graph config walk.outcome := by
  obtain ⟨mentions, distinct, exactly, shown⟩ := tally_finished indexed finished
  simp only [true_and] at exactly
  constructor
  · refine ⟨mentions, distinct, exactly, ?_, shown⟩
    intro function position f member defined
    obtain ⟨c, caller, pos, use⟩ := (exactly _).mp member
    cases use with
    | call defined' _ reached _ _ =>
      rw [defined, Option.some.injEq] at defined'
      exact defined' ▸ reached.plain
  · have lengths := shown.length_eq
    constructor
    · intro closed
      cases mentions with
      | nil =>
        rw [List.length_nil, eq_comm, List.length_eq_zero_iff] at lengths
        simp [Walk.outcome, lengths] at closed
      | cons m rest => exact ⟨m, (exactly m).mp List.mem_cons_self⟩
    · rintro ⟨m, uses⟩
      have some : walk.hits ≠ [] := by
        intro empty
        rw [empty, List.length_nil, List.length_eq_zero_iff] at lengths
        have member := (exactly m).mpr uses
        simp [lengths] at member
      simp [Walk.outcome, some]
  · refine ⟨walk.callers.names, finished.grown.nodup, fun name => finished.mem_names_iff, ?_⟩
    rw [Callers.names, List.length_map, Walk.outcome]

end Walked

theorem check_reports_each_use_once {graph : CallGraph} {config : LinkConfig} {index : Index}
    (indexed : graph.index = .ok index) (checking : config.checkFeatures = true) :
    ∃ outcome, graph.check config = .ok outcome ∧ Exact graph config outcome :=
  ⟨_, check_of_index indexed checking, exact_finished indexed (Walk.finished_walk indexed)⟩

/-- Two functions that call each other and a third, which no function defines; one entry point is
listed twice and another is a marker, and so is the name of a function. -/
def entangled : CallGraph where
  schemaVersion := schema
  entryPoints := ["main", "nbridge_unsupported_threads", "main"]
  functions := [
    ⟨"main", [⟨"loop", none, none⟩, ⟨"nbridge_unsupported_threads", none, some ⟨.threads, false⟩⟩]⟩,
    ⟨"loop", [⟨"main", none, none⟩, ⟨"write", none, none⟩,
      ⟨" nbridge_caps::unsupported::continuations", some ⟨"a.rs", 3, 0⟩, none⟩]⟩,
    ⟨"nbridge_unsupported_threads", [⟨"nbridge_unsupported_threads", none, none⟩]⟩]

theorem check_reports_each_use_once_entangled :
    (∃ index, entangled.index = .ok index) ∧ LinkConfig.standard.checkFeatures = true ∧
      ∃ outcome, entangled.check .standard = .ok outcome ∧
        Exact entangled .standard outcome := by
  have indexed : entangled.index = .ok (entangled.functions.map CallGraph.indexed) := by
    decide +kernel
  exact ⟨⟨_, indexed⟩, rfl, check_reports_each_use_once indexed rfl⟩

end CallGraph

end LinkGate
