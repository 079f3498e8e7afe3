import LinkGate.Proofs.Gate.MarkerUses
import Mathlib.Data.List.Chain

/-!
# Trails are shortest ways

The trail of a hit is a way along live calls from an entry point to the caller, with the marker at
its end, and no way to the caller is shorter.  The way is what the notes of the walk lead back on;
that it is shortest follows along any other way, since a call leads at most one deeper.
-/

set_option autoImplicit false

namespace LinkGate

namespace CallGraph

/-- A way along live calls from an entry point to `name`, with no marker on it. -/
structure Way (graph : CallGraph) (config : LinkConfig) (names : List String)
    (name : String) : Prop where
  starts : ∃ entry ∈ graph.entryPoints, names.head? = some entry
  ends : names.getLast? = some name
  plain : ∀ n ∈ names, Capability.ofMarker? n = none
  live : names.IsChain (graph.Calls config)

namespace Way
variable {graph : CallGraph} {config : LinkConfig} {names : List String} {name target : String}

theorem single (listed : name ∈ graph.entryPoints) (plain : Capability.ofMarker? name = none) :
    Way graph config [name] name where
  starts := ⟨name, listed, rfl⟩
  ends := rfl
  plain := by simpa using plain
  live := .singleton name

theorem ne_nil (way : Way graph config names name) : names ≠ [] := by
  intro empty
  have ends := way.ends
  simp [empty] at ends

theorem isChain_concat (way : Way graph config names name)
    (calls : graph.Calls config name target) :
    (names ++ [target]).IsChain (graph.Calls config) := by
  apply way.live.append (.singleton target)
  intro last isLast first isFirst
  rw [way.ends, Option.mem_some_iff] at isLast
  rw [List.head?_cons, Option.mem_some_iff] at isFirst
  exact isLast ▸ isFirst ▸ calls

theorem concat (way : Way graph config names name) (calls : graph.Calls config name target)
    (plain : Capability.ofMarker? target = none) :
    Way graph config (names ++ [target]) target where
  starts := by
    obtain ⟨entry, listed, first⟩ := way.starts
    exact ⟨entry, listed, by rw [List.head?_append, first, Option.some_or]⟩
  ends := List.getLast?_concat
  plain := by
    intro n member
    rcases List.mem_append.mp member with member | member
    · exact way.plain n member
    · exact List.mem_singleton.mp member ▸ plain
  live := way.isChain_concat calls

/-- A way is an entry point alone, or it goes on from a way to some caller. -/
theorem concat_cases {last : String} (way : Way graph config (names ++ [last]) name) :
    last = name ∧ Capability.ofMarker? name = none ∧
      (names = [] ∧ name ∈ graph.entryPoints ∨
        ∃ caller, Way graph config names caller ∧ graph.Calls config caller name) := by
  have same : last = name := by
    have ends := way.ends
    rwa [List.getLast?_concat, Option.some.injEq] at ends
  subst same
  refine ⟨rfl, way.plain last (by simp), ?_⟩
  obtain ⟨entry, listed, first⟩ := way.starts
  cases before : names.getLast? with
  | none =>
    rw [List.getLast?_eq_none_iff] at before
    subst before
    rw [List.nil_append, List.head?_cons, Option.some.injEq] at first
    exact Or.inl ⟨rfl, first ▸ listed⟩
  | some caller =>
    obtain ⟨liveBefore, _, joined⟩ := List.isChain_append.mp way.live
    refine Or.inr ⟨caller, ⟨⟨entry, listed, ?_⟩, before, ?_, liveBefore⟩, ?_⟩
    · cases names with
      | nil => simp at before
      | cons head tail => exact first
    · intro n member
      exact way.plain n (List.mem_append_left _ member)
    · exact joined caller before last rfl

end Way

/-- The way comes to its last name no later than any other way does. -/
structure ShortestWay (graph : CallGraph) (config : LinkConfig) (names : List String)
    (name : String) : Prop where
  way : graph.Way config names name
  shortest : ∀ other, graph.Way config other name → names.length ≤ other.length

/-- Names that are called one after the other are defined, but for the last one. -/
theorem defined_of_isChain {graph : CallGraph} {config : LinkConfig} {names : List String}
    (live : names.IsChain (graph.Calls config)) :
    ∀ n ∈ names.dropLast, ∃ f ∈ graph.functions, f.name = n := by
  induction live with
  | nil => simp
  | singleton => simp
  | cons_cons calls _ ih =>
    intro n member
    rw [List.dropLast_cons_cons, List.mem_cons] at member
    rcases member with rfl | member
    · obtain ⟨f, listed, named, _⟩ := calls
      exact ⟨f, listed, named⟩
    · exact ih n member

end CallGraph

section Finished
variable {graph : CallGraph} {config : LinkConfig} {index : CallGraph.Index} {walk : Walk}
  {name : String}

theorem Callers.Back.way {callers : Callers} {names : List String}
    (back : callers.Back name names) (grown : callers.Grown graph config) :
    graph.Way config names.reverse name := by
  induction back with
  | entry noted =>
    have plain := (grown.reachable ((Callers.Back.entry noted).reached _
      List.mem_cons_self)).plain
    exact .single (grown.fits noted) plain
  | call noted back ih =>
    have plain := (grown.reachable ((Callers.Back.call noted back).reached _
      List.mem_cons_self)).plain
    rw [List.reverse_cons]
    exact ih.concat (grown.fits noted) plain

theorem Walk.Finished.depth_le (finished : Walk.Finished graph config index walk)
    {names : List String} (way : graph.Way config names name) :
    walk.callers.reached name ∧ walk.callers.depth name ≤ names.length := by
  induction names using List.reverseRecOn generalizing name with
  | nil => exact absurd rfl way.ne_nil
  | append_singleton before last ih =>
    obtain ⟨_, plain, ⟨rfl, listed⟩ | ⟨caller, wayBefore, calls⟩⟩ := way.concat_cases
    · exact finished.entries name listed plain
    · obtain ⟨reached, near⟩ := ih wayBefore
      obtain ⟨reachedNext, nearNext⟩ := finished.closed caller reached name calls plain
      rw [List.length_append, List.length_singleton]
      exact ⟨reachedNext, Nat.le_trans nearNext (Nat.succ_le_succ near)⟩

theorem Walk.Finished.shortest (finished : Walk.Finished graph config index walk)
    (known : walk.callers.reached name) :
    graph.ShortestWay config (walk.callers.trail name) name where
  way := by
    obtain ⟨names, back⟩ := finished.grown.back known
    rw [back.trail_eq]
    exact back.way finished.grown
  shortest := by
    intro other way
    exact (finished.depth_le way).2

theorem Walk.Finished.trail_nodup (finished : Walk.Finished graph config index walk)
    (known : walk.callers.reached name) : (walk.callers.trail name).Nodup := by
  obtain ⟨names, back⟩ := finished.grown.back known
  rw [back.trail_eq, List.nodup_reverse]
  exact back.nodup

theorem Walk.length_trail_entryHit {entry : String} {hit : Hit}
    (found : Walk.entryHit? config entry = some hit) : hit.trail.length = 1 := by
  obtain ⟨c, _, rfl⟩ := Option.map_eq_some_iff.mp found
  rfl

theorem Walk.of_mem_callHits {callers : Callers} {hit : Hit}
    (member : hit ∈ Walk.callHits config index callers name) :
    hit.caller = name ∧ hit.trail.length = callers.depth name + 1 := by
  obtain ⟨call, _, found⟩ := List.mem_filterMap.mp member
  obtain ⟨_, c, _, rfl⟩ := CallGraph.callHit?_eq_some_iff.mp found
  rw [List.length_append, List.length_singleton, Callers.depth]
  exact ⟨rfl, rfl⟩

/-- A trail is an entry point that is a marker, or one longer than the way to the caller. -/
theorem Walk.Finished.length_trail (finished : Walk.Finished graph config index walk) {hit : Hit}
    (member : hit ∈ walk.hits) :
    Capability.ofMarker? hit.caller ≠ none ∧ hit.trail.length = 1 ∨
      walk.callers.reached hit.caller ∧
        hit.trail.length = walk.callers.depth hit.caller + 1 := by
  rw [finished.hits, List.mem_append, List.mem_filterMap, List.mem_flatMap] at member
  rcases member with ⟨entry, _, found⟩ | ⟨name, noted, member⟩
  · obtain ⟨c, marker, rfl⟩ := Option.map_eq_some_iff.mp found
    refine Or.inl ⟨?_, rfl⟩
    rw [marker]
    exact Option.some_ne_none c
  · obtain ⟨rfl, length⟩ := Walk.of_mem_callHits member
    exact Or.inr ⟨Callers.reached_iff.mpr noted, length⟩

end Finished

namespace CallGraph

/-- The trail of a hit at an entry point is that entry point; the trail of a hit at a call is a
shortest way to the caller and after it what the call names. -/
inductive Traced (graph : CallGraph) (config : LinkConfig) : Mention → Hit → Prop where
  | entry {position : Nat} {hit : Hit} (alone : hit.trail = [hit.caller]) :
      Traced graph config (.entry position) hit
  | call {function position : Nat} {hit : Hit} {names : List String} {target : String}
      (named : graph.textAt? (.call function position) = some target)
      (trail : hit.trail = names ++ [target])
      (way : graph.ShortestWay config names hit.caller)
      (live : hit.trail.IsChain (graph.Calls config))
      (defined : ∀ n ∈ names, ∃ f ∈ graph.functions, f.name = n)
      (distinct : hit.trail.Nodup) :
      Traced graph config (.call function position) hit

section Hits
variable {graph : CallGraph} {config : LinkConfig} {index : Index} {walk : Walk}

theorem traced_callHit (finished : Walk.Finished graph config index walk)
    {function position : Nat} {f : FunctionNode} {call : CallSite} {hit : Hit}
    (defined : graph.functions[function]? = some f) (made : f.calls[position]? = some call)
    (known : walk.callers.reached f.name)
    (found : Walk.callHit? config f.name (walk.callers.trail f.name) call = some hit) :
    graph.Traced config (.call function position) hit := by
  obtain ⟨live, c, marker, rfl⟩ := callHit?_eq_some_iff.mp found
  have shortest := finished.shortest known
  have calls : graph.Calls config f.name call.target :=
    ⟨f, List.mem_of_getElem? defined, rfl, call, List.mem_of_getElem? made, live, rfl⟩
  have chain := shortest.way.isChain_concat calls
  refine .call ?_ rfl shortest chain ?_ ?_
  · simp [textAt?, defined, made]
  · have definedAll := defined_of_isChain chain
    rwa [List.dropLast_concat] at definedAll
  · rw [← List.concat_eq_append]
    apply List.Nodup.concat _ (finished.trail_nodup known)
    intro member
    have plain := shortest.way.plain call.target member
    rw [marker] at plain
    exact Option.some_ne_none c plain

theorem traced_of_mem_hits (indexed : graph.index = .ok index)
    (finished : Walk.Finished graph config index walk) {hit : Hit} (member : hit ∈ walk.hits) :
    ∃ mention, graph.Shows config mention hit ∧ graph.Traced config mention hit := by
  rw [finished.hits, List.mem_append, List.mem_filterMap, List.mem_flatMap] at member
  rcases member with ⟨entry, listed, found⟩ | ⟨name, noted, member⟩
  · obtain ⟨position, listedAt⟩ := List.mem_iff_getElem?.mp listed
    refine ⟨.entry position, shows_entryHit listedAt found, .entry ?_⟩
    obtain ⟨c, marker, rfl⟩ := Option.map_eq_some_iff.mp found
    rfl
  · obtain ⟨call, made, found⟩ := List.mem_filterMap.mp member
    by_cases known : name ∈ graph.functions.map FunctionNode.name
    · obtain ⟨f, listed, rfl⟩ := List.mem_map.mp known
      rw [index_calls_eq indexed listed] at made
      obtain ⟨function, defined⟩ := List.mem_iff_getElem?.mp listed
      obtain ⟨position, madeAt⟩ := List.mem_iff_getElem?.mp made
      have reached := Callers.reached_iff.mpr noted
      exact ⟨.call function position,
        shows_callHit defined madeAt (finished.grown.reachable reached) found,
        traced_callHit finished defined madeAt reached found⟩
    · rw [index_calls_undefined indexed known] at made
      simp at made

end Hits

theorem check_trails_shortest {graph : CallGraph} {config : LinkConfig} {index : Index}
    (indexed : graph.index = .ok index) (checking : config.checkFeatures = true) :
    ∃ outcome, graph.check config = .ok outcome ∧
      ∀ hit ∈ outcome.hits, ∃ mention, graph.Shows config mention hit ∧
        graph.Traced config mention hit := by
  refine ⟨_, check_of_index indexed checking, ?_⟩
  intro hit member
  exact traced_of_mem_hits indexed (Walk.finished_walk indexed) member

/-- `goal` is reached by a long way first listed, by a short one, and through a function that is
named like a marker. -/
def detour : CallGraph where
  schemaVersion := schema
  entryPoints := ["main"]
  functions := [
    ⟨"main", [⟨"a", none, none⟩, ⟨"b", none, none⟩, ⟨"nbridge_unsupported_threads", none, none⟩]⟩,
    ⟨"a", [⟨"c", none, none⟩, ⟨"main", none, none⟩]⟩,
    ⟨"b", [⟨"goal", none, none⟩]⟩,
    ⟨"c", [⟨"goal", none, none⟩]⟩,
    ⟨"goal", [⟨"nbridge_unsupported_continuations ", none, none⟩, ⟨"goal", none, none⟩]⟩,
    ⟨"nbridge_unsupported_threads", [⟨"goal", none, none⟩]⟩]

theorem check_trails_shortest_detour :
    (∃ index, detour.index = .ok index) ∧ LinkConfig.standard.checkFeatures = true ∧
      ∃ outcome, detour.check .standard = .ok outcome ∧ outcome.state = .closed ∧
        outcome.hits.map Hit.trail = [["main", "nbridge_unsupported_threads"],
          ["main", "b", "goal", "nbridge_unsupported_continuations "]] ∧
        ∀ hit ∈ outcome.hits, ∃ mention, detour.Shows .standard mention hit ∧
          detour.Traced .standard mention hit := by
  have indexed : detour.index = .ok (detour.functions.map CallGraph.indexed) := by
    decide +kernel
  have checking : LinkConfig.standard.checkFeatures = true := rfl
  obtain ⟨outcome, checked, traced⟩ := check_trails_shortest indexed checking
  cases checked.symm.trans (check_of_index indexed checking)
  exact ⟨⟨_, indexed⟩, checking, _, checked, by decide +kernel, by decide +kernel, traced⟩

end CallGraph

end LinkGate
