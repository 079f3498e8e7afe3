import LinkGate.Proofs.Gate.Trails

/-!
# Adding code

A graph may get further entry points, functions and calls, so that the walk of it takes other turns
and other trails.  What could be reached before can still be, by a way that is no longer; so every
marker use stays one, and the gate does not open (`check_grows`).
-/

set_option autoImplicit false

namespace LinkGate

namespace CallGraph

/-- `larger` has all entry points of `graph`, and each function of it with all its calls.  The order
of either list does not matter, nor what stands between. -/
structure Extends (larger graph : CallGraph) : Prop where
  entries : graph.entryPoints.Subperm larger.entryPoints
  functions : ∀ f ∈ graph.functions, ∃ g ∈ larger.functions,
    g.name = f.name ∧ f.calls.Subperm g.calls

namespace Extends
variable {graph larger : CallGraph} {config : LinkConfig} {index largerIndex : Index}
  {name target : String} {names : List String}

theorem calls (growth : larger.Extends graph) (calls : graph.Calls config name target) :
    larger.Calls config name target := by
  obtain ⟨f, member, named, call, made, live⟩ := calls
  obtain ⟨g, largerMember, same, inside⟩ := growth.functions f member
  exact ⟨g, largerMember, same.trans named, call, inside.subset made, live⟩

theorem reachable (growth : larger.Extends graph) (reachable : graph.Reachable config name) :
    larger.Reachable config name := by
  induction reachable with
  | entry listed plain => exact .entry (growth.entries.subset listed) plain
  | call _ calls plain ih => exact .call ih (growth.calls calls) plain

theorem way (growth : larger.Extends graph) (way : graph.Way config names name) :
    larger.Way config names name where
  starts := by
    obtain ⟨entry, listed, first⟩ := way.starts
    exact ⟨entry, growth.entries.subset listed, first⟩
  ends := way.ends
  plain := way.plain
  live := way.live.imp fun _ _ => growth.calls

theorem index_calls (growth : larger.Extends graph) (indexed : graph.index = .ok index)
    (largerIndexed : larger.index = .ok largerIndex) (name : String) :
    (index.calls name).Subperm (largerIndex.calls name) := by
  by_cases known : name ∈ graph.functions.map FunctionNode.name
  · obtain ⟨f, member, rfl⟩ := List.mem_map.mp known
    obtain ⟨g, largerMember, same, inside⟩ := growth.functions f member
    rw [index_calls_eq indexed member, ← same, index_calls_eq largerIndexed largerMember]
    exact inside
  · rw [index_calls_undefined indexed known]
    exact List.nil_subperm

/-! ## Two finished walks -/

section Walks
variable {walk more : Walk} (growth : larger.Extends graph)
  (finished : Walk.Finished graph config index walk)
  (largerFinished : Walk.Finished larger config largerIndex more)
include growth finished largerFinished

theorem names_subperm : walk.callers.names.Subperm more.callers.names := by
  apply List.subperm_of_subset finished.grown.nodup
  intro name member
  exact largerFinished.mem_names_iff.mpr (growth.reachable (finished.mem_names_iff.mp member))

/-- A shortest way is still a way. -/
theorem depth_le (known : walk.callers.reached name) :
    more.callers.depth name ≤ walk.callers.depth name :=
  (largerFinished.depth_le (growth.way (finished.shortest known).way)).2

/-- All that is told of hits is told again, as far as it does not hang on which way was found. -/
theorem hits_subperm {κ : Type} (tell : Hit → κ) (indexed : graph.index = .ok index)
    (largerIndexed : larger.index = .ok largerIndex)
    (same : ∀ name, walk.callers.reached name → ∀ call,
      (Walk.callHit? config name (walk.callers.trail name) call).map tell =
        (Walk.callHit? config name (more.callers.trail name) call).map tell) :
    (walk.hits.map tell).Subperm (more.hits.map tell) := by
  rw [finished.hits, largerFinished.hits, List.map_append, List.map_append]
  apply List.Subperm.append
  · rw [List.map_filterMap, List.map_filterMap]
    exact subperm_filterMap _ growth.entries
  · rw [List.map_flatMap, List.map_flatMap]
    apply subperm_flatMap (growth.names_subperm finished largerFinished)
    intro name member
    rw [Walk.callHits, Walk.callHits, List.map_filterMap, List.map_filterMap,
      funext (same name (Callers.reached_iff.mpr member))]
    exact subperm_filterMap _ (growth.index_calls indexed largerIndexed name)

end Walks

end Extends

end CallGraph

/-! ## Two outcomes -/

/-- What a hit is about. -/
def Hit.site (hit : Hit) : Capability × String × Option SourcePos :=
  (hit.capability, hit.caller, hit.pos)

/-- Everything that is found is found again, by trails that are no longer. -/
structure Outcome.Within (outcome more : Outcome) : Prop where
  hits : (outcome.hits.map Hit.site).Subperm (more.hits.map Hit.site)
  reachable : outcome.reachable ≤ more.reachable
  closed : outcome.state = .closed → more.state = .closed
  trails : ∀ hit ∈ outcome.hits, ∀ other ∈ more.hits, other.caller = hit.caller →
    other.trail.length ≤ hit.trail.length

namespace CallGraph

section Outcomes
variable {graph larger : CallGraph} {config : LinkConfig} {index largerIndex : Index}

theorem Extends.within (growth : larger.Extends graph) {walk more : Walk}
    (finished : Walk.Finished graph config index walk)
    (largerFinished : Walk.Finished larger config largerIndex more)
    (indexed : graph.index = .ok index) (largerIndexed : larger.index = .ok largerIndex) :
    walk.outcome.Within more.outcome := by
  have hits : (walk.hits.map Hit.site).Subperm (more.hits.map Hit.site) := by
    apply growth.hits_subperm finished largerFinished Hit.site indexed largerIndexed
    intro name _ call
    rw [Walk.callHit?, Walk.callHit?]
    split
    · rw [Option.map_map, Option.map_map]
      rfl
    · rfl
  constructor
  · exact hits
  · have names := (growth.names_subperm finished largerFinished).length_le
    rwa [Callers.names, Callers.names, List.length_map, List.length_map] at names
  · intro closed
    have some : more.hits ≠ [] := by
      intro none
      rw [none, List.map_nil, List.subperm_nil, List.map_eq_nil_iff] at hits
      simp [Walk.outcome, hits] at closed
    rw [Walk.outcome, if_neg some]
  · intro hit member other otherMember same
    have length := finished.length_trail member
    rcases largerFinished.length_trail otherMember with ⟨_, one⟩ | ⟨otherKnown, otherLength⟩
    · omega
    · rw [same] at otherKnown otherLength
      rcases length with ⟨marker, _⟩ | ⟨known, length⟩
      · exact absurd (largerFinished.grown.reachable otherKnown).plain marker
      · have near := growth.depth_le finished largerFinished known
        omega

end Outcomes

theorem check_grows {graph larger : CallGraph} (valid : graph.Valid) (largerValid : larger.Valid)
    (growth : larger.Extends graph) (config : LinkConfig) :
    ∃ outcome more, graph.check config = .ok outcome ∧ larger.check config = .ok more ∧
      outcome.Within more := by
  cases checking : config.checkFeatures with
  | false =>
    refine ⟨_, _, check_of_unchecked valid checking, check_of_unchecked largerValid checking, ?_⟩
    exact ⟨.refl _, Nat.le_refl _, id, by simp [Outcome.skipped]⟩
  | true =>
    obtain ⟨index, indexed⟩ := valid
    obtain ⟨largerIndex, largerIndexed⟩ := largerValid
    exact ⟨_, _, check_of_index indexed checking, check_of_index largerIndexed checking,
      growth.within (Walk.finished_walk indexed) (Walk.finished_walk largerIndexed) indexed
        largerIndexed⟩

/-- One marker, three calls deep, and one function that is not defined. -/
def sketch : CallGraph where
  schemaVersion := schema
  entryPoints := ["main"]
  functions := [
    ⟨"main", [⟨"load", none, none⟩, ⟨"write", none, none⟩]⟩,
    ⟨"load", [⟨"parse", none, none⟩]⟩,
    ⟨"parse", [⟨"nbridge_unsupported_threads", some ⟨"a.rs", 3, 0⟩, none⟩]⟩]

/-- `sketch` with two more entry points, a shorter way to its marker and a definition of what was
not defined. -/
def program : CallGraph where
  schemaVersion := schema
  entryPoints := ["nbridge_unsupported_continuations", "main", "test"]
  functions := [
    ⟨"write", [⟨"nbridge_unsupported_threads", none, none⟩, ⟨"main", none, none⟩]⟩,
    ⟨"parse", [⟨"test", none, none⟩,
      ⟨"nbridge_unsupported_threads", some ⟨"a.rs", 3, 0⟩, none⟩]⟩,
    ⟨"main", [⟨"parse", none, none⟩, ⟨"load", none, none⟩, ⟨"write", none, none⟩]⟩,
    ⟨"load", [⟨"parse", none, none⟩]⟩]

theorem check_grows_program :
    sketch.Valid ∧ program.Valid ∧ program.Extends sketch ∧
      ∃ outcome more, sketch.check .standard = .ok outcome ∧ program.check .standard = .ok more ∧
        outcome.state = .closed ∧ (outcome.reachable, more.reachable) = (4, 5) ∧
        outcome.hits.map Hit.trail = [["main", "load", "parse", "nbridge_unsupported_threads"]] ∧
        more.hits.map Hit.trail = [["nbridge_unsupported_continuations"],
          ["main", "parse", "nbridge_unsupported_threads"],
          ["main", "write", "nbridge_unsupported_threads"]] ∧
        outcome.Within more := by
  have indexed : sketch.index = .ok (sketch.functions.map CallGraph.indexed) := by decide +kernel
  have programIndexed : program.index = .ok (program.functions.map CallGraph.indexed) := by
    decide +kernel
  have growth : program.Extends sketch := ⟨by decide +kernel, by decide +kernel⟩
  obtain ⟨outcome, more, checked, programChecked, within⟩ :=
    check_grows ⟨_, indexed⟩ ⟨_, programIndexed⟩ growth .standard
  cases checked.symm.trans (check_of_index indexed rfl)
  cases programChecked.symm.trans (check_of_index programIndexed rfl)
  exact ⟨⟨_, indexed⟩, ⟨_, programIndexed⟩, growth, _, _, checked, programChecked,
    by decide +kernel, by decide +kernel, by decide +kernel, by decide +kernel, within⟩

end CallGraph

end LinkGate
