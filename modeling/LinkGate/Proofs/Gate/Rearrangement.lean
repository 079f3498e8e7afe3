import LinkGate.Proofs.Gate.Growth

/-!
# The order in which a graph is listed

The order of entry points, of functions and of the calls of a function decides in which order the
walk goes, and so which of several shortest trails it finds and which hit comes first.  Nothing else
hangs on it (`check_rearranged`): each of two rearranged graphs extends the other, so that neither
finds a use more than the other, and neither finds a shorter way.
-/

set_option autoImplicit false

namespace LinkGate

namespace CallGraph

/-- The same entry points, functions and calls, each list in any order. -/
structure Rearranged (graph twin : CallGraph) : Prop where
  entries : graph.entryPoints.Perm twin.entryPoints
  functions : ∃ functions, graph.functions.Perm functions ∧
    List.Forall₂ (fun f g => g.name = f.name ∧ f.calls.Perm g.calls) functions twin.functions

namespace Rearranged
variable {graph twin : CallGraph} (rearranged : graph.Rearranged twin)
include rearranged

theorem valid_iff_valid : graph.Valid ↔ twin.Valid := by
  obtain ⟨functions, permuted, paired⟩ := rearranged.functions
  apply valid_congr
  rw [names_paired paired]
  exact permuted.map FunctionNode.name

theorem extends_right : twin.Extends graph := by
  obtain ⟨functions, permuted, paired⟩ := rearranged.functions
  refine ⟨rearranged.entries.subperm, ?_⟩
  intro f member
  obtain ⟨g, twinMember, named, calls⟩ := exists_of_forall₂ paired f (permuted.mem_iff.mp member)
  exact ⟨g, twinMember, named, calls.subperm⟩

theorem extends_left : graph.Extends twin := by
  obtain ⟨functions, permuted, paired⟩ := rearranged.functions
  refine ⟨rearranged.entries.symm.subperm, ?_⟩
  intro g member
  obtain ⟨f, listed, named, calls⟩ := exists_of_forall₂ paired.flip g member
  exact ⟨f, permuted.mem_iff.mpr listed, named.symm, calls.symm.subperm⟩

end Rearranged

end CallGraph

/-- What is told of a use, whichever of the shortest trails to it is shown. -/
structure Account where
  capability : Capability
  caller : String
  pos : Option SourcePos
  enabled : Bool
  steps : Nat
  marker : Option String
  deriving DecidableEq, Repr

def Hit.account (hit : Hit) : Account where
  capability := hit.capability
  caller := hit.caller
  pos := hit.pos
  enabled := hit.enabled
  steps := hit.trail.length
  marker := hit.trail.getLast?

/-- Two outcomes that differ in the order of their hits and in the choice of trails, if at all. -/
structure Outcome.SameUpToOrder (a b : Outcome) : Prop where
  state : a.state = b.state
  checked : a.checked = b.checked
  reachable : a.reachable = b.reachable
  hits : (a.hits.map Hit.account).Perm (b.hits.map Hit.account)

namespace CallGraph

section Walks
variable {graph twin : CallGraph} {config : LinkConfig} {index twinIndex : Index}
  {walk other : Walk}

theorem accounts_subperm (growth : twin.Extends graph)
    (finished : Walk.Finished graph config index walk)
    (twinFinished : Walk.Finished twin config twinIndex other)
    (indexed : graph.index = .ok index) (twinIndexed : twin.index = .ok twinIndex)
    (deep : ∀ name, walk.callers.reached name →
      walk.callers.depth name = other.callers.depth name) :
    (walk.hits.map Hit.account).Subperm (other.hits.map Hit.account) := by
  apply growth.hits_subperm finished twinFinished Hit.account indexed twinIndexed
  intro name known call
  have same := deep name known
  rw [Callers.depth, Callers.depth] at same
  rw [Walk.callHit?, Walk.callHit?]
  split
  · rw [Option.map_map, Option.map_map]
    congr 1
    funext c
    simp [Hit.account, same]
  · rfl

theorem Rearranged.sameUpToOrder (rearranged : graph.Rearranged twin)
    (finished : Walk.Finished graph config index walk)
    (twinFinished : Walk.Finished twin config twinIndex other)
    (indexed : graph.index = .ok index) (twinIndexed : twin.index = .ok twinIndex) :
    walk.outcome.SameUpToOrder other.outcome := by
  have right := rearranged.extends_right
  have left := rearranged.extends_left
  have names : walk.callers.names.Perm other.callers.names :=
    (right.names_subperm finished twinFinished).antisymm
      (left.names_subperm twinFinished finished)
  have deep : ∀ name, walk.callers.reached name →
      walk.callers.depth name = other.callers.depth name := by
    intro name known
    have twinKnown : other.callers.reached name := by
      rw [Callers.reached_iff] at known ⊢
      exact names.mem_iff.mp known
    exact Nat.le_antisymm (left.depth_le twinFinished finished twinKnown)
      (right.depth_le finished twinFinished known)
  have hits : (walk.hits.map Hit.account).Perm (other.hits.map Hit.account) := by
    apply (accounts_subperm right finished twinFinished indexed twinIndexed deep).antisymm
    apply accounts_subperm left twinFinished finished twinIndexed indexed
    intro name twinKnown
    rw [Callers.reached_iff] at twinKnown
    exact (deep name (Callers.reached_iff.mpr (names.mem_iff.mpr twinKnown))).symm
  constructor
  · apply Walk.state_outcome_congr
    have lengths := hits.length_eq
    rwa [List.length_map, List.length_map] at lengths
  · rfl
  · have lengths := names.length_eq
    rwa [Callers.names, Callers.names, List.length_map, List.length_map] at lengths
  · exact hits

end Walks

theorem check_rearranged {graph twin : CallGraph} (rearranged : graph.Rearranged twin)
    (config : LinkConfig) :
    (∃ outcome twinOutcome, graph.check config = .ok outcome ∧
        twin.check config = .ok twinOutcome ∧ outcome.SameUpToOrder twinOutcome) ∨
      ∃ error twinError, graph.check config = .error error ∧
        twin.check config = .error twinError := by
  by_cases valid : graph.Valid
  · have twinValid := rearranged.valid_iff_valid.mp valid
    left
    cases checking : config.checkFeatures with
    | false =>
      exact ⟨_, _, check_of_unchecked valid checking, check_of_unchecked twinValid checking,
        rfl, rfl, rfl, .refl _⟩
    | true =>
      obtain ⟨index, indexed⟩ := valid
      obtain ⟨twinIndex, twinIndexed⟩ := twinValid
      exact ⟨_, _, check_of_index indexed checking, check_of_index twinIndexed checking,
        rearranged.sameUpToOrder (Walk.finished_walk indexed) (Walk.finished_walk twinIndexed)
          indexed twinIndexed⟩
  · have twinInvalid := mt rearranged.valid_iff_valid.mpr valid
    obtain ⟨error, refused⟩ := check_of_invalid valid config
    obtain ⟨twinError, twinRefused⟩ := check_of_invalid twinInvalid config
    exact Or.inr ⟨error, twinError, refused, twinRefused⟩

def reversed (graph : CallGraph) : CallGraph where
  schemaVersion := graph.schemaVersion
  entryPoints := graph.entryPoints.reverse
  functions := graph.functions.reverse.map fun f => ⟨f.name, f.calls.reverse⟩

theorem rearranged_reversed (graph : CallGraph) : graph.Rearranged graph.reversed where
  entries := graph.entryPoints.reverse_perm.symm
  functions := by
    refine ⟨graph.functions.reverse, graph.functions.reverse_perm.symm, ?_⟩
    rw [reversed, List.forall₂_map_right_iff, List.forall₂_same]
    exact fun f _ => ⟨rfl, f.calls.reverse_perm.symm⟩

/-- Two ways of one length to a marker. -/
def fork : CallGraph where
  schemaVersion := schema
  entryPoints := ["left", "right", "nbridge_unsupported_threads"]
  functions := [
    ⟨"left", [⟨"meet", none, none⟩]⟩,
    ⟨"right", [⟨"meet", none, none⟩, ⟨"nbridge_unsupported_threads", none, none⟩]⟩,
    ⟨"meet", [⟨"nbridge_unsupported_continuations", none, none⟩, ⟨"left", none, none⟩]⟩]

theorem check_rearranged_fork :
    fork.Rearranged fork.reversed ∧ ∃ outcome twinOutcome, fork.check .standard = .ok outcome ∧
      fork.reversed.check .standard = .ok twinOutcome ∧ outcome.state = .closed ∧
      outcome.hits.map Hit.trail = [["nbridge_unsupported_threads"],
        ["right", "nbridge_unsupported_threads"],
        ["left", "meet", "nbridge_unsupported_continuations"]] ∧
      twinOutcome.hits.map Hit.trail = [["nbridge_unsupported_threads"],
        ["right", "nbridge_unsupported_threads"],
        ["right", "meet", "nbridge_unsupported_continuations"]] ∧
      outcome.SameUpToOrder twinOutcome := by
  have indexed : fork.index = .ok (fork.functions.map CallGraph.indexed) := by decide +kernel
  have twinIndexed : fork.reversed.index =
      .ok (fork.reversed.functions.map CallGraph.indexed) := by
    decide +kernel
  refine ⟨rearranged_reversed fork, ?_⟩
  rcases check_rearranged (rearranged_reversed fork) .standard with
    ⟨outcome, twinOutcome, checked, twinChecked, same⟩ | ⟨error, _, failed, _⟩
  · cases checked.symm.trans (check_of_index indexed rfl)
    cases twinChecked.symm.trans (check_of_index twinIndexed rfl)
    exact ⟨_, _, checked, twinChecked, by decide +kernel, by decide +kernel, by decide +kernel,
      same⟩
  · rw [check_of_index indexed rfl] at failed
    cases failed

end CallGraph

end LinkGate
