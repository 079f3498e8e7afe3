import LinkGate.Proofs.Gate.Trails

/-!
# The order of hits

Hits stand in the order in which the walk comes upon them: entry points first, then calls, function
by function, for a name is visited once and all its calls are followed then.  Names are visited by
depth, and a trail is one longer than that of its caller, so that no trail is followed by a shorter
one; an abort that shows its first hit in full shows a shortest trail.
-/

set_option autoImplicit false

namespace LinkGate

/-! ## Along the list -/

theorem Walk.Finished.hits_sorted {graph : CallGraph} {config : LinkConfig}
    {index : CallGraph.Index} {walk : Walk} (finished : Walk.Finished graph config index walk) :
    walk.hits.Pairwise fun a b => a.trail.length ≤ b.trail.length := by
  rw [finished.hits, List.pairwise_append, List.pairwise_flatMap]
  refine ⟨?_, ⟨?_, ?_⟩, ?_⟩
  · apply List.pairwise_of_forall_mem_list
    intro a memberA b memberB
    obtain ⟨_, _, foundA⟩ := List.mem_filterMap.mp memberA
    obtain ⟨_, _, foundB⟩ := List.mem_filterMap.mp memberB
    rw [length_trail_entryHit foundA, length_trail_entryHit foundB]
  · intro name _
    apply List.pairwise_of_forall_mem_list
    intro a memberA b memberB
    rw [(of_mem_callHits memberA).2, (of_mem_callHits memberB).2]
  · apply finished.sorted.imp
    intro first second ordered a memberA b memberB
    rw [(of_mem_callHits memberA).2, (of_mem_callHits memberB).2]
    exact Nat.succ_le_succ ordered
  · intro a memberA b memberB
    obtain ⟨_, _, foundA⟩ := List.mem_filterMap.mp memberA
    obtain ⟨name, _, memberB⟩ := List.mem_flatMap.mp memberB
    rw [length_trail_entryHit foundA, (of_mem_callHits memberB).2]
    exact Nat.succ_le_succ (Nat.zero_le _)

/-! ## The hit that is shown -/

/-- What the message of an abort adds for the hits that it does not show. -/
def othersText (more : Nat) : String :=
  if more = 0 then "" else s!"\n  ({more} more unsupported feature use(s))"

theorem Abort.message_cons (first : Hit) (rest : List Hit) :
    Abort.message ⟨first :: rest⟩ = first.text ++ othersText rest.length := by
  rw [Abort.message, othersText]
  simp only [List.length_cons, Nat.add_sub_cancel]
  by_cases none : rest.length = 0
  · rw [if_pos none, if_pos none, String.append_empty]
  · rw [if_neg none, if_neg none]
    simp only [String.append_assoc]
    rfl

namespace CallGraph

/-! ## Mentions in the order of their hits -/

/-- Calls of one function, which is given by its position, as they are the calls. -/
def callsAt (group : Nat × List Nat) : List Mention :=
  group.2.map (.call group.1)

/-- Entry points, and after them calls in groups, one for each function. -/
def inTurn (entries : List Nat) (groups : List (Nat × List Nat)) : List Mention :=
  entries.map .entry ++ groups.flatMap callsAt

/-- The hits are the marker uses, those at entry points first and in their order, then those of one
function after the other, each in the order of its calls; and no trail is followed by a shorter
one. -/
structure InOrder (graph : CallGraph) (config : LinkConfig) (hits : List Hit) : Prop where
  uses : ∃ entries groups, entries.Pairwise (· < ·) ∧ (groups.map Prod.fst).Nodup ∧
    (∀ group ∈ groups, group.2.Pairwise (· < ·)) ∧
    (∀ m, m ∈ inTurn entries groups ↔ graph.UsesMarker config m) ∧
      List.Forall₂ (graph.Shows config) (inTurn entries groups) hits
  trails : hits.Pairwise fun a b => a.trail.length ≤ b.trail.length

theorem nodup_callsAt {group : Nat × List Nat} (ascending : group.2.Pairwise (· < ·)) :
    (callsAt group).Nodup := by
  apply ascending.nodup.map
  intro a b same
  exact (Mention.call.inj same).2

theorem nodup_inTurn {entries : List Nat} {groups : List (Nat × List Nat)}
    (ascending : entries.Pairwise (· < ·)) (apart : (groups.map Prod.fst).Nodup)
    (within : ∀ group ∈ groups, group.2.Pairwise (· < ·)) : (inTurn entries groups).Nodup := by
  rw [inTurn, List.nodup_append, List.nodup_flatMap]
  refine ⟨?_, ⟨?_, ?_⟩, ?_⟩
  · apply ascending.nodup.map
    intro a b same
    exact Mention.entry.inj same
  · exact fun group member => nodup_callsAt (within group member)
  · apply (List.pairwise_map.mp apart).imp
    intro first second other m inFirst inSecond
    obtain ⟨_, _, rfl⟩ := List.mem_map.mp inFirst
    obtain ⟨_, _, same⟩ := List.mem_map.mp inSecond
    exact other (Mention.call.inj same).1.symm
  · rintro m inEntries n inCalls rfl
    obtain ⟨_, _, rfl⟩ := List.mem_map.mp inEntries
    obtain ⟨_, _, inCalls⟩ := List.mem_flatMap.mp inCalls
    obtain ⟨_, _, same⟩ := List.mem_map.mp inCalls
    exact Mention.noConfusion same

section Groups
variable {graph : CallGraph} {config : LinkConfig} {index : Index}

/-- The hits of one name after the other are groups of calls.  A name that is not defined has
none. -/
theorem exists_groups (indexed : graph.index = .ok index) (callers : Callers)
    {names : List String} (distinct : names.Nodup)
    (reachable : ∀ name ∈ names, graph.Reachable config name) :
    ∃ groups : List (Nat × List Nat), (groups.map Prod.fst).Nodup ∧
      (∀ group ∈ groups, group.2.Pairwise (· < ·) ∧
        ∃ f, graph.functions[group.1]? = some f ∧ f.name ∈ names) ∧
      List.Forall₂ (graph.Shows config) (groups.flatMap callsAt)
        (names.flatMap (Walk.callHits config index callers)) := by
  induction names with
  | nil => exact ⟨[], List.nodup_nil, by simp, .nil⟩
  | cons name rest ih =>
    rw [List.nodup_cons] at distinct
    rw [List.forall_mem_cons] at reachable
    obtain ⟨groups, apart, within, shown⟩ := ih distinct.2 reachable.2
    have later : ∀ group ∈ groups, group.2.Pairwise (· < ·) ∧
        ∃ f, graph.functions[group.1]? = some f ∧ f.name ∈ name :: rest := by
      intro group member
      obtain ⟨ascending, f, defined, named⟩ := within group member
      exact ⟨ascending, f, defined, List.mem_cons_of_mem _ named⟩
    rw [List.flatMap_cons]
    by_cases known : name ∈ graph.functions.map FunctionNode.name
    · obtain ⟨f, member, rfl⟩ := List.mem_map.mp known
      obtain ⟨function, defined⟩ := List.mem_iff_getElem?.mp member
      let hit? := Walk.callHit? config f.name (callers.trail f.name)
      refine ⟨(function, keptAt hit? f.calls) :: groups, ?_, ?_, ?_⟩
      · rw [List.map_cons, List.nodup_cons]
        refine ⟨fun again => ?_, apart⟩
        obtain ⟨group, member, same⟩ := List.mem_map.mp again
        obtain ⟨_, g, definedAgain, named⟩ := within group member
        rw [same, defined, Option.some.injEq] at definedAgain
        exact distinct.1 (definedAgain ▸ named)
      · exact List.forall_mem_cons.mpr
          ⟨⟨pairwise_keptAt _ _, f, defined, List.mem_cons_self⟩, later⟩
      · rw [List.flatMap_cons, Walk.callHits, index_calls_eq indexed member]
        apply List.rel_append _ shown
        rw [callsAt, List.forall₂_map_left_iff]
        apply (forall₂_keptAt hit? f.calls).imp
        rintro position hit ⟨call, made, found⟩
        exact shows_callHit defined made reachable.1 found
    · refine ⟨groups, apart, later, ?_⟩
      rw [Walk.callHits, index_calls_undefined indexed known]
      exact shown

theorem inOrder_finished (indexed : graph.index = .ok index) {walk : Walk}
    (finished : Walk.Finished graph config index walk) : graph.InOrder config walk.hits := by
  obtain ⟨groups, apart, within, shownCalls⟩ :=
    exists_groups indexed walk.callers finished.grown.nodup fun name member =>
      finished.mem_names_iff.mp member
  let entries := keptAt (Walk.entryHit? config) graph.entryPoints
  have ascending : entries.Pairwise (· < ·) := pairwise_keptAt _ _
  have shown : List.Forall₂ (graph.Shows config) (inTurn entries groups) walk.hits := by
    rw [finished.hits]
    apply List.rel_append _ shownCalls
    rw [List.forall₂_map_left_iff]
    apply (forall₂_keptAt _ _).imp
    rintro position hit ⟨entry, listed, found⟩
    exact shows_entryHit listed found
  refine ⟨⟨entries, groups, ascending, apart, fun group member => (within group member).1, ?_,
    shown⟩, finished.hits_sorted⟩
  -- As many mentions as hits, each of them a use and none twice, so they are all uses.
  obtain ⟨mentions, distinct, exactly, shownAll⟩ := tally_finished indexed finished
  simp only [true_and] at exactly
  have once : (inTurn entries groups).Nodup :=
    nodup_inTurn ascending apart fun group member => (within group member).1
  have uses : inTurn entries groups ⊆ mentions := by
    intro m member
    obtain ⟨hit, _, shows_⟩ := exists_of_forall₂ shown m member
    exact (exactly m).mpr ⟨_, _, _, shows_.use⟩
  have all : (inTurn entries groups).Perm mentions := by
    apply (List.subperm_of_subset once uses).perm_of_length_le
    rw [shown.length_eq, shownAll.length_eq]
  intro m
  rw [all.mem_iff, exactly]

end Groups

theorem abort_of_check {graph : CallGraph} {config : LinkConfig} {outcome : Outcome} {first : Hit}
    {rest : List Hit} (checked : graph.check config = .ok outcome)
    (hits : outcome.hits = first :: rest) :
    ∃ abort, graph.enforce config = .error (.closed abort) ∧
      abort.message = first.text ++ othersText rest.length := by
  have some : outcome.hits ≠ [] := by
    rw [hits]
    exact List.cons_ne_nil first rest
  refine ⟨⟨first :: rest⟩, ?_, Abort.message_cons first rest⟩
  rw [enforce_of_check checked, if_neg some, hits]

theorem check_lists_in_order {graph : CallGraph} {config : LinkConfig} {index : Index}
    (indexed : graph.index = .ok index) (checking : config.checkFeatures = true) :
    ∃ outcome, graph.check config = .ok outcome ∧ graph.InOrder config outcome.hits ∧
      ∀ first rest, outcome.hits = first :: rest →
        (∃ abort, graph.enforce config = .error (.closed abort) ∧
          abort.message = first.text ++ othersText rest.length) ∧
        ∀ hit ∈ outcome.hits, first.trail.length ≤ hit.trail.length := by
  have checked := check_of_index indexed checking
  have inOrder : graph.InOrder config (graph.walk config index).outcome.hits :=
    inOrder_finished indexed (Walk.finished_walk indexed)
  refine ⟨_, checked, inOrder, ?_⟩
  intro first rest hits
  have sorted := inOrder.trails
  rw [hits, List.pairwise_cons] at sorted
  refine ⟨abort_of_check checked hits, ?_⟩
  rw [hits, List.forall_mem_cons]
  exact ⟨Nat.le_refl _, sorted.1⟩

/-- Two ways in, of which the later leads to a marker sooner, and a marker listed between them; the
functions are listed deepest first. -/
def rivals : CallGraph where
  schemaVersion := schema
  entryPoints := ["main", "nbridge_unsupported_threads", "test"]
  functions := [
    ⟨"step", [⟨"nbridge_caps::unsupported::threads", none, none⟩]⟩,
    ⟨"test", [⟨"nbridge_unsupported_continuations", none, none⟩, ⟨"step", none, none⟩,
      ⟨"nbridge_unsupported_threads", none, some ⟨.threads, false⟩⟩]⟩,
    ⟨"main", [⟨"init", none, none⟩]⟩,
    ⟨"init", [⟨"test", none, none⟩, ⟨"nbridge_unsupported_virtual_threads", none, none⟩]⟩]

theorem check_lists_in_order_rivals :
    (∃ index, rivals.index = .ok index) ∧ LinkConfig.standard.checkFeatures = true ∧
      ∃ outcome first rest, rivals.check .standard = .ok outcome ∧
        rivals.InOrder .standard outcome.hits ∧ outcome.hits = first :: rest ∧
        (∃ abort, rivals.enforce .standard = .error (.closed abort) ∧
          abort.message = first.text ++ othersText rest.length) ∧
        ∀ hit ∈ outcome.hits, first.trail.length ≤ hit.trail.length := by
  have indexed : rivals.index = .ok (rivals.functions.map CallGraph.indexed) := by
    decide +kernel
  have checking : LinkConfig.standard.checkFeatures = true := rfl
  obtain ⟨outcome, checked, inOrder, shown⟩ := check_lists_in_order indexed checking
  have some : outcome.hits ≠ [] := by
    rw [check_of_index indexed checking, Except.ok.injEq] at checked
    rw [← checked]
    decide +kernel
  obtain ⟨first, rest, hits⟩ := List.exists_cons_of_ne_nil some
  exact ⟨⟨_, indexed⟩, checking, outcome, first, rest, checked, inOrder, hits,
    shown first rest hits⟩

example : (rivals.walk .standard (rivals.functions.map indexed)).hits.map Hit.trail =
    [["nbridge_unsupported_threads"], ["test", "nbridge_unsupported_continuations"],
      ["test", "nbridge_unsupported_threads"],
      ["main", "init", "nbridge_unsupported_virtual_threads"],
      ["test", "step", "nbridge_caps::unsupported::threads"]] := by
  decide +kernel

end CallGraph

end LinkGate
