import LinkGate.Gate.Reach
import LinkGate.Gate.Walk
import Mathlib.Data.List.Forall2
import Mathlib.Data.List.Nodup

/-!
# What an index says about its graph

An index that is built holds each function of the graph once, under its name.  Looking a name up
therefore finds the one function of that name, and a call of an indexed function is a call of the
graph.
-/

set_option autoImplicit false

namespace LinkGate.CallGraph

def indexed (f : FunctionNode) : String × FunctionNode :=
  (f.name, f)

theorem lookup_indexed_isSome (functions : List FunctionNode) (name : String) :
    (List.lookup name (functions.map indexed)).isSome = true ↔
      name ∈ functions.map FunctionNode.name := by
  rw [List.lookup_isSome_iff, List.mem_map]
  constructor
  · rintro ⟨entry, member, same⟩
    obtain ⟨f, listed, rfl⟩ := List.mem_map.mp member
    exact ⟨f, listed, (beq_iff_eq.mp same).symm⟩
  · rintro ⟨f, listed, rfl⟩
    exact ⟨indexed f, List.mem_map_of_mem listed, beq_iff_eq.mpr rfl⟩

theorem lookup_indexed {functions : List FunctionNode}
    (distinct : (functions.map FunctionNode.name).Nodup) {f : FunctionNode}
    (member : f ∈ functions) : List.lookup f.name (functions.map indexed) = some f := by
  induction functions with
  | nil => simp at member
  | cons g rest ih =>
    rw [List.map_cons, List.nodup_cons] at distinct
    rw [List.map_cons, indexed]
    rcases List.mem_cons.mp member with rfl | later
    · exact List.lookup_cons_self
    · have other : f.name ≠ g.name := by
        intro same
        exact distinct.1 (same ▸ List.mem_map_of_mem later)
      rw [List.lookup_cons, beq_false_of_ne other]
      exact ih distinct.2 later

/-- `before` are the functions that were added already. -/
theorem indexFrom_ok (before : List FunctionNode) {functions : List FunctionNode}
    {position : Nat} {index : Index}
    (distinct : (before.map FunctionNode.name).Nodup)
    (success : indexFrom position functions (before.map indexed) = .ok index) :
    index = (before ++ functions).map indexed ∧
      ((before ++ functions).map FunctionNode.name).Nodup := by
  induction functions generalizing before position with
  | nil =>
    simp only [indexFrom, Except.ok.injEq] at success
    subst index
    simpa using distinct
  | cons f rest ih =>
    rw [indexFrom] at success
    split at success
    · cases success
    · split at success
      · cases success
      · rename_i fresh
        have absent : f.name ∉ before.map FunctionNode.name := by
          intro member
          exact fresh ((lookup_indexed_isSome before f.name).mpr member)
        have grown : before.map indexed ++ [(f.name, f)] = (before ++ [f]).map indexed := by
          simp [indexed]
        have stillDistinct : ((before ++ [f]).map FunctionNode.name).Nodup := by
          rw [List.map_append, List.nodup_append]
          refine ⟨distinct, by simp, ?_⟩
          rintro name member other same rfl
          simp only [List.map_cons, List.map_nil, List.mem_singleton] at same
          exact absent (same ▸ member)
        rw [grown] at success
        have result := ih (before ++ [f]) stillDistinct success
        simpa using result

theorem indexFrom_eq_ok (before : List FunctionNode) {functions : List FunctionNode}
    (position : Nat) (distinct : ((before ++ functions).map FunctionNode.name).Nodup)
    (named : ∀ f ∈ functions, trim f.name ≠ "") :
    indexFrom position functions (before.map indexed) =
      .ok ((before ++ functions).map indexed) := by
  induction functions generalizing before position with
  | nil => rw [indexFrom, List.append_nil]
  | cons f rest ih =>
    rw [List.forall_mem_cons] at named
    have fresh : ¬(List.lookup f.name (before.map indexed)).isSome = true := by
      rw [lookup_indexed_isSome]
      rw [List.map_append, List.nodup_append] at distinct
      intro member
      exact distinct.2.2 _ member _ (List.mem_map_of_mem List.mem_cons_self) rfl
    have shifted : before ++ f :: rest = before ++ [f] ++ rest := List.append_cons before f rest
    have grown : before.map indexed ++ [(f.name, f)] = (before ++ [f]).map indexed := by
      simp [indexed]
    rw [shifted] at distinct
    rw [indexFrom, if_neg named.1, if_neg fresh, grown, ih _ _ distinct named.2, shifted]

theorem named_of_indexFrom {functions : List FunctionNode} {position : Nat}
    {before index : Index} (success : indexFrom position functions before = .ok index) :
    ∀ f ∈ functions, trim f.name ≠ "" := by
  induction functions generalizing before position with
  | nil => simp
  | cons f rest ih =>
    rw [indexFrom] at success
    split at success
    · cases success
    · rename_i named
      split at success
      · cases success
      · exact List.forall_mem_cons.mpr ⟨named, ih success⟩

/-- An index can be built. -/
def Valid (graph : CallGraph) : Prop :=
  ∃ index, graph.index = .ok index

/-- No function has a blank name, and no two have the same. -/
def WellNamed (graph : CallGraph) : Prop :=
  (graph.functions.map FunctionNode.name).Nodup ∧
    ∀ name ∈ graph.functions.map FunctionNode.name, trim name ≠ ""

theorem valid_iff {graph : CallGraph} : graph.Valid ↔ graph.WellNamed := by
  rw [Valid, WellNamed, List.forall_mem_map]
  constructor
  · rintro ⟨index, success⟩
    exact ⟨(indexFrom_ok [] List.nodup_nil success).2, named_of_indexFrom success⟩
  · rintro ⟨distinct, named⟩
    exact ⟨_, indexFrom_eq_ok [] 0 distinct named⟩

/-- Whether a graph is valid is seen from the names of its functions, in any order. -/
theorem valid_congr {graph twin : CallGraph}
    (names : (graph.functions.map FunctionNode.name).Perm
      (twin.functions.map FunctionNode.name)) : graph.Valid ↔ twin.Valid := by
  rw [valid_iff, valid_iff, WellNamed, WellNamed, names.nodup_iff]
  simp only [names.mem_iff]

theorem names_paired {functions twins : List FunctionNode} {R : FunctionNode → FunctionNode → Prop}
    (paired : List.Forall₂ (fun f g => g.name = f.name ∧ R f g) functions twins) :
    twins.map FunctionNode.name = functions.map FunctionNode.name := by
  induction paired with
  | nil => rfl
  | cons same _ ih => rw [List.map_cons, List.map_cons, same.1, ih]

section Indexed
variable {graph : CallGraph} {index : Index}

theorem index_eq_map (success : graph.index = .ok index) :
    index = graph.functions.map indexed :=
  (indexFrom_ok [] List.nodup_nil success).1

theorem names_nodup (success : graph.index = .ok index) :
    (graph.functions.map FunctionNode.name).Nodup :=
  (indexFrom_ok [] List.nodup_nil success).2

theorem function_unique (success : graph.index = .ok index) {i j : Nat} {f g : FunctionNode}
    (first : graph.functions[i]? = some f) (second : graph.functions[j]? = some g)
    (same : f.name = g.name) : i = j := by
  have inRange : i < (graph.functions.map FunctionNode.name).length := by
    rw [List.length_map]
    exact (List.getElem?_eq_some_iff.mp first).1
  apply (List.getElem?_inj inRange (names_nodup success)).mp
  rw [List.getElem?_map, List.getElem?_map, first, second]
  simp [same]

theorem index_calls_eq (success : graph.index = .ok index) {f : FunctionNode}
    (member : f ∈ graph.functions) : index.calls f.name = f.calls := by
  have found : index.lookup f.name = some f := by
    rw [index_eq_map success]
    exact lookup_indexed (names_nodup success) member
  rw [Index.calls, found]

theorem index_calls_undefined (success : graph.index = .ok index) {name : String}
    (undefined : name ∉ graph.functions.map FunctionNode.name) : index.calls name = [] := by
  have missing : index.lookup name = none := by
    rw [← Option.not_isSome_iff_eq_none, index_eq_map success, lookup_indexed_isSome]
    exact undefined
  rw [Index.calls, missing]

theorem calls_iff (success : graph.index = .ok index) {config : LinkConfig}
    {caller target : String} :
    graph.Calls config caller target ↔
      ∃ call ∈ index.calls caller, call.Live config ∧ call.target = target := by
  constructor
  · rintro ⟨f, member, rfl, call⟩
    rw [index_calls_eq success member]
    exact call
  · rintro ⟨call, made, live⟩
    by_cases known : caller ∈ graph.functions.map FunctionNode.name
    · obtain ⟨f, member, rfl⟩ := List.mem_map.mp known
      rw [index_calls_eq success member] at made
      exact ⟨f, member, rfl, call, made, live⟩
    · rw [index_calls_undefined success known] at made
      simp at made

end Indexed

end LinkGate.CallGraph
