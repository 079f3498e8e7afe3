import LinkGate.Proofs.Gate.Walk
import LinkGate.Proofs.Lookup
import Mathlib.Data.List.TakeWhile

/-!
# Graphs that are refused

A graph is refused when a function has a blank name or the name of one before it, whether or not
the graph would have been walked.  The first such function decides the error.  A graph that is not
refused has an index that finds each function under its name and nothing else.
-/

set_option autoImplicit false

namespace LinkGate

/-! ## Blank names -/

/-- There is nothing but white space in it. -/
def Blank (s : String) : Prop :=
  ∀ c ∈ s.toList, isBlank c = true

theorem trim_eq_empty_iff {s : String} : trim s = "" ↔ Blank s := by
  have whole : trim s = "" ↔ trimEnd (s.toList.dropWhile isBlank) = [] := by
    rw [trim, ← String.toList_inj, String.toList_ofList]
    rfl
  rw [whole, trimEnd, List.reverse_eq_nil_iff, List.dropWhile_eq_nil_iff, Blank]
  constructor
  · intro blank c member
    rw [← List.takeWhile_append_dropWhile (p := isBlank) (l := s.toList), List.mem_append] at member
    rcases member with front | back
    · exact List.mem_takeWhile_imp front
    · exact blank c (List.mem_reverse.mpr back)
  · intro blank c member
    exact blank c ((List.dropWhile_sublist isBlank).mem (List.mem_reverse.mp member))

namespace CallGraph

/-! ## What is wrong with a function -/

/-- What is wrong with the function at a position, given those before it. -/
inductive Defect (functions : List FunctionNode) (position : Nat) : GraphError → Prop where
  | nameless {f : FunctionNode} (here : functions[position]? = some f) (blank : Blank f.name) :
    Defect functions position (.emptyName position)
  | repeated {f g : FunctionNode} {earlier : Nat} (here : functions[position]? = some f)
    (before : earlier < position) (there : functions[earlier]? = some g)
    (same : g.name = f.name) : Defect functions position (.duplicateFunction f.name)

def SoundBefore (functions : List FunctionNode) (position : Nat) : Prop :=
  ∀ earlier < position, ∀ error, ¬Defect functions earlier error

def FirstDefect (functions : List FunctionNode) (error : GraphError) : Prop :=
  ∃ position, Defect functions position error ∧ SoundBefore functions position

/-- A function has a blank name, or two have the same. -/
def IllNamed (graph : CallGraph) : Prop :=
  (∃ f ∈ graph.functions, Blank f.name) ∨
    ∃ (i j : Nat) (f g : FunctionNode), i ≠ j ∧ graph.functions[i]? = some f ∧
      graph.functions[j]? = some g ∧ f.name = g.name

section
variable {functions : List FunctionNode} {error other : GraphError}

/-- A blank name that is repeated was a defect before. -/
theorem FirstDefect.unique (first : FirstDefect functions error)
    (second : FirstDefect functions other) : error = other := by
  obtain ⟨p, defect, sound⟩ := first
  obtain ⟨q, defect', sound'⟩ := second
  have same : p = q := by
    rcases Nat.lt_trichotomy p q with less | same | less
    · exact absurd defect (sound' p less error)
    · exact same
    · exact absurd defect' (sound q less other)
  subst same
  cases defect with
  | nameless here blank =>
    cases defect' with
    | nameless => rfl
    | repeated here' before there same =>
      cases here.symm.trans here'
      exact absurd (.nameless there (same ▸ blank)) (sound _ before _)
  | repeated here before there same =>
    cases defect' with
    | nameless here' blank =>
      cases here.symm.trans here'
      exact absurd (.nameless there (same ▸ blank)) (sound _ before _)
    | repeated here' =>
      cases here.symm.trans here'
      rfl

theorem getElem?_next (before rest : List FunctionNode) (f : FunctionNode) :
    (before ++ f :: rest)[before.length]? = some f := by
  rw [List.getElem?_append_right (Nat.le_refl _), Nat.sub_self, List.getElem?_cons_zero]

theorem SoundBefore.next {before rest : List FunctionNode} {f : FunctionNode}
    (sound : SoundBefore (before ++ f :: rest) before.length) (named : ¬Blank f.name)
    (fresh : f.name ∉ before.map FunctionNode.name) :
    SoundBefore (before ++ f :: rest) (before ++ [f]).length := by
  intro earlier inside error defect
  rw [List.length_append, List.length_singleton] at inside
  rcases Nat.lt_succ_iff_lt_or_eq.mp inside with less | rfl
  · exact sound earlier less error defect
  have here := getElem?_next before rest f
  cases defect with
  | nameless here' blank =>
    cases here.symm.trans here'
    exact named blank
  | repeated here' less there same =>
    cases here.symm.trans here'
    rw [List.getElem?_append_left less] at there
    exact fresh (same ▸ List.mem_map_of_mem (List.mem_of_getElem? there))

/-- `before` are the functions that were added already, none of which has a defect. -/
theorem firstDefect_of_indexFrom (before : List FunctionNode)
    (sound : SoundBefore (before ++ functions) before.length)
    (refused : indexFrom before.length functions (before.map indexed) = .error error) :
    FirstDefect (before ++ functions) error := by
  induction functions generalizing before with
  | nil => cases refused
  | cons f rest ih =>
    have here := getElem?_next before rest f
    rw [indexFrom] at refused
    split at refused
    case isTrue empty =>
      cases refused
      exact ⟨_, .nameless here (trim_eq_empty_iff.mp empty), sound⟩
    case isFalse named =>
      rw [trim_eq_empty_iff] at named
      split at refused
      case isTrue known =>
        cases refused
        rw [lookup_indexed_isSome] at known
        obtain ⟨g, member, same⟩ := List.mem_map.mp known
        obtain ⟨earlier, inside, found⟩ := List.mem_iff_getElem.mp member
        have there : (before ++ f :: rest)[earlier]? = some g := by
          rw [List.getElem?_append_left inside, List.getElem?_eq_getElem inside, found]
        exact ⟨_, .repeated here inside there same, sound⟩
      case isFalse fresh =>
        rw [lookup_indexed_isSome] at fresh
        have longer := sound.next named fresh
        have shifted : before ++ f :: rest = before ++ [f] ++ rest := List.append_cons before f rest
        have grown : before.map indexed ++ [(f.name, f)] = (before ++ [f]).map indexed := by
          simp [indexed]
        have counted : before.length + 1 = (before ++ [f]).length := by simp
        rw [grown, counted] at refused
        rw [shifted] at longer ⊢
        exact ih (before ++ [f]) longer refused

end

section
variable {graph : CallGraph}

theorem illNamed_iff :
    graph.IllNamed ↔ ∃ position error, Defect graph.functions position error := by
  constructor
  · rintro (⟨f, member, blank⟩ | ⟨i, j, f, g, apart, first, second, same⟩)
    · obtain ⟨position, here⟩ := List.mem_iff_getElem?.mp member
      exact ⟨position, _, .nameless here blank⟩
    · rcases Nat.lt_or_gt_of_ne apart with less | less
      · exact ⟨j, _, .repeated second less first same⟩
      · exact ⟨i, _, .repeated first less second same.symm⟩
  · rintro ⟨position, error, defect⟩
    cases defect with
    | @nameless f here blank => exact .inl ⟨f, List.mem_of_getElem? here, blank⟩
    | @repeated f g earlier here before there same =>
      exact .inr ⟨earlier, position, g, f, Nat.ne_of_lt before, there, here, same⟩

theorem no_defect_of_index {index : Index} (success : graph.index = .ok index) (position : Nat)
    (error : GraphError) : ¬Defect graph.functions position error := by
  intro defect
  cases defect with
  | nameless here blank =>
    exact named_of_indexFrom success _ (List.mem_of_getElem? here) (trim_eq_empty_iff.mpr blank)
  | repeated here before there same =>
    exact Nat.ne_of_lt before (function_unique success there here same)

theorem index_eq_error_iff {error : GraphError} :
    graph.index = .error error ↔ FirstDefect graph.functions error := by
  have sound {found : GraphError} (refused : graph.index = .error found) :
      FirstDefect graph.functions found :=
    firstDefect_of_indexFrom [] (fun earlier none => absurd none (Nat.not_lt_zero earlier)) refused
  refine ⟨sound, fun first => ?_⟩
  cases result : graph.index with
  | ok index =>
    obtain ⟨position, defect, -⟩ := first
    exact absurd defect (no_defect_of_index result position error)
  | error found => rw [(sound result).unique first]

theorem exists_index_error_iff : (∃ error, graph.index = .error error) ↔ graph.IllNamed := by
  rw [illNamed_iff]
  constructor
  · rintro ⟨error, refused⟩
    obtain ⟨position, defect, -⟩ := index_eq_error_iff.mp refused
    exact ⟨position, error, defect⟩
  · rintro ⟨position, error, defect⟩
    cases result : graph.index with
    | ok index => exact absurd defect (no_defect_of_index result position error)
    | error found => exact ⟨found, rfl⟩

/-! ## The check and the build -/

theorem check_eq_error_iff (config : LinkConfig) {error : GraphError} :
    graph.check config = .error error ↔ graph.index = .error error := by
  rw [check]
  cases graph.index with
  | error found => simp
  | ok index => cases config.checkFeatures <;> simp

theorem enforce_eq_invalid_iff (config : LinkConfig) {error : GraphError} :
    graph.enforce config = .error (.invalid error) ↔ graph.index = .error error := by
  rw [← check_eq_error_iff config]
  cases checked : graph.check config with
  | error found => simp [enforce, checked]
  | ok outcome =>
    rw [enforce_of_check checked]
    split <;> simp

end

/-- Each name of the graph stands for the one function that has it. -/
structure IndexedBy (graph : CallGraph) (index : Index) : Prop where
  names : index.map Prod.fst = graph.functions.map FunctionNode.name
  nodes : index.map Prod.snd = graph.functions
  unique : ∀ (i j : Nat) (f g : FunctionNode), graph.functions[i]? = some f →
    graph.functions[j]? = some g → f.name = g.name → i = j
  found : ∀ name f, index.lookup name = some f ↔ f ∈ graph.functions ∧ f.name = name
  missing : ∀ name, index.lookup name = none ↔ ∀ f ∈ graph.functions, f.name ≠ name

theorem indexedBy_of_index {graph : CallGraph} {index : Index}
    (success : graph.index = .ok index) : graph.IndexedBy index := by
  have whole := index_eq_map success
  have names : index.map Prod.fst = graph.functions.map FunctionNode.name := by
    rw [whole, List.map_map]
    rfl
  refine ⟨names, ?_, fun i j f g first second => function_unique success first second, ?_, ?_⟩
  · rw [whole, List.map_map]
    exact List.map_id _
  · intro name f
    constructor
    · intro found
      have member := mem_of_lookup found
      rw [whole] at member
      obtain ⟨g, listed, same⟩ := List.mem_map.mp member
      cases same
      exact ⟨listed, rfl⟩
    · rintro ⟨listed, rfl⟩
      rw [whole]
      exact lookup_indexed (names_nodup success) listed
  · intro name
    rw [lookup_eq_none_iff, names]
    simp only [List.mem_map, not_exists, not_and]

/-- A graph is refused for its first defect, by the check and by the build, walked or not.  One
that is not refused has an index. -/
theorem refused_for_first_defect (graph : CallGraph) (config : LinkConfig) :
    ((∃ error, graph.check config = .error error) ↔ graph.IllNamed) ∧
      ((∃ error, graph.enforce config = .error (.invalid error)) ↔ graph.IllNamed) ∧
      (∀ error, (graph.check config = .error error ↔ FirstDefect graph.functions error) ∧
        (graph.enforce config = .error (.invalid error) ↔ FirstDefect graph.functions error)) ∧
      ∀ outcome, graph.check config = .ok outcome →
        ∃ index, graph.index = .ok index ∧ graph.IndexedBy index := by
  simp only [check_eq_error_iff, enforce_eq_invalid_iff]
  refine ⟨exists_index_error_iff, exists_index_error_iff,
    fun error => ⟨index_eq_error_iff, index_eq_error_iff⟩, fun outcome checked => ?_⟩
  cases result : graph.index with
  | error error =>
    rw [(check_eq_error_iff config).mpr result] at checked
    cases checked
  | ok index => exact ⟨index, rfl, indexedBy_of_index result⟩

/-- Names that differ in white space are different; a blank name behind a repeated one is not
reported. -/
example (config : LinkConfig) :
    CallGraph.check ⟨schema, ["a"], [⟨"a", []⟩, ⟨" a", []⟩, ⟨"a", []⟩, ⟨"\u00a0 ", []⟩]⟩ config =
      .error (.duplicateFunction "a") := by
  rw [check_eq_error_iff]
  decide +kernel

end CallGraph

end LinkGate
