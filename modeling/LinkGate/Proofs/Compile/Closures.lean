import LinkGate.Compile.Basic
import LinkGate.Proofs.Files.Order

/-!
# Compilers from functions

A function that produces paths becomes a compiler when its paths are arranged: sorted, those with
the same components in the order in which they were produced.  So the order of production shows only
in how a path is spelled.
-/

set_option autoImplicit false

namespace LinkGate

/-- The same paths, in order.  Those with the same components stand as they stood before. -/
structure Arranges (paths arranged : List Path) : Prop where
  permuted : arranged.Perm paths
  ordered : arranged.Pairwise Path.NotAfter
  stable : ∀ path ∈ paths,
    arranged.filter (fun other => other.components = path.components) =
      paths.filter fun other => other.components = path.components

theorem arranges_sort (paths : List Path) : Arranges paths (Path.sort paths) where
  permuted := List.mergeSort_perm paths Path.le
  ordered := (Path.sort_ordered paths).imp Path.le_iff.mp
  stable path _ := by
    apply filter_mergeSort Path.le_trans Path.le_total
    intro a b one two
    rw [decide_eq_true_eq] at one two
    exact Path.le_iff.mpr (.inl (one.trans two.symm))

namespace Arranges
variable {paths others arranged otherwise : List Path}

theorem unique (one : Arranges paths arranged) (two : Arranges paths otherwise) :
    otherwise = arranged := by
  apply eq_of_ordered Path.components (fun a b => Path.NotAfter.components_eq)
    (two.permuted.trans one.permuted.symm) two.ordered one.ordered
  intro path member
  have given := two.permuted.mem_iff.mp member
  rw [one.stable path given, two.stable path given]

/-- Paths that are the same but for their order and their spellings are the same but for their
spellings once they are arranged. -/
theorem components_eq (one : Arranges paths arranged) (two : Arranges others otherwise)
    (alike : (others.map Path.components).Perm (paths.map Path.components)) :
    otherwise.map Path.components = arranged.map Path.components := by
  have permuted : (otherwise.map Path.components).Perm (arranged.map Path.components) :=
    ((two.permuted.map Path.components).trans alike).trans (one.permuted.map Path.components).symm
  have ordered : (arranged.map Path.components).Pairwise
      fun a b => a = b ∨ List.Lex Path.Component.Before a b :=
    List.pairwise_map.mpr one.ordered
  refine permuted.eq_of_pairwise ?_ (List.pairwise_map.mpr two.ordered) ordered
  intro a b memA memB above below
  obtain ⟨pathA, -, rfl⟩ := List.mem_map.mp memA
  obtain ⟨pathB, -, rfl⟩ := List.mem_map.mp memB
  exact Path.NotAfter.components_eq above below

end Arranges

/-- A compiler from a function gives the errors of the function and arranges its paths.  The order
of paths is total and transitive, and equal in it are those with the same components. -/
theorem compileBy_arranges (produce : CompileInput → Except CompilerError (List Path))
    (input : CompileInput) :
    (∀ error, produce input = .error error → compileBy produce input = .error error) ∧
    (∀ paths, produce input = .ok paths → ∃ arranged, compileBy produce input = .ok arranged ∧
      Arranges paths arranged ∧ (∀ otherwise, Arranges paths otherwise → otherwise = arranged) ∧
      ∀ produceOther inputOther others, produceOther inputOther = .ok others →
        (others.map Path.components).Perm (paths.map Path.components) →
        ∃ otherwise, compileBy produceOther inputOther = .ok otherwise ∧
          otherwise.map Path.components = arranged.map Path.components) ∧
    (∀ a b : Path, a.NotAfter b ∨ b.NotAfter a) ∧
    (∀ a b c : Path, a.NotAfter b → b.NotAfter c → a.NotAfter c) ∧
    (∀ a b : Path, a.NotAfter b ∧ b.NotAfter a ↔ a.components = b.components) ∧
    ∀ front back : Bytes,
      Path.components ⟨front ++ Path.separator :: Path.separator :: back⟩ =
        Path.components ⟨front ++ Path.separator :: back⟩ ∧
      Path.components ⟨front ++ Path.separator :: (Path.dot ++ Path.separator :: back)⟩ =
        Path.components ⟨front ++ Path.separator :: back⟩ ∧
      (front ≠ [] → Path.components ⟨front ++ [Path.separator]⟩ = Path.components ⟨front⟩) := by
  refine ⟨?_, ?_, Path.notAfter_total, fun a b c => Path.NotAfter.trans, ?_, ?_⟩
  · intro error failed
    rw [compileBy, failed]
    rfl
  · intro paths produced
    have arranges := arranges_sort paths
    refine ⟨Path.sort paths, ?_, arranges, fun otherwise other => arranges.unique other, ?_⟩
    · rw [compileBy, produced]
      rfl
    · intro produceOther inputOther others producedOther alike
      refine ⟨Path.sort others, ?_, arranges.components_eq (arranges_sort others) alike⟩
      rw [compileBy, producedOther]
      rfl
  · intro a b
    exact ⟨fun both => both.1.components_eq both.2, fun same => ⟨.inl same, .inl same.symm⟩⟩
  · intro front back
    exact ⟨Path.components_slashes front back, Path.components_inner_dot front back,
      Path.components_last_slash⟩

/-- Three spellings of one path, a path whose bytes begin with those of the three, and the root. -/
def spelled : List Path :=
  [.ofText "a/b/", .ofText "a-b", .ofText "a//b", .ofText "/", .ofText "a/./b"]

theorem compileBy_arranges_spelled :
    let arranged :=
      [Path.ofText "/", .ofText "a/b/", .ofText "a//b", .ofText "a/./b", .ofText "a-b"]
    compileBy (fun _ => .ok spelled) (.source "") = .ok arranged ∧
      (spelled.reverse.map Path.components).Perm (spelled.map Path.components) ∧
      ∃ otherwise, compileBy (fun _ => .ok spelled.reverse) (.source "") = .ok otherwise ∧
        otherwise.map Path.components = arranged.map Path.components := by
  intro arranged
  have arranges : Arranges spelled arranged := ⟨by decide, by decide, by decide⟩
  have alike := spelled.reverse_perm.map Path.components
  obtain ⟨result, compiled, -, only, others⟩ :=
    (compileBy_arranges (fun _ => .ok spelled) (.source "")).2.1 spelled rfl
  obtain rfl := only arranged arranges
  exact ⟨compiled, alike, others (fun _ => .ok spelled.reverse) (.source "") _ rfl alike⟩

end LinkGate
