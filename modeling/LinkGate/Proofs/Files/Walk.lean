import LinkGate.Proofs.Files.Listing
import Mathlib.Data.List.Lex
import Mathlib.Data.List.Perm.Basic
import Mathlib.Tactic.Choose

/-!
# Walks through directories

A walk visits everything at and below a path: a directory first, then what is in it, entry by entry
in the order of their names (`Walk`).  The files that it comes by ascend in the order of paths,
whatever bytes are in their names, so a listing has them as they are visited.
-/

set_option autoImplicit false

namespace LinkGate

namespace FileTree

/-- What is visited, first to last, on a walk through a tree that stands at `base`.  Of each entry
of a directory `inside` has what is visited in it. -/
inductive Walk : Path → FileTree → List (Path × Kind) → Prop where
  | file (base : Path) (contents : Bytes) : Walk base (.file contents) [(base, .file contents)]
  | directory {base : Path} {entries siblings : List (Bytes × FileTree)}
    {inside : Bytes × FileTree → List (Path × Kind)} (permuted : siblings.Perm entries)
    (ordered : siblings.Pairwise fun a b => a.1 < b.1)
    (each : ∀ entry ∈ siblings, Walk (base.join ⟨entry.1⟩) entry.2 (inside entry)) :
    Walk base (.directory entries) ((base, .directory) :: siblings.flatMap inside)

/-- The paths of the files that were visited, directories left out. -/
def filesOf (visited : List (Path × Kind)) : List Path :=
  visited.filterMap fun
    | (path, .file _) => some path
    | (_, .directory) => none

/-- The paths of the directories that were visited. -/
def directoriesOf (visited : List (Path × Kind)) : List Path :=
  (visited.filter (·.2 = .directory)).map (·.1)

theorem filesOf_directory (base : Path) (siblings : List (Bytes × FileTree))
    (inside : Bytes × FileTree → List (Path × Kind)) :
    filesOf ((base, .directory) :: siblings.flatMap inside) =
      siblings.flatMap fun entry => filesOf (inside entry) := by
  rw [filesOf, List.filterMap_cons_none rfl, List.filterMap_flatMap]
  rfl

theorem pairwise_sortedNames {α : Type} (entries : List (Bytes × α)) :
    (entries.mergeSort fun a b => (Path.compareNames a.1 b.1).isLE).Pairwise
      fun a b => a.1 ≤ b.1 := by
  refine (List.pairwise_mergeSort ?_ ?_ entries).imp Path.isLE_compareNames_iff.mp
  · intro a b c one two
    rw [Path.isLE_compareNames_iff] at one two ⊢
    exact List.le_trans one two
  · intro a b
    rw [Bool.or_eq_true, Path.isLE_compareNames_iff, Path.isLE_compareNames_iff]
    exact List.le_total a.1 b.1

theorem exists_siblings {entries : List (Bytes × FileTree)}
    (distinct : (entries.map (·.1)).Nodup) :
    ∃ siblings : List (Bytes × FileTree), siblings.Perm entries ∧
      siblings.Pairwise fun a b => a.1 < b.1 := by
  have permuted := List.mergeSort_perm entries fun a b => (Path.compareNames a.1 b.1).isLE
  have apart := List.pairwise_map.mp ((permuted.map (·.1)).nodup_iff.mpr distinct)
  exact ⟨_, permuted, (pairwise_sortedNames entries).imp₂ (fun _ _ => Std.lt_of_le_of_ne) apart⟩

/-- Sorting by names makes the same of entries, whatever order they are given in. -/
theorem mergeSort_names {α : Type} {entries siblings : List (Bytes × α)}
    (permuted : entries.Perm siblings) (ordered : siblings.Pairwise fun a b => a.1 < b.1) :
    (entries.mergeSort fun a b => (Path.compareNames a.1 b.1).isLE) = siblings := by
  have same := (List.mergeSort_perm entries
    fun a b => (Path.compareNames a.1 b.1).isLE).trans permuted
  have distinct : (siblings.map (·.1)).Nodup :=
    List.pairwise_map.mpr (ordered.imp fun smaller => Std.ne_of_lt smaller)
  refine same.eq_of_pairwise ?_ (pairwise_sortedNames entries) (ordered.imp Std.le_of_lt)
  intro a b memA memB one two
  exact List.inj_on_of_nodup_map distinct (same.mem_iff.mp memA) memB (List.le_antisymm one two)

/-- Through every proper tree there is a walk. -/
theorem Proper.exists_walk {tree : FileTree} (proper : tree.Proper) (base : Path) :
    ∃ visited, Walk base tree visited := by
  induction proper generalizing base with
  | file contents => exact ⟨_, .file base contents⟩
  | @directory entries distinct names inner ih =>
    obtain ⟨siblings, permuted, ordered⟩ := exists_siblings distinct
    have walks : ∀ entry, ∃ visited, entry ∈ entries →
        Walk (base.join ⟨entry.1⟩) entry.2 visited := by
      intro entry
      by_cases mem : entry ∈ entries
      · obtain ⟨visited, walk⟩ := ih entry mem (base.join ⟨entry.1⟩)
        exact ⟨visited, fun _ => walk⟩
      · exact ⟨[], fun there => absurd there mem⟩
    choose inside walk using walks
    exact ⟨_, .directory permuted ordered fun entry mem => walk entry (permuted.mem_iff.mp mem)⟩

namespace Walk
variable {base : Path} {tree : FileTree} {visited : List (Path × Kind)}

/-- There is one walk only: the siblings have one order. -/
theorem map_eq_entriesBelow (walk : Walk base tree visited) :
    visited.map (fun entry => (entry.1, decide (entry.2 = .directory))) =
      tree.entriesBelow base := by
  induction walk with
  | file => rw [FileTree.entriesBelow]; rfl
  | @directory base entries siblings inside permuted ordered each ih =>
    let listing (entry : Bytes × FileTree) : Bytes × List (Path × Bool) :=
      (entry.1, entry.2.entriesBelow (base.join ⟨entry.1⟩))
    have ascending : (siblings.map listing).Pairwise fun a b => a.1 < b.1 :=
      List.pairwise_map.mpr ordered
    have sorted := mergeSort_names (permuted.symm.map listing) ascending
    rw [FileTree.entriesBelow, listings_eq_map, sorted, List.flatMap_map, List.map_cons,
      List.map_flatMap, List.flatMap_congr ih]
    rfl

theorem filesOf_eq (walk : Walk base tree visited) : filesOf visited = tree.filesBelow base := by
  rw [FileTree.filesBelow, ← walk.map_eq_entriesBelow, List.filter_map, List.map_map, filesOf,
    ← List.filterMap_eq_map, List.filterMap_filter]
  congr 1
  funext entry
  cases entry with
  | mk path kind => cases kind <;> rfl

theorem directoriesOf_eq (walk : Walk base tree visited) :
    directoriesOf visited = tree.directoriesBelow base := by
  rw [FileTree.directoriesBelow, ← walk.map_eq_entriesBelow, directoriesOf, List.filter_map,
    List.map_map]
  rfl

/-- The files of a walk stand below the path that it began with. -/
theorem mem_filesOf (walk : Walk base tree visited) (proper : tree.Proper) {path : Path}
    (mem : path ∈ filesOf visited) :
    ∃ names : List Bytes, path.components = base.components ++ names.map Path.Component.name := by
  obtain ⟨names, contents, rfl, held⟩ :=
    (mem_filesBelow proper base path).mp (walk.filesOf_eq ▸ mem)
  exact ⟨names, Path.components_below (proper.names held) base⟩

/-- Two files of one directory ascend if they are found in one entry and ascend there, or the entry
of the first has the smaller name. -/
theorem ascending (walk : Walk base tree visited) (proper : tree.Proper) :
    (filesOf visited).Pairwise Path.Before := by
  induction walk with
  | file base => exact List.pairwise_singleton Path.Before base
  | @directory base entries siblings inside permuted ordered each ih =>
    cases proper with
    | directory distinct names inner =>
      have listed : ∀ entry ∈ siblings, entry ∈ entries := fun _ => permuted.mem_iff.mp
      rw [filesOf_directory, List.pairwise_flatMap]
      constructor
      · intro entry mem
        exact ih entry mem (inner entry (listed entry mem))
      · refine ordered.imp_of_mem fun {one two} memOne memTwo smaller => ?_
        intro a memA b memB
        obtain ⟨moreA, pathA⟩ := (each one memOne).mem_filesOf (inner one (listed one memOne)) memA
        obtain ⟨moreB, pathB⟩ := (each two memTwo).mem_filesOf (inner two (listed two memTwo)) memB
        rw [Path.components_join (names one (listed one memOne)), List.append_assoc] at pathA
        rw [Path.components_join (names two (listed two memTwo)), List.append_assoc] at pathB
        rw [Path.Before, pathA, pathB]
        have first : Path.Component.Before (.name one.1) (.name two.1) := smaller
        exact List.Lex.append_left _ (.rel first) base.components

end Walk

end FileTree

namespace FileSystem
open FileTree (filesOf directoriesOf)

/-- A listing has every file below its base once, with paths that ascend, and has them as any walk
comes by them: sorting moves nothing.  A walk that comes by a directory with too long a path ends at
the first one. -/
theorem list_as_walked {files : FileSystem} {base : Path} {tree : FileTree}
    (proper : files.root.Proper) (found : files.find base = .ok tree) :
    (∃ visited, FileTree.Walk base tree visited) ∧
      ∀ visited, FileTree.Walk base tree visited →
        ((∀ path ∈ directoriesOf visited, path.bytes.length ≤ longestPath) →
          files.list base = .ok (filesOf visited)) ∧
        (∀ before path behind, directoriesOf visited = before ++ path :: behind →
          (∀ earlier ∈ before, earlier.bytes.length ≤ longestPath) →
          longestPath < path.bytes.length → files.list base = .error (path, .nameTooLong)) ∧
        Path.sort (filesOf visited) = filesOf visited ∧
        (filesOf visited).Pairwise Path.Before ∧
        (filesOf visited).Nodup ∧
        ∀ path, path ∈ filesOf visited ↔
          ∃ names, path = base.below names ∧ files.IsFile (files.target base ++ names) := by
  obtain ⟨-, there⟩ := find_eq_ok found
  have inner : tree.Proper := (proper.of_find? there).2
  refine ⟨inner.exists_walk base, fun visited walk => ?_⟩
  have ascending := walk.ascending inner
  have sorted := Path.sort_of_ascending ascending
  refine ⟨fun short => ?_, fun before path behind cut short long => ?_, sorted, ascending, ?_, ?_⟩
  · have none :
        (directoriesOf visited).find? (fun path => longestPath < path.bytes.length) = none :=
      List.find?_eq_none.mpr fun path mem => by simpa using short path mem
    rw [walk.directoriesOf_eq] at none
    rw [walk.filesOf_eq] at sorted ⊢
    simp only [list, found, none, sorted]
  · have first : (directoriesOf visited).find? (fun path => longestPath < path.bytes.length) =
        some path := by
      refine List.find?_eq_some_iff_append.mpr ⟨by simpa using long, before, behind, cut, ?_⟩
      exact fun earlier mem => by simpa using short earlier mem
    rw [walk.directoriesOf_eq] at first
    simp only [list, found, first]
  · exact ascending.imp fun before same => before.components_ne (congrArg Path.components same)
  · intro path
    rw [walk.filesOf_eq, mem_filesBelow_iff proper there]

/-- The entries of a directory `a`, which is not sorted. -/
def pair : List (Bytes × FileTree) :=
  [(Utf8.encode "c", .file [2]), (Utf8.encode "b", .file [3])]

/-- The directory `a`, and a name that goes on behind `a` with a byte below a slash. -/
def neighbours : List (Bytes × FileTree) :=
  [(Utf8.encode "a-b", .file [1]), (Utf8.encode "a", .directory pair)]

/-- What is visited in each of them, when they stand at `t`. -/
def visitedIn : List (Bytes × List (Path × Kind)) :=
  [(Utf8.encode "a-b", [(.ofText "t/a-b", .file [1])]),
    (Utf8.encode "a",
      [(.ofText "t/a", .directory), (.ofText "t/a/b", .file [3]), (.ofText "t/a/c", .file [2])])]

theorem list_as_walked_neighbours :
    let files : FileSystem := ⟨.directory [(Utf8.encode "t", .directory neighbours)], []⟩
    files.root.Proper ∧ files.find (.ofText "t") = .ok (.directory neighbours) ∧
      files.list (.ofText "t") =
        .ok [.ofText "t/a/b", .ofText "t/a/c", .ofText "t/a-b"] := by
  intro files
  have isName (name : Bytes) (fits : name ≠ [] ∧ name ≠ Path.dot ∧ name ≠ Path.dots ∧
      Path.separator ∉ name) : IsName name := ⟨fits.1, fits.2.1, fits.2.2.1, fits.2.2.2⟩
  have inner := (FileTree.proper_empty.setEntry (isName (Utf8.encode "c") (by decide))
    (.file [2])).setEntry (isName (Utf8.encode "b") (by decide)) (.file [3])
  have outer := (FileTree.proper_empty.setEntry (isName (Utf8.encode "a-b") (by decide))
    (.file [1])).setEntry (isName (Utf8.encode "a") (by decide)) inner
  have proper : files.root.Proper :=
    FileTree.proper_empty.setEntry (isName (Utf8.encode "t") (by decide)) outer
  have found : files.find (.ofText "t") = .ok (.directory neighbours) := by rfl
  have inside : FileTree.Walk (.ofText "t/a") (.directory pair)
      ((.ofText "t/a", .directory) :: pair.reverse.flatMap fun entry =>
        [((Path.ofText "t/a").join ⟨entry.1⟩, entry.2.kind)]) :=
    .directory pair.reverse_perm (by decide)
      (List.forall_mem_cons.mpr ⟨.file _ _, List.forall_mem_singleton.mpr (.file _ _)⟩)
  have walk : FileTree.Walk (.ofText "t") (.directory neighbours)
      ((.ofText "t", .directory) :: neighbours.reverse.flatMap fun entry =>
        (visitedIn.lookup entry.1).getD []) :=
    .directory neighbours.reverse_perm (by decide)
      (List.forall_mem_cons.mpr ⟨inside, List.forall_mem_singleton.mpr (.file _ _)⟩)
  exact ⟨proper, found, ((list_as_walked proper found).2 _ walk).1 (by decide)⟩

end FileSystem

end LinkGate
