import LinkGate.Proofs.Files.Order
import LinkGate.Proofs.Files.System
import Mathlib.Data.List.Nodup

/-!
# Listing files

A listing of a proper tree has the path of every file in it, each once, in the order of the paths.
-/

set_option autoImplicit false

namespace LinkGate

namespace FileTree

theorem listings_eq_map (base : Path) (entries : List (Bytes × FileTree)) :
    listings base entries =
      entries.map fun entry => (entry.1, entry.2.entriesBelow (base.join ⟨entry.1⟩)) := by
  induction entries with
  | nil => rfl
  | cons entry rest ih =>
    rw [listings, ih]
    rfl

theorem filesBelow_file (base : Path) (contents : Bytes) :
    (file contents).filesBelow base = [base] := by
  rw [filesBelow, entriesBelow]
  rfl

/-- The order of the entries aside, a directory has the files of its entries. -/
theorem filesBelow_perm (base : Path) (entries : List (Bytes × FileTree)) :
    ((directory entries).filesBelow base).Perm
      (entries.flatMap fun entry => entry.2.filesBelow (base.join ⟨entry.1⟩)) := by
  rw [filesBelow, entriesBelow, listings_eq_map, List.filter_cons_of_neg (by simp),
    List.filter_flatMap, List.map_flatMap]
  refine ((List.mergeSort_perm _ _).flatMap_right _).trans ?_
  rw [List.flatMap_map]
  exact .refl _

/-- On the way to anything in a proper tree there are only names, and what is there is proper. -/
theorem Proper.of_find? {tree sub : FileTree} (proper : tree.Proper) {names : List Bytes}
    (found : tree.find? names = some sub) : (∀ name ∈ names, IsName name) ∧ sub.Proper := by
  induction names generalizing tree with
  | nil =>
    have here : tree = sub := by cases tree <;> exact Option.some.inj found
    exact ⟨nofun, here ▸ proper⟩
  | cons name rest ih =>
    cases tree with
    | file => cases found
    | directory entries =>
      rw [find?] at found
      cases entry : entries.lookup name with
      | none => rw [entry] at found; cases found
      | some tree =>
        rw [entry] at found
        obtain ⟨isName, inner⟩ := proper.of_lookup entry
        obtain ⟨all, proper⟩ := ih inner found
        exact ⟨List.forall_mem_cons.mpr ⟨isName, all⟩, proper⟩

theorem Proper.names {tree : FileTree} (proper : tree.Proper) {names : List Bytes} {kind : Kind}
    (held : tree.kind? names = some kind) : ∀ name ∈ names, IsName name := by
  obtain ⟨sub, found, -⟩ := Option.map_eq_some_iff.mp held
  exact (proper.of_find? found).1

theorem mem_filesBelow {tree : FileTree} (proper : tree.Proper) (base path : Path) :
    path ∈ tree.filesBelow base ↔
      ∃ names contents, path = base.below names ∧ tree.kind? names = some (.file contents) := by
  induction proper generalizing base with
  | file contents =>
    rw [filesBelow_file, List.mem_singleton]
    constructor
    · intro same
      exact ⟨[], contents, same, rfl⟩
    · rintro ⟨names, contents', rfl, held⟩
      cases names with
      | nil => rfl
      | cons => cases held
  | @directory entries distinct names inner ih =>
    rw [(filesBelow_perm base entries).mem_iff, List.mem_flatMap]
    constructor
    · rintro ⟨⟨name, sub⟩, mem, listed⟩
      obtain ⟨more, contents, rfl, held⟩ := (ih _ mem (base.join ⟨name⟩)).mp listed
      refine ⟨name :: more, contents, rfl, ?_⟩
      rw [kind?_directory_cons, lookup_of_mem distinct mem]
      exact held
    · rintro ⟨chain, contents, rfl, held⟩
      cases chain with
      | nil => cases held
      | cons name more =>
        rw [kind?_directory_cons, Option.bind_eq_some_iff] at held
        obtain ⟨sub, found, held⟩ := held
        have mem := mem_of_lookup found
        exact ⟨_, mem, (ih _ mem (base.join ⟨name⟩)).mpr ⟨more, contents, rfl, held⟩⟩

theorem nodup_filesBelow {tree : FileTree} (proper : tree.Proper) (base : Path) :
    (tree.filesBelow base).Nodup := by
  induction proper generalizing base with
  | file =>
    rw [filesBelow_file]
    exact List.nodup_singleton base
  | @directory entries distinct names inner ih =>
    rw [(filesBelow_perm base entries).nodup_iff, List.nodup_flatMap]
    refine ⟨fun entry mem => ih entry mem _, ?_⟩
    rw [List.Nodup, List.pairwise_map] at distinct
    refine distinct.imp_of_mem fun {one two} memOne memTwo apart => ?_
    -- a path in both would show the names of both behind the same base
    rintro path listedOne listedTwo
    have proper := FileTree.Proper.directory (List.pairwise_map.mpr distinct) names inner
    obtain ⟨moreOne, _, same, heldOne⟩ := (mem_filesBelow (inner one memOne) _ _).mp listedOne
    obtain ⟨moreTwo, _, rfl, heldTwo⟩ := (mem_filesBelow (inner two memTwo) _ _).mp listedTwo
    have allOne := List.forall_mem_cons.mpr ⟨names one memOne, (inner one memOne).names heldOne⟩
    have allTwo := List.forall_mem_cons.mpr ⟨names two memTwo, (inner two memTwo).names heldTwo⟩
    have segments : base.proper ++ two.1 :: moreTwo = base.proper ++ one.1 :: moreOne := by
      rw [← Path.proper_below allOne base, ← Path.proper_below allTwo base]
      exact congrArg Path.proper same
    exact apart (List.cons.inj (List.append_cancel_left segments)).1.symm

/-- A directory with one file in it. -/
theorem entriesBelow_singleton (base : Path) (name contents : Bytes) :
    (directory [(name, file contents)]).entriesBelow base =
      [(base, true), (base.join ⟨name⟩, false)] := by
  simp only [entriesBelow, listings, List.mergeSort_singleton, List.flatMap_cons, List.flatMap_nil,
    List.append_nil]

end FileTree

namespace FileSystem

def IsFile (files : FileSystem) (names : List Bytes) : Prop :=
  ∃ contents, files.kind? names = some (.file contents)

/-- Paths that are those of all files at and below a path. -/
structure Lists (files : FileSystem) (base : Path) (paths : List Path) : Prop where
  once : paths.Nodup
  ordered : paths.Pairwise fun a b => a.le b
  mem_iff : ∀ path, path ∈ paths ↔
    ∃ names, path = base.below names ∧ files.IsFile (files.target base ++ names)

variable {files : FileSystem} {base : Path} {paths : List Path}

theorem mem_filesBelow_iff {tree : FileTree} (proper : files.root.Proper)
    (there : files.root.find? (files.target base) = some tree) (path : Path) :
    path ∈ tree.filesBelow base ↔
      ∃ names, path = base.below names ∧ files.IsFile (files.target base ++ names) := by
  rw [FileTree.mem_filesBelow (proper.of_find? there).2]
  simp only [IsFile, kind?, FileTree.kind?_append there]
  constructor
  · rintro ⟨names, contents, same, held⟩
    exact ⟨names, same, contents, held⟩
  · rintro ⟨names, same, contents, held⟩
    exact ⟨names, contents, same, held⟩

theorem list_eq_ok (proper : files.root.Proper) (listed : files.list base = .ok paths) :
    files.Lists base paths := by
  rw [list] at listed
  split at listed
  case h_1 => cases listed
  case h_2 tree found =>
    split at listed
    case h_1 => cases listed
    case h_2 =>
      obtain rfl := Except.ok.inj listed
      obtain ⟨-, there⟩ := find_eq_ok found
      have perm : (Path.sort (tree.filesBelow base)).Perm (tree.filesBelow base) :=
        List.mergeSort_perm _ _
      refine ⟨?_, Path.sort_ordered _, fun path => ?_⟩
      · exact perm.nodup_iff.mpr (FileTree.nodup_filesBelow (proper.of_find? there).2 base)
      · rw [perm.mem_iff, mem_filesBelow_iff proper there]

theorem list_file {contents : Bytes} (found : files.find base = .ok (.file contents)) :
    files.list base = .ok [base] := by
  rw [list, found]
  simp [FileTree.directoriesBelow, FileTree.filesBelow, FileTree.entriesBelow, Path.sort]

theorem list_singleton {name contents : Bytes}
    (found : files.find base = .ok (.directory [(name, .file contents)])) :
    files.list base = .ok [base.join ⟨name⟩] := by
  have short : ¬longestPath < base.bytes.length := Nat.not_lt.mpr (find_short found)
  rw [list, found]
  simp [FileTree.directoriesBelow, FileTree.filesBelow, FileTree.entriesBelow_singleton, short,
    Path.sort]

/-- What is listed is a file, where its path leads. -/
theorem Lists.isFile (lists : files.Lists base paths) (proper : files.root.Proper) {path : Path}
    (mem : path ∈ paths) : files.IsFile (files.target path) := by
  obtain ⟨names, rfl, contents, held⟩ := (lists.mem_iff path).mp mem
  have all : ∀ name ∈ names, IsName name := fun name mem =>
    proper.names held name (List.mem_append_right _ mem)
  rw [target_below files base all]
  exact ⟨contents, held⟩

/-- Where nothing has changed, the files are those that there were. -/
theorem Lists.of_changes {after : FileSystem} (lists : after.Lists base paths)
    (changes : ChangesIn files after nowhere) : files.Lists base paths := by
  refine ⟨lists.once, lists.ordered, fun path => ?_⟩
  rw [lists.mem_iff, target_congr changes.working]
  simp only [IsFile, (changes.keeps _ id).file_iff]

/-- Only a file that is listed by itself can have a path without a slash. -/
theorem Lists.slashed (lists : files.Lists base paths) (proper : files.root.Proper)
    (present : base.bytes ≠ []) : ∀ path ∈ paths.dropLast, Path.separator ∈ path.bytes := by
  intro path mem
  obtain ⟨names, rfl, contents, held⟩ := (lists.mem_iff path).mp (List.dropLast_subset _ mem)
  have all : ∀ name ∈ names, IsName name := fun name mem =>
    proper.names held name (List.mem_append_right _ mem)
  by_cases alone : names = []
  case neg => exact Path.separator_mem_below present all alone
  -- below a file nothing stands, so the listing has nothing else
  subst alone
  rw [List.append_nil, kind?_eq_file_iff] at held
  have same : ∀ other ∈ paths, other = base := by
    intro other listed
    obtain ⟨more, rfl, contents', held'⟩ := (lists.mem_iff other).mp listed
    rw [kind?, FileTree.kind?_append held] at held'
    cases more with
    | nil => rfl
    | cons => cases held'
  have once := lists.once
  rw [List.eq_replicate_of_mem same, List.nodup_replicate] at once
  have few := List.length_pos_of_mem mem
  rw [List.length_dropLast] at few
  omega

end FileSystem

end LinkGate
