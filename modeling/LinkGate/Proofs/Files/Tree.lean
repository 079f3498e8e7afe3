import LinkGate.Files.Tree
import LinkGate.Proofs.Lookup
import Mathlib.Data.List.Nodup

/-!
# What stands in a tree

`kind?` tells of every chain of names what stands at its end, a file with its contents or a
directory.  Two trees in which the same stands everywhere hold the same files, and what `place`
changes is said by it: nothing stands otherwise but at and below the place.

A tree is proper when the names in each of its directories are names, and all different.
-/

set_option autoImplicit false

namespace LinkGate

inductive Kind where
  | file (contents : Bytes)
  | directory
  deriving DecidableEq, Repr

/-- What can be the name of an entry. -/
structure IsName (name : Bytes) : Prop where
  present : name ≠ []
  noDot : name ≠ Path.dot
  noDots : name ≠ Path.dots
  noSlash : Path.separator ∉ name

namespace FileTree

def kind : FileTree → Kind
  | file contents => .file contents
  | directory _ => .directory

/-- What stands at the end of a chain of names. -/
def kind? (tree : FileTree) (names : List Bytes) : Option Kind :=
  (tree.find? names).map kind

@[simp] theorem kind?_nil (tree : FileTree) : tree.kind? [] = some tree.kind := by
  cases tree <;> rfl

@[simp] theorem kind?_file_cons (contents name : Bytes) (rest : List Bytes) :
    (file contents).kind? (name :: rest) = none :=
  rfl

@[simp] theorem kind?_directory_cons (entries : List (Bytes × FileTree)) (name : Bytes)
    (rest : List Bytes) :
    (directory entries).kind? (name :: rest) = (entries.lookup name).bind (·.kind? rest) := by
  rw [kind?, find?]
  cases entries.lookup name <;> rfl

theorem find?_append (tree : FileTree) (front back : List Bytes) :
    tree.find? (front ++ back) = (tree.find? front).bind (·.find? back) := by
  induction front generalizing tree with
  | nil => cases tree <;> rfl
  | cons name front ih =>
    cases tree with
    | file => rfl
    | directory entries =>
      rw [List.cons_append, find?, find?]
      cases entries.lookup name with
      | none => rfl
      | some tree => exact ih tree

theorem kind?_append {tree sub : FileTree} {front : List Bytes}
    (found : tree.find? front = some sub) (back : List Bytes) :
    tree.kind? (front ++ back) = sub.kind? back := by
  rw [kind?, find?_append, found]
  rfl

/-- Below nothing there is nothing. -/
theorem kind?_append_of_none {tree : FileTree} {front : List Bytes}
    (nothing : tree.kind? front = none) (back : List Bytes) :
    tree.kind? (front ++ back) = none := by
  rw [kind?, Option.map_eq_none_iff] at nothing
  rw [kind?, find?_append, nothing]
  rfl

/-! ## Entries -/

section
variable (name : Bytes) (tree : FileTree) (entries : List (Bytes × FileTree))

theorem lookup_setEntry (other : Bytes) :
    (setEntry name tree entries).lookup other =
      if other = name then some tree else entries.lookup other := by
  induction entries with
  | nil => exact lookup_cons_eq name other tree []
  | cons entry rest ih =>
    obtain ⟨first, old⟩ := entry
    rw [setEntry]
    split
    case isTrue here =>
      subst here
      rw [lookup_cons_eq, lookup_cons_eq]
      by_cases same : other = first
      · rw [if_pos same, if_pos same]
      · rw [if_neg same, if_neg same, if_neg same]
    case isFalse here =>
      rw [lookup_cons_eq, lookup_cons_eq, ih]
      by_cases same : other = first
      · have apart : other ≠ name := fun equal => here (same.symm.trans equal)
        rw [if_pos same, if_pos same, if_neg apart]
      · rw [if_neg same, if_neg same]

theorem setEntry_of_lookup {name : Bytes} {tree : FileTree} {entries : List (Bytes × FileTree)}
    (found : entries.lookup name = some tree) : setEntry name tree entries = entries := by
  induction entries with
  | nil => cases found
  | cons entry rest ih =>
    obtain ⟨first, old⟩ := entry
    rw [lookup_cons_eq] at found
    rw [setEntry]
    split
    case isTrue here =>
      rw [if_pos here.symm] at found
      rw [Option.some.inj found]
    case isFalse other =>
      rw [if_neg (Ne.symm other)] at found
      rw [ih found]

theorem mem_setEntry {entry : Bytes × FileTree} (mem : entry ∈ setEntry name tree entries) :
    entry = (name, tree) ∨ entry ∈ entries := by
  induction entries with
  | nil => exact .inl (List.mem_singleton.mp mem)
  | cons first rest ih =>
    rw [setEntry] at mem
    split at mem
    case isTrue same =>
      rcases List.mem_cons.mp mem with rfl | later
      · exact .inl (by rw [same])
      · exact .inr (List.mem_cons_of_mem first later)
    case isFalse =>
      rcases List.mem_cons.mp mem with rfl | later
      · exact .inr List.mem_cons_self
      · exact (ih later).imp_right (List.mem_cons_of_mem first)

theorem nodup_setEntry (distinct : (entries.map (·.1)).Nodup) :
    ((setEntry name tree entries).map (·.1)).Nodup := by
  induction entries with
  | nil => exact List.nodup_singleton name
  | cons first rest ih =>
    rw [setEntry]
    split
    case isTrue => exact distinct
    case isFalse other =>
      rw [List.map_cons, List.nodup_cons] at distinct ⊢
      refine ⟨?_, ih distinct.2⟩
      intro there
      obtain ⟨entry, mem, same⟩ := List.mem_map.mp there
      rcases mem_setEntry name tree rest mem with rfl | old
      · exact other same.symm
      · exact distinct.1 (same ▸ List.mem_map_of_mem old)

end

/-! ## Placing -/

/-- Outside the place nothing changes. -/
theorem kind?_place_outside {tree new : FileTree} {names other : List Bytes}
    (outside : ¬names <+: other) : (tree.place names new).kind? other = tree.kind? other := by
  induction names generalizing tree other with
  | nil => exact absurd List.nil_prefix outside
  | cons name rest ih =>
    cases tree with
    | file => rfl
    | directory entries =>
      cases other with
      | nil =>
        cases rest with
        | nil => rfl
        | cons next rest =>
          rw [place]
          split <;> rfl
      | cons first others =>
        rw [List.cons_prefix_cons, not_and] at outside
        cases rest with
        | nil =>
          have apart : first ≠ name := fun same => outside same.symm List.nil_prefix
          simp only [place, kind?_directory_cons, lookup_setEntry, if_neg apart]
        | cons next rest =>
          rw [place]
          split
          case h_1 => rfl
          case h_2 sub found =>
            simp only [kind?_directory_cons, lookup_setEntry]
            split
            case isTrue same =>
              subst same
              rw [found]
              exact ih (outside rfl)
            case isFalse => rfl

/-- In a directory the new tree stands, with what is in it. -/
theorem kind?_place {tree new : FileTree} {front : List Bytes} {entries : List (Bytes × FileTree)}
    (found : tree.find? front = some (directory entries)) (name : Bytes) (more : List Bytes) :
    (tree.place (front ++ [name]) new).kind? (front ++ name :: more) = new.kind? more := by
  induction front generalizing tree with
  | nil =>
    cases tree with
    | file => cases found
    | directory entries =>
      simp only [List.nil_append, place, kind?_directory_cons, lookup_setEntry, if_true,
        Option.bind_some]
  | cons first front ih =>
    cases tree with
    | file => cases found
    | directory entries =>
      obtain ⟨next, rest, cons⟩ := List.exists_cons_of_ne_nil
        (List.append_ne_nil_of_right_ne_nil front (List.cons_ne_nil name []))
      rw [find?] at found
      rw [List.cons_append, cons, place]
      cases entry : entries.lookup first with
      | none => rw [entry] at found; cases found
      | some sub =>
        rw [entry] at found
        simp only [List.cons_append, kind?_directory_cons, lookup_setEntry, if_true,
          Option.bind_some]
        rw [← cons]
        exact ih found

/-- Without a directory to stand in nothing is placed. -/
theorem place_of_no_directory {tree new : FileTree} {front : List Bytes} {name : Bytes}
    (nothing : ∀ entries, tree.find? front ≠ some (directory entries)) :
    tree.place (front ++ [name]) new = tree := by
  induction front generalizing tree with
  | nil =>
    cases tree with
    | file => rfl
    | directory entries => exact absurd rfl (nothing entries)
  | cons first front ih =>
    cases tree with
    | file => rfl
    | directory entries =>
      obtain ⟨next, rest, cons⟩ := List.exists_cons_of_ne_nil
        (List.append_ne_nil_of_right_ne_nil front (List.cons_ne_nil name []))
      rw [List.cons_append, cons, place]
      cases found : entries.lookup first with
      | none => rfl
      | some sub =>
        simp only [find?, found] at nothing
        simp only
        rw [← cons, ih nothing, setEntry_of_lookup found]

/-! ## Proper trees -/

inductive Proper : FileTree → Prop where
  | file (contents : Bytes) : Proper (FileTree.file contents)
  | directory {entries : List (Bytes × FileTree)} (distinct : (entries.map (·.1)).Nodup)
    (names : ∀ entry ∈ entries, IsName entry.1) (inner : ∀ entry ∈ entries, Proper entry.2) :
    Proper (FileTree.directory entries)

theorem proper_empty : empty.Proper :=
  .directory List.nodup_nil nofun nofun

theorem Proper.setEntry {entries : List (Bytes × FileTree)}
    (proper : (FileTree.directory entries).Proper) {name : Bytes} {tree : FileTree}
    (isName : IsName name) (below : tree.Proper) :
    (FileTree.directory (setEntry name tree entries)).Proper := by
  cases proper with
  | directory distinct names inner =>
    refine .directory (nodup_setEntry name tree entries distinct) ?_ ?_
    · intro entry mem
      rcases mem_setEntry name tree entries mem with rfl | old
      · exact isName
      · exact names entry old
    · intro entry mem
      rcases mem_setEntry name tree entries mem with rfl | old
      · exact below
      · exact inner entry old

theorem Proper.of_lookup {entries : List (Bytes × FileTree)}
    (proper : (FileTree.directory entries).Proper) {name : Bytes} {tree : FileTree}
    (found : entries.lookup name = some tree) :
    IsName name ∧ tree.Proper := by
  have mem := mem_of_lookup found
  cases proper with
  | directory _ names inner => exact ⟨names _ mem, inner _ mem⟩

/-- A chain of names that leads to an entry that is new only has to end in a name. -/
theorem Proper.place {tree new : FileTree} (proper : tree.Proper) {front : List Bytes}
    {name : Bytes} (isName : IsName name) (below : new.Proper) :
    (tree.place (front ++ [name]) new).Proper := by
  induction front generalizing tree with
  | nil =>
    cases tree with
    | file => exact proper
    | directory entries => exact proper.setEntry isName below
  | cons first front ih =>
    cases tree with
    | file => exact proper
    | directory entries =>
      obtain ⟨next, rest, cons⟩ := List.exists_cons_of_ne_nil
        (List.append_ne_nil_of_right_ne_nil front (List.cons_ne_nil name []))
      rw [List.cons_append, cons, FileTree.place]
      cases found : entries.lookup first with
      | none => exact proper
      | some sub =>
        obtain ⟨isFirst, inner⟩ := proper.of_lookup found
        rw [← cons]
        exact proper.setEntry isFirst (ih inner)

end FileTree

end LinkGate
