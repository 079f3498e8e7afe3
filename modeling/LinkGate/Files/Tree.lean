import LinkGate.Files.Path

/-!
# File trees

Files and the directories that hold them.  A chain of names leads from a tree to one below it:
`find?` follows it, `place` changes what stands at its end.  `entriesBelow` lists a tree depth
first, the entries of a directory in the order of their names.
-/

set_option autoImplicit false

namespace LinkGate

inductive FileTree where
  | file (contents : Bytes)
  | directory (entries : List (Bytes × FileTree))

namespace FileTree

def empty : FileTree :=
  directory []

def find? : FileTree → List Bytes → Option FileTree
  | tree, [] => some tree
  | file _, _ :: _ => none
  | directory entries, name :: rest =>
    match entries.lookup name with
    | none => none
    | some tree => tree.find? rest

/-- Sets the entry of a name; a new one comes last. -/
def setEntry (name : Bytes) (tree : FileTree) :
    List (Bytes × FileTree) → List (Bytes × FileTree)
  | [] => [(name, tree)]
  | (n, t) :: rest => if n = name then (n, tree) :: rest else (n, t) :: setEntry name tree rest

/-- Puts `new` at the end of a chain of names.  Where a name before the last is no directory,
nothing changes. -/
def place : FileTree → List Bytes → FileTree → FileTree
  | _, [], new => new
  | file contents, _ :: _, _ => file contents
  | directory entries, [name], new => directory (setEntry name new entries)
  | directory entries, name :: next :: rest, new =>
    match entries.lookup name with
    | none => directory entries
    | some tree => directory (setEntry name (tree.place (next :: rest) new) entries)

mutual

/-- What stands at and below `base`, a directory before what is in it, each path with whether it is
that of a directory. -/
def entriesBelow (base : Path) : FileTree → List (Path × Bool)
  | file _ => [(base, false)]
  | directory entries =>
    (base, true) ::
      ((listings base entries).mergeSort fun a b => (Path.compareNames a.1 b.1).isLE).flatMap (·.2)

/-- For each entry of the directory `base` its name and what stands at and below it. -/
def listings (base : Path) : List (Bytes × FileTree) → List (Bytes × List (Path × Bool))
  | [] => []
  | (name, tree) :: rest => (name, entriesBelow (base.join ⟨name⟩) tree) :: listings base rest

end

def directoriesBelow (base : Path) (tree : FileTree) : List Path :=
  ((tree.entriesBelow base).filter (·.2)).map (·.1)

def filesBelow (base : Path) (tree : FileTree) : List Path :=
  ((tree.entriesBelow base).filter (!·.2)).map (·.1)

end FileTree

end LinkGate
