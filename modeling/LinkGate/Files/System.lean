import LinkGate.Files.Tree

/-!
# File systems

A tree with a working directory.  Paths are followed segment by segment: each segment, an empty one
or a dot too, needs a directory to stand in, and `..` leads back.  So a missing name is told from a
file where a directory should be, and a slash behind a file's name is an error.  What fails does so
with an `IoError` and changes nothing, but for making several directories, which may fail half-way.
-/

set_option autoImplicit false

namespace LinkGate

inductive IoError where
  | missing
  | denied
  | alreadyThere
  | notDirectory
  | isDirectory
  | nameTooLong
  | zeroInPath
  | zeroInArgument
  | other (text : String)
  deriving DecidableEq, Repr

def IoError.message : IoError → String
  | missing => "No such file or directory (os error 2)"
  | denied => "Permission denied (os error 13)"
  | alreadyThere => "File exists (os error 17)"
  | notDirectory => "Not a directory (os error 20)"
  | isDirectory => "Is a directory (os error 21)"
  | nameTooLong => "File name too long (os error 36)"
  | zeroInPath => "file name contained an unexpected NUL byte"
  | zeroInArgument => "nul byte found in provided data"
  | other text => text

structure FileSystem where
  root : FileTree
  /-- The names that lead from the root to the working directory. -/
  working : List Bytes

namespace FileSystem

def longestName : Nat := 255

def longestPath : Nat := 4095

def step (files : FileSystem) (here : List Bytes) (segment : Bytes) :
    Except IoError (List Bytes) :=
  match files.root.find? here with
  | none => .error .missing
  | some (.file _) => .error .notDirectory
  | some (.directory entries) =>
    if segment = [] ∨ segment = Path.dot then .ok here
    else if segment = Path.dots then .ok here.dropLast
    else if longestName < segment.length then .error .nameTooLong
    else if (entries.lookup segment).isNone then .error .missing
    else .ok (here ++ [segment])

def follow (files : FileSystem) : List Bytes → List Bytes → Except IoError (List Bytes)
  | here, [] => .ok here
  | here, segment :: rest =>
    match files.step here segment with
    | .error error => .error error
    | .ok next => files.follow next rest

def start (files : FileSystem) (path : Path) : Except IoError (List Bytes) :=
  if 0 ∈ path.bytes then .error .zeroInPath
  else if path.bytes = [] then .error .missing
  else if longestPath < path.bytes.length then .error .nameTooLong
  else .ok (if path.isAbsolute then [] else files.working)

/-- The names that lead from the root to where a path ends. -/
def locate (files : FileSystem) (path : Path) : Except IoError (List Bytes) :=
  match files.start path with
  | .error error => .error error
  | .ok here => files.follow here path.segments

def find (files : FileSystem) (path : Path) : Except IoError FileTree :=
  match files.locate path with
  | .error error => .error error
  | .ok names =>
    match files.root.find? names with
    | none => .error .missing
    | some tree => .ok tree

def read (files : FileSystem) (path : Path) : Except IoError Bytes :=
  match files.find path with
  | .error error => .error error
  | .ok (.directory _) => .error .isDirectory
  | .ok (.file contents) => .ok contents

def writeIn (files : FileSystem) (here : List Bytes) (name contents : Bytes) :
    Except IoError FileSystem :=
  match files.root.find? here with
  | none => .error .missing
  | some (.file _) => .error .notDirectory
  | some (.directory entries) =>
    if name = Path.dot ∨ name = Path.dots then .error .isDirectory
    else if longestName < name.length then .error .nameTooLong
    else
      match entries.lookup name with
      | some (.directory _) => .error .isDirectory
      | _ => .ok { files with root := files.root.place (here ++ [name]) (.file contents) }

/-- A path that ends in a slash names a directory, whether there is one or not. -/
def write (files : FileSystem) (path : Path) (contents : Bytes) : Except IoError FileSystem :=
  match files.start path with
  | .error error => .error error
  | .ok here =>
    match path.segments.reverse.dropWhile (· == []) with
    | [] => .error .isDirectory
    | name :: before =>
      match files.follow here before.reverse with
      | .error error => .error error
      | .ok here =>
        if path.segments.getLast? = some [] then
          match files.step here [] with
          | .error error => .error error
          | .ok _ => .error .isDirectory
        else files.writeIn here name contents

def makeIn (files : FileSystem) (here : List Bytes) (name : Bytes) : Except IoError FileSystem :=
  match files.root.find? here with
  | none => .error .missing
  | some (.file _) => .error .notDirectory
  | some (.directory entries) =>
    if name = Path.dot ∨ name = Path.dots then .error .alreadyThere
    else if longestName < name.length then .error .nameTooLong
    else if (entries.lookup name).isSome then .error .alreadyThere
    else .ok { files with root := files.root.place (here ++ [name]) .empty }

/-- Slashes behind the last name do not count; without a name it is the root. -/
def makeDirectory (files : FileSystem) (path : Path) : Except IoError FileSystem :=
  match files.start path with
  | .error error => .error error
  | .ok here =>
    match path.segments.reverse.dropWhile (· == []) with
    | [] => .error .alreadyThere
    | name :: before =>
      match files.follow here before.reverse with
      | .error error => .error error
      | .ok here => files.makeIn here name

def isDirectory (files : FileSystem) (path : Path) : Bool :=
  match files.find path with
  | .ok (.directory _) => true
  | _ => false

/-- What became of making a directory.  An error does not matter if there is a directory. -/
def settle (files : FileSystem) (path : Path) :
    Except IoError FileSystem → Except IoError Unit × FileSystem
  | .ok made => (.ok (), made)
  | .error error => (if files.isDirectory path then .ok () else .error error, files)

/-- Makes the first of some directories.  If something on the way to it is missing, the next one is
made before it, in the same way. -/
def ensureFirst (files : FileSystem) : List Path → Except IoError Unit × FileSystem
  | [] => (.ok (), files)
  | path :: parents =>
    match files.makeDirectory path with
    | .error .missing =>
      match files.ensureFirst parents with
      | (.error error, left) => (.error error, left)
      | (.ok (), left) => left.settle path (left.makeDirectory path)
    | done => files.settle path done

/-- Makes a directory and those that lead to it, as far as they are missing.  Those that were made
are left when a later one cannot be. -/
def makeDirectories (files : FileSystem) (path : Path) : Except IoError Unit × FileSystem :=
  files.ensureFirst path.ancestors

/-- The files at and below a path, in the order of their paths; or the path that the walk did not
get past.  A directory whose path is too long cannot be opened. -/
def list (files : FileSystem) (base : Path) : Except (Path × IoError) (List Path) :=
  match files.find base with
  | .error error => .error (base, error)
  | .ok tree =>
    match (tree.directoriesBelow base).find? fun path => longestPath < path.bytes.length with
    | some path => .error (path, .nameTooLong)
    | none => .ok (Path.sort (tree.filesBelow base))

/-- Adds a file, or without contents a directory, along with the directories that lead to it. -/
def add (files : FileSystem) (path : Path) (contents : Option Bytes) : Except IoError FileSystem :=
  match contents with
  | none =>
    match files.makeDirectories path with
    | (.error error, _) => .error error
    | (.ok (), made) => .ok made
  | some contents =>
    match files.ensureFirst path.ancestors.tail with
    | (.error error, _) => .error error
    | (.ok (), made) => made.write path contents

end FileSystem

end LinkGate
