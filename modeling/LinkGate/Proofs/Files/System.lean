import LinkGate.Files.System
import LinkGate.Proofs.Files.Path

/-!
# What changes in a file system

A path that can be followed leads to its `target`, which does not depend on what stands there.
`Keeps` at a place means that what stood there still does, and that no file is new.  An operation
`ChangesIn` a region if it keeps all other places: making directories changes nothing in this sense,
writing a file only what stands at its target.
-/

set_option autoImplicit false

namespace LinkGate.FileSystem

/-- What stands at a place. -/
def kind? (files : FileSystem) (names : List Bytes) : Option Kind :=
  files.root.kind? names

/-- Where the way of a path begins. -/
def origin (files : FileSystem) (path : Path) : List Bytes :=
  if path.isAbsolute then [] else files.working

/-- Where a path leads, if there is a way. -/
def target (files : FileSystem) (path : Path) : List Bytes :=
  path.walk (files.origin path)

theorem origin_congr {files other : FileSystem} (working : other.working = files.working)
    (path : Path) : other.origin path = files.origin path := by
  rw [origin, origin, working]

theorem target_congr {files other : FileSystem} (working : other.working = files.working)
    (path : Path) : other.target path = files.target path := by
  rw [target, target, origin_congr working]

theorem origin_join (files : FileSystem) (base : Path) {path : Path}
    (relative : path.isAbsolute = false) :
    files.origin (base.join path) = files.origin base := by
  rw [origin, origin, Path.isAbsolute_join base relative]

theorem target_join (files : FileSystem) (base : Path) {path : Path}
    (relative : path.isAbsolute = false) :
    files.target (base.join path) = path.walk (files.target base) := by
  rw [target, origin_join files base relative, Path.walk_join base relative, target]

theorem origin_below (files : FileSystem) (base : Path) {names : List Bytes}
    (all : ∀ name ∈ names, IsName name) :
    files.origin (base.below names) = files.origin base := by
  rw [origin, origin, Path.isAbsolute_below all]

theorem target_below (files : FileSystem) (base : Path) {names : List Bytes}
    (all : ∀ name ∈ names, IsName name) :
    files.target (base.below names) = files.target base ++ names := by
  rw [target, origin_below files base all, Path.walk_below all, target]

/-! ## Following -/

theorem kind?_eq_directory_iff {files : FileSystem} {names : List Bytes} :
    files.kind? names = some .directory ↔
      ∃ entries, files.root.find? names = some (.directory entries) := by
  rw [kind?, FileTree.kind?, Option.map_eq_some_iff]
  constructor
  · rintro ⟨tree, found, same⟩
    cases tree with
    | file => cases same
    | directory entries => exact ⟨entries, found⟩
  · rintro ⟨entries, found⟩
    exact ⟨_, found, rfl⟩

theorem kind?_eq_file_iff {files : FileSystem} {names : List Bytes} {contents : Bytes} :
    files.kind? names = some (.file contents) ↔
      files.root.find? names = some (.file contents) := by
  rw [kind?, FileTree.kind?, Option.map_eq_some_iff]
  constructor
  · rintro ⟨tree, found, same⟩
    cases tree with
    | file => cases same; exact found
    | directory => cases same
  · intro found
    exact ⟨_, found, rfl⟩

theorem kind?_child {files : FileSystem} {here : List Bytes} {entries : List (Bytes × FileTree)}
    (found : files.root.find? here = some (.directory entries)) (name : Bytes) :
    files.kind? (here ++ [name]) = (entries.lookup name).map FileTree.kind := by
  rw [kind?, FileTree.kind?_append found, FileTree.kind?_directory_cons]
  cases entries.lookup name with
  | none => rfl
  | some tree => exact tree.kind?_nil

/-- A step leads from a directory, and to something. -/
theorem step_eq_ok {files : FileSystem} {here next : List Bytes} {segment : Bytes}
    (taken : files.step here segment = .ok next) :
    files.kind? here = some .directory ∧ next = Path.advance here segment := by
  rw [step] at taken
  split at taken
  case h_1 => cases taken
  case h_2 => cases taken
  case h_3 entries found =>
    refine ⟨kind?_eq_directory_iff.mpr ⟨entries, found⟩, ?_⟩
    rw [Path.advance]
    split at taken
    case isTrue special => rw [if_pos special, Except.ok.inj taken]
    case isFalse special =>
      rw [if_neg special]
      split at taken
      case isTrue back => rw [if_pos back, Except.ok.inj taken]
      case isFalse back =>
        rw [if_neg back]
        split at taken
        case isTrue => cases taken
        case isFalse =>
          split at taken
          case isTrue => cases taken
          case isFalse => exact (Except.ok.inj taken).symm

theorem follow_eq_ok {files : FileSystem} {here names : List Bytes} {segments : List Bytes}
    (taken : files.follow here segments = .ok names) :
    names = segments.foldl Path.advance here := by
  induction segments generalizing here with
  | nil => exact (Except.ok.inj taken).symm
  | cons segment rest ih =>
    rw [follow] at taken
    split at taken
    case h_1 => cases taken
    case h_2 next stepped =>
      rw [ih taken, (step_eq_ok stepped).2]
      rfl

theorem start_eq_ok {files : FileSystem} {path : Path} {here : List Bytes}
    (started : files.start path = .ok here) :
    here = files.origin path ∧ path.bytes.length ≤ longestPath := by
  rw [start] at started
  split at started
  case isTrue => cases started
  case isFalse =>
    split at started
    case isTrue => cases started
    case isFalse =>
      split at started
      case isTrue => cases started
      case isFalse short => exact ⟨(Except.ok.inj started).symm, Nat.not_lt.mp short⟩

theorem locate_eq_ok {files : FileSystem} {path : Path} {names : List Bytes}
    (located : files.locate path = .ok names) : names = files.target path := by
  rw [locate] at located
  split at located
  case h_1 => cases located
  case h_2 here started =>
    rw [follow_eq_ok located, (start_eq_ok started).1]
    rfl

theorem find_eq_ok {files : FileSystem} {path : Path} {tree : FileTree}
    (found : files.find path = .ok tree) :
    files.locate path = .ok (files.target path) ∧
      files.root.find? (files.target path) = some tree := by
  rw [find] at found
  split at found
  case h_1 => cases found
  case h_2 names located =>
    obtain rfl := locate_eq_ok located
    split at found
    case h_1 => cases found
    case h_2 there => exact ⟨located, Except.ok.inj found ▸ there⟩

/-- A way that ends at something leads through something everywhere. -/
theorem follow_passes {files : FileSystem} {here names : List Bytes} {segments front : List Bytes}
    (taken : files.follow here segments = .ok names) (ends : files.kind? names ≠ none)
    (isFront : front <+: segments) : files.kind? (front.foldl Path.advance here) ≠ none := by
  induction segments generalizing here front with
  | nil =>
    obtain rfl := List.prefix_nil.mp isFront
    obtain rfl := Except.ok.inj taken
    exact ends
  | cons segment rest ih =>
    rw [follow] at taken
    split at taken
    case h_1 => cases taken
    case h_2 next stepped =>
      obtain ⟨directory, rfl⟩ := step_eq_ok stepped
      rcases List.prefix_cons_iff.mp isFront with rfl | ⟨more, rfl, isMore⟩
      · rw [List.foldl_nil, directory]
        nofun
      · rw [List.foldl_cons]
        exact ih taken isMore

theorem find_present {files : FileSystem} {path : Path} {tree : FileTree}
    (found : files.find path = .ok tree) : path.bytes ≠ [] := by
  intro empty
  obtain ⟨located, -⟩ := find_eq_ok found
  rw [locate, start, empty] at located
  cases located

theorem find_short {files : FileSystem} {path : Path} {tree : FileTree}
    (found : files.find path = .ok tree) : path.bytes.length ≤ longestPath := by
  obtain ⟨located, -⟩ := find_eq_ok found
  rw [locate] at located
  split at located
  case h_1 => cases located
  case h_2 started => exact (start_eq_ok started).2

theorem find_passes {files : FileSystem} {path : Path} {tree : FileTree} {place : List Bytes}
    (found : files.find path = .ok tree) (passes : path.Passes (files.origin path) place) :
    files.kind? place ≠ none := by
  obtain ⟨located, there⟩ := find_eq_ok found
  obtain ⟨front, isFront, rfl⟩ := passes
  rw [locate] at located
  split at located
  case h_1 => cases located
  case h_2 here started =>
    obtain ⟨rfl, -⟩ := start_eq_ok started
    refine follow_passes located ?_ isFront
    rw [kind?, FileTree.kind?, there]
    exact Option.some_ne_none _

/-! ## What is kept -/

/-- What stood at a place still does, and no file is new there. -/
structure Keeps (before after : FileSystem) (names : List Bytes) : Prop where
  stays : ∀ kind, before.kind? names = some kind → after.kind? names = some kind
  noFile : ∀ contents, after.kind? names = some (.file contents) →
    before.kind? names = some (.file contents)

theorem Keeps.refl (files : FileSystem) (names : List Bytes) : Keeps files files names :=
  ⟨fun _ held => held, fun _ held => held⟩

theorem Keeps.trans {first second third : FileSystem} {names : List Bytes}
    (one : Keeps first second names) (two : Keeps second third names) : Keeps first third names :=
  ⟨fun kind held => two.stays kind (one.stays kind held),
    fun contents held => one.noFile contents (two.noFile contents held)⟩

theorem Keeps.of_same {before after : FileSystem} {names : List Bytes}
    (same : after.kind? names = before.kind? names) : Keeps before after names :=
  ⟨fun _ held => same.trans held, fun _ held => same.symm.trans held⟩

/-- A file is there just when it was. -/
theorem Keeps.file_iff {before after : FileSystem} {names : List Bytes}
    (keeps : Keeps before after names) (contents : Bytes) :
    after.kind? names = some (.file contents) ↔ before.kind? names = some (.file contents) :=
  ⟨keeps.noFile contents, keeps.stays _⟩

/-- Nothing changes but in a region.  The working directory is the same, and names stay names. -/
structure ChangesIn (before after : FileSystem) (region : List Bytes → Prop) : Prop where
  working : after.working = before.working
  proper : before.root.Proper → after.root.Proper
  keeps : ∀ names, ¬region names → Keeps before after names

namespace ChangesIn
variable {first second third : FileSystem} {region larger : List Bytes → Prop}

theorem refl (files : FileSystem) (region : List Bytes → Prop) : ChangesIn files files region :=
  ⟨rfl, id, fun names _ => .refl files names⟩

theorem mono (changes : ChangesIn first second region)
    (within : ∀ names, region names → larger names) : ChangesIn first second larger :=
  ⟨changes.working, changes.proper, fun names outside =>
    changes.keeps names fun inside => outside (within names inside)⟩

theorem trans (one : ChangesIn first second region) (two : ChangesIn second third region) :
    ChangesIn first third region :=
  ⟨two.working.trans one.working, fun proper => two.proper (one.proper proper),
    fun names outside => (one.keeps names outside).trans (two.keeps names outside)⟩

end ChangesIn

/-- Nowhere at all. -/
def nowhere (_ : List Bytes) : Prop :=
  False

theorem ChangesIn.anywhere {before after : FileSystem} {region : List Bytes → Prop}
    (changes : ChangesIn before after nowhere) : ChangesIn before after region :=
  changes.mono fun _ => False.elim

/-! ## Making directories -/

section
variable {files made left : FileSystem} {here : List Bytes} {segment : Bytes} {path : Path}

theorem keeps_place_empty (nothing : files.kind? (here ++ [segment]) = none)
    (names : List Bytes) :
    Keeps files { files with root := files.root.place (here ++ [segment]) .empty } names := by
  by_cases inside : here ++ [segment] <+: names
  case neg => exact .of_same (FileTree.kind?_place_outside inside)
  obtain ⟨more, rfl⟩ := inside
  have none : files.kind? (here ++ [segment] ++ more) = none :=
    FileTree.kind?_append_of_none nothing more
  refine ⟨fun kind held => ?_, fun contents held => ?_⟩
  · rw [none] at held
    cases held
  · by_cases directory : ∃ entries, files.root.find? here = some (.directory entries)
    · obtain ⟨entries, found⟩ := directory
      rw [kind?, List.append_assoc, List.singleton_append, FileTree.kind?_place found] at held
      cases more <;> cases held
    · rw [kind?, FileTree.place_of_no_directory (not_exists.mp directory)] at held
      exact held

theorem makeIn_eq_ok {name : Bytes} (present : name ≠ []) (noSlash : Path.separator ∉ name)
    (taken : files.makeIn here name = .ok made) :
    IsName name ∧ files.kind? (here ++ [name]) = none ∧
      made = { files with root := files.root.place (here ++ [name]) .empty } := by
  rw [makeIn] at taken
  split at taken
  case h_1 => cases taken
  case h_2 => cases taken
  case h_3 entries found =>
    split at taken
    case isTrue => cases taken
    case isFalse special =>
      rw [not_or] at special
      split at taken
      case isTrue => cases taken
      case isFalse =>
        split at taken
        case isTrue => cases taken
        case isFalse absent =>
          rw [Bool.not_eq_true, Option.isSome_eq_false_iff, Option.isNone_iff_eq_none] at absent
          refine ⟨⟨present, special.1, special.2, noSlash⟩, ?_, (Except.ok.inj taken).symm⟩
          rw [kind?_child found, absent]
          rfl

theorem makeDirectory_changes (taken : files.makeDirectory path = .ok made) :
    ChangesIn files made nowhere := by
  rw [makeDirectory] at taken
  split at taken
  case h_1 => cases taken
  case h_2 =>
    split at taken
    case h_1 => cases taken
    case h_2 name before cut =>
      split at taken
      case h_1 => cases taken
      case h_2 here followed =>
        have present : name ≠ [] := by
          have head := List.head?_dropWhile_not (· == []) path.segments.reverse
          rw [cut] at head
          simpa using head
        have mem : name ∈ path.segments :=
          List.mem_reverse.mp ((List.dropWhile_sublist _).subset (cut ▸ List.mem_cons_self))
        obtain ⟨isName, nothing, rfl⟩ :=
          makeIn_eq_ok present (not_mem_of_mem_pieces Path.separator mem) taken
        exact ⟨rfl, fun proper => proper.place isName FileTree.proper_empty,
          fun place _ => keeps_place_empty nothing place⟩

theorem settle_changes (files : FileSystem) (path : Path) :
    ChangesIn files (files.settle path (files.makeDirectory path)).2 nowhere := by
  cases making : files.makeDirectory path with
  | ok made => exact makeDirectory_changes making
  | error => exact .refl files nowhere

theorem ensureFirst_changes (files : FileSystem) (paths : List Path) :
    ChangesIn files (files.ensureFirst paths).2 nowhere := by
  induction paths generalizing files with
  | nil => exact .refl files nowhere
  | cons path parents ih =>
    have before := ih files
    rw [ensureFirst]
    split
    case h_1 =>
      split
      case h_1 making =>
        rw [making] at before
        exact before
      case h_2 left making =>
        rw [making] at before
        exact before.trans (settle_changes left path)
    case h_2 => exact settle_changes files path

/-- Made or not, with all that was made on the way. -/
theorem makeDirectories_changes {result : Except IoError Unit}
    (making : files.makeDirectories path = (result, left)) : ChangesIn files left nowhere := by
  have changes := ensureFirst_changes files path.ancestors
  rw [makeDirectories] at making
  rwa [making] at changes

end

/-! ## Writing files -/

section
variable {files written : FileSystem} {path : Path} {contents : Bytes}

theorem writeIn_eq_ok {here : List Bytes} {name : Bytes} (present : name ≠ [])
    (noSlash : Path.separator ∉ name) (taken : files.writeIn here name contents = .ok written) :
    IsName name ∧ (∃ entries, files.root.find? here = some (.directory entries)) ∧
      files.kind? (here ++ [name]) ≠ some .directory ∧
      written = { files with root := files.root.place (here ++ [name]) (.file contents) } := by
  rw [writeIn] at taken
  split at taken
  case h_1 => cases taken
  case h_2 => cases taken
  case h_3 entries found =>
    split at taken
    case isTrue => cases taken
    case isFalse special =>
      rw [not_or] at special
      split at taken
      case isTrue => cases taken
      case isFalse =>
        split at taken
        case h_1 => cases taken
        case h_2 noDirectory =>
          refine ⟨⟨present, special.1, special.2, noSlash⟩, ⟨entries, found⟩, ?_,
            (Except.ok.inj taken).symm⟩
          rw [kind?_child found]
          intro directory
          obtain ⟨tree, there, isDirectory⟩ := Option.map_eq_some_iff.mp directory
          cases tree with
          | file => cases isDirectory
          | directory inner => exact noDirectory inner there

/-- A file is written in a directory, in place of nothing or of another file. -/
theorem write_eq_ok (taken : files.write path contents = .ok written) :
    ∃ front name, files.target path = front ++ [name] ∧ IsName name ∧
      (∃ entries, files.root.find? front = some (.directory entries)) ∧
      files.kind? (front ++ [name]) ≠ some .directory ∧
      written = { files with root := files.root.place (front ++ [name]) (.file contents) } := by
  rw [write] at taken
  split at taken
  case h_1 => cases taken
  case h_2 here started =>
    split at taken
    case h_1 => cases taken
    case h_2 name before cut =>
      split at taken
      case h_1 => cases taken
      case h_2 front followed =>
        split at taken
        case isTrue =>
          split at taken
          all_goals cases taken
        case isFalse noSlash =>
          -- the last segment is not empty, so none is dropped from the end
          obtain ⟨front', last, segments⟩ : ∃ front' last, path.segments = front' ++ [last] :=
            ⟨_, _, (List.dropLast_append_getLast (pieces_ne_nil Path.separator path.bytes)).symm⟩
          have present : last ≠ [] := by
            rintro rfl
            rw [segments, List.getLast?_append] at noSlash
            exact noSlash rfl
          rw [segments, List.reverse_append, List.reverse_singleton, List.singleton_append,
            List.dropWhile_cons_of_neg (by simpa using present)] at cut
          obtain ⟨rfl, rfl⟩ := List.cons.inj cut
          rw [List.reverse_reverse] at followed
          have clean : Path.separator ∉ last :=
            not_mem_of_mem_pieces Path.separator
              (segments ▸ List.mem_append_right front' (List.mem_singleton_self last))
          obtain ⟨isName, directory, noDirectory, rfl⟩ := writeIn_eq_ok present clean taken
          refine ⟨front, last, ?_, isName, directory, noDirectory, rfl⟩
          rw [target, Path.walk, segments, List.foldl_append, ← (start_eq_ok started).1,
            ← follow_eq_ok followed]
          exact Path.advance_name isName front

theorem write_holds (taken : files.write path contents = .ok written) :
    written.kind? (files.target path) = some (.file contents) := by
  obtain ⟨front, name, goal, -, ⟨entries, found⟩, -, rfl⟩ := write_eq_ok taken
  rw [goal, kind?, FileTree.kind?_place found]
  rfl

theorem write_changes (taken : files.write path contents = .ok written) :
    ChangesIn files written (· = files.target path) := by
  obtain ⟨front, name, goal, isName, ⟨entries, found⟩, noDirectory, rfl⟩ := write_eq_ok taken
  refine ⟨rfl, fun proper => proper.place isName (.file contents), fun place apart => ?_⟩
  rw [goal] at apart
  by_cases inside : front ++ [name] <+: place
  case neg => exact .of_same (FileTree.kind?_place_outside inside)
  -- below a file nothing stands, and neither did below what stood in its place
  obtain ⟨more, rfl⟩ := inside
  have some : more ≠ [] := by
    rintro rfl
    exact apart (List.append_nil _)
  obtain ⟨next, rest, rfl⟩ := List.exists_cons_of_ne_nil some
  have before : files.kind? (front ++ [name] ++ next :: rest) = none := by
    cases stood : files.root.find? (front ++ [name]) with
    | none =>
      refine FileTree.kind?_append_of_none ?_ _
      rw [FileTree.kind?, stood]
      rfl
    | some tree =>
      rw [kind?, FileTree.kind?_append stood]
      cases tree with
      | file => rfl
      | directory entries =>
        exact absurd (kind?_eq_directory_iff.mpr ⟨entries, stood⟩) noDirectory
  apply Keeps.of_same
  rw [before, kind?, List.append_assoc, List.singleton_append, FileTree.kind?_place found]
  rfl

end

/-! ## Adding -/

theorem add_changes {files made : FileSystem} {path : Path} {contents : Option Bytes}
    (taken : files.add path contents = .ok made) :
    ChangesIn files made fun names => contents ≠ none ∧ names = files.target path := by
  unfold add at taken
  split at taken
  case h_1 =>
    split at taken
    case h_1 => cases taken
    case h_2 making =>
      obtain rfl := Except.ok.inj taken
      exact (makeDirectories_changes making).anywhere
  case h_2 =>
    have changes := ensureFirst_changes files path.ancestors.tail
    split at taken
    case h_1 => cases taken
    case h_2 along making =>
      rw [making] at changes
      refine changes.anywhere.trans ((write_changes taken).mono fun names same => ?_)
      rw [target_congr changes.working] at same
      exact ⟨nofun, same⟩

/-! ## Following again -/

section
variable {files later : FileSystem}

/-- A way that led somewhere still does where everything on it stayed. -/
theorem step_of_stays {here next : List Bytes} {segment : Bytes}
    (taken : files.step here segment = .ok next)
    (stays : files.kind? here = some .directory → later.kind? here = some .directory)
    (reached : files.kind? next ≠ none → later.kind? next ≠ none) :
    later.step here segment = .ok next := by
  obtain ⟨directory, rfl⟩ := step_eq_ok taken
  obtain ⟨entries, found⟩ := kind?_eq_directory_iff.mp directory
  obtain ⟨entries', found'⟩ := kind?_eq_directory_iff.mp (stays directory)
  simp only [step, found, found'] at taken ⊢
  split
  case isTrue special =>
    rw [if_pos special] at taken
    exact taken
  case isFalse special =>
    rw [if_neg special] at taken
    split
    case isTrue back =>
      rw [if_pos back] at taken
      exact taken
    case isFalse back =>
      rw [if_neg back] at taken
      split
      case isTrue long =>
        rw [if_pos long] at taken
        cases taken
      case isFalse long =>
        rw [if_neg long] at taken
        split at taken
        case isTrue => cases taken
        case isFalse present =>
          have goal : Path.advance here segment = here ++ [segment] := by
            rw [Path.advance, if_neg special, if_neg back]
          rw [goal, kind?_child found, kind?_child found'] at reached
          rw [Option.isNone_iff_eq_none] at present
          have there : entries'.lookup segment ≠ none := by
            intro absent
            refine reached ?_ (by rw [absent]; rfl)
            rwa [ne_eq, Option.map_eq_none_iff]
          rw [goal, if_neg (Option.isNone_iff_eq_none.not.mpr there)]

theorem follow_of_stays {here names : List Bytes} {segments : List Bytes}
    (taken : files.follow here segments = .ok names)
    (stays : ∀ front, front <+: segments → ∀ kind,
      files.kind? (front.foldl Path.advance here) = some kind →
        later.kind? (front.foldl Path.advance here) = some kind) :
    later.follow here segments = .ok names := by
  induction segments generalizing here with
  | nil => exact taken
  | cons segment rest ih =>
    rw [follow] at taken ⊢
    split at taken
    case h_1 => cases taken
    case h_2 next stepped =>
      have reached : files.kind? next ≠ none → later.kind? next ≠ none := by
        intro some
        obtain ⟨kind, held⟩ := Option.ne_none_iff_exists'.mp some
        have step := (step_eq_ok stepped).2
        have kept := stays [segment] (List.prefix_append [segment] rest) kind
        rw [List.foldl_cons, List.foldl_nil, ← step] at kept
        rw [kept held]
        nofun
      have again := step_of_stays stepped (stays [] List.nil_prefix .directory) reached
      rw [again]
      refine ih taken fun front isFront kind held => ?_
      have kept := stays (segment :: front) (List.cons_prefix_cons.mpr ⟨rfl, isFront⟩) kind
      rw [List.foldl_cons, ← (step_eq_ok stepped).2] at kept
      exact kept held

theorem read_of_stays {path : Path} {contents : Bytes} (working : later.working = files.working)
    (taken : files.read path = .ok contents)
    (stays : ∀ place, path.Passes (files.origin path) place → ∀ kind,
      files.kind? place = some kind → later.kind? place = some kind) :
    later.read path = .ok contents := by
  rw [read] at taken
  split at taken
  case h_1 => cases taken
  case h_2 => cases taken
  case h_3 held found =>
    obtain rfl := Except.ok.inj taken
    obtain ⟨located, there⟩ := find_eq_ok found
    rw [locate] at located
    split at located
    case h_1 => cases located
    case h_2 here started =>
      have started' : later.start path = .ok here := by
        rw [start] at started ⊢
        rw [working]
        exact started
      obtain ⟨rfl, -⟩ := start_eq_ok started
      have followed : later.follow (files.origin path) path.segments = .ok (files.target path) :=
        follow_of_stays located fun front isFront => stays _ ⟨front, isFront, rfl⟩
      have file := stays _ ⟨path.segments, List.prefix_rfl, rfl⟩ _ (kind?_eq_file_iff.mpr there)
      have there' : later.root.find? (files.target path) = some (.file held) :=
        kind?_eq_file_iff.mp file
      simp only [read, find, locate, started', followed, there']

end

end LinkGate.FileSystem
