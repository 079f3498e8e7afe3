import LinkGate.Proofs.Files.Tree
import LinkGate.Proofs.Text.Pieces

/-!
# Where paths lead

Each segment of a path leads on from a place, if there is a way at all (`advance`).  Joining paths
puts their ways one behind the other, and a path to which names are joined leads to these names
below where it led before.
-/

set_option autoImplicit false

namespace LinkGate

namespace Path

/-! ## Segments -/

/-- The place that a segment leads to. -/
def advance (here : List Bytes) (segment : Bytes) : List Bytes :=
  if segment = [] ∨ segment = dot then here
  else if segment = dots then here.dropLast
  else here ++ [segment]

theorem advance_name {name : Bytes} (isName : IsName name) (here : List Bytes) :
    advance here name = here ++ [name] := by
  rw [advance, if_neg (not_or.mpr ⟨isName.present, isName.noDot⟩), if_neg isName.noDots]

/-- Where a path leads from a place. -/
def walk (path : Path) (here : List Bytes) : List Bytes :=
  path.segments.foldl advance here

/-- The segments that are not empty. -/
def proper (path : Path) : List Bytes :=
  path.segments.filter (· ≠ [])

theorem foldl_advance_filter (segments here : List Bytes) :
    (segments.filter (· ≠ [])).foldl advance here = segments.foldl advance here := by
  induction segments generalizing here with
  | nil => rfl
  | cons segment rest ih =>
    rw [List.filter_cons]
    split
    case isTrue => exact ih (advance here segment)
    case isFalse empty =>
      have none : segment = [] := by simpa using empty
      subst none
      exact ih here

/-- A joined path has the segments of both, but for an empty one at the end of the first. -/
theorem segments_join (base : Path) {path : Path} (relative : path.isAbsolute = false) :
    ∃ front, (base.join path).segments = front ++ path.segments ∧
      front <+: base.segments ∧ front.filter (· ≠ []) = base.proper := by
  rw [join, if_neg (Bool.eq_false_iff.mp relative)]
  by_cases empty : base.bytes = []
  · refine ⟨[], ?_, List.nil_prefix, ?_⟩
    · rw [if_pos (.inl (List.isEmpty_iff.mpr empty)), empty]
      rfl
    · rw [proper, segments, empty]
      rfl
  by_cases slash : base.bytes.getLast? = some separator
  · obtain ⟨front, cut⟩ := List.getLast?_eq_some_iff.mp slash
    have ends : base.segments = pieces separator front ++ [[]] := by
      rw [segments, cut, pieces_append]
      rfl
    refine ⟨pieces separator front, ?_, ?_, ?_⟩
    · rw [if_pos (.inr slash), cut, segments, List.append_assoc, List.singleton_append,
        pieces_append]
      rfl
    · rw [ends]
      exact List.prefix_append _ _
    · rw [proper, ends, List.filter_append]
      simp
  · refine ⟨base.segments, ?_, List.prefix_rfl, rfl⟩
    rw [if_neg (not_or.mpr ⟨fun none => empty (List.isEmpty_iff.mp none), slash⟩), segments,
      pieces_append]
    rfl

theorem proper_join (base : Path) {path : Path} (relative : path.isAbsolute = false) :
    (base.join path).proper = base.proper ++ path.proper := by
  obtain ⟨front, cut, -, same⟩ := base.segments_join relative
  rw [proper, cut, List.filter_append, same]
  rfl

theorem walk_join (base : Path) {path : Path} (relative : path.isAbsolute = false)
    (here : List Bytes) : (base.join path).walk here = path.walk (base.walk here) := by
  rw [walk, ← foldl_advance_filter, walk, ← foldl_advance_filter path.segments, walk,
    ← foldl_advance_filter base.segments, ← List.foldl_append]
  exact congrArg (List.foldl advance here) (base.proper_join relative)

theorem isAbsolute_join (base : Path) {path : Path} (relative : path.isAbsolute = false) :
    (base.join path).isAbsolute = base.isAbsolute := by
  rw [join, if_neg (Bool.eq_false_iff.mp relative)]
  obtain ⟨bytes⟩ := base
  cases bytes with
  | nil => exact relative
  | cons b bytes => split <;> rfl

/-! ## Names behind a path -/

section
variable {segment : Bytes} (noSlash : separator ∉ segment)
include noSlash

theorem isAbsolute_segment : Path.isAbsolute ⟨segment⟩ = false := by
  rw [isAbsolute, beq_eq_false_iff_ne]
  intro front
  exact noSlash (List.mem_of_mem_head? front)

theorem segments_segment : Path.segments ⟨segment⟩ = [segment] :=
  pieces_of_not_mem separator noSlash

theorem walk_segment (here : List Bytes) : Path.walk ⟨segment⟩ here = advance here segment := by
  rw [walk, segments_segment noSlash]
  rfl

end

section
variable {name : Bytes} (isName : IsName name)
include isName

theorem isAbsolute_name : Path.isAbsolute ⟨name⟩ = false :=
  isAbsolute_segment isName.noSlash

theorem proper_name : Path.proper ⟨name⟩ = [name] := by
  rw [proper, segments_segment isName.noSlash]
  simp [isName.present]

theorem walk_name (here : List Bytes) : Path.walk ⟨name⟩ here = here ++ [name] := by
  rw [walk_segment isName.noSlash]
  exact advance_name isName here

end

/-- The path to what stands at the end of some names below a path. -/
def below (base : Path) (names : List Bytes) : Path :=
  names.foldl (fun path name => path.join ⟨name⟩) base

section
variable {names : List Bytes} (all : ∀ name ∈ names, IsName name)
include all

theorem proper_below (base : Path) : (base.below names).proper = base.proper ++ names := by
  induction names generalizing base with
  | nil => exact (List.append_nil _).symm
  | cons name rest ih =>
    obtain ⟨isName, later⟩ := List.forall_mem_cons.mp all
    rw [below, List.foldl_cons, ← below, ih later, proper_join base (isAbsolute_name isName),
      proper_name isName, List.append_assoc, List.singleton_append]

theorem walk_below (base : Path) (here : List Bytes) :
    (base.below names).walk here = base.walk here ++ names := by
  induction names generalizing base with
  | nil => exact (List.append_nil _).symm
  | cons name rest ih =>
    obtain ⟨isName, later⟩ := List.forall_mem_cons.mp all
    rw [below, List.foldl_cons, ← below, ih later, walk_join base (isAbsolute_name isName),
      walk_name isName, List.append_assoc, List.singleton_append]

theorem isAbsolute_below (base : Path) : (base.below names).isAbsolute = base.isAbsolute := by
  induction names generalizing base with
  | nil => rfl
  | cons name rest ih =>
    obtain ⟨isName, later⟩ := List.forall_mem_cons.mp all
    rw [below, List.foldl_cons, ← below, ih later, isAbsolute_join base (isAbsolute_name isName)]

end

/-! ## Bytes -/

section
variable {path : Path} (base : Path) (relative : path.isAbsolute = false)
include relative

/-- Behind a base there is a slash, its own or a new one. -/
theorem separator_mem_join (present : base.bytes ≠ []) : separator ∈ (base.join path).bytes := by
  rw [join, if_neg (Bool.eq_false_iff.mp relative)]
  split
  case isTrue slash =>
    have last := slash.resolve_left fun empty => present (List.isEmpty_iff.mp empty)
    exact List.mem_append_left _ (List.mem_of_getLast? last)
  case isFalse => exact List.mem_append_right _ List.mem_cons_self

theorem bytes_join_ne_nil (present : path.bytes ≠ []) : (base.join path).bytes ≠ [] := by
  rw [join, if_neg (Bool.eq_false_iff.mp relative)]
  split
  case isTrue => exact List.append_ne_nil_of_right_ne_nil _ present
  case isFalse => exact List.append_ne_nil_of_right_ne_nil _ (List.cons_ne_nil _ _)

end

theorem separator_mem_below {base : Path} (present : base.bytes ≠ []) {names : List Bytes}
    (all : ∀ name ∈ names, IsName name) (some : names ≠ []) :
    separator ∈ (base.below names).bytes := by
  induction names generalizing base with
  | nil => exact absurd rfl some
  | cons name rest ih =>
    obtain ⟨isName, later⟩ := List.forall_mem_cons.mp all
    have slash := separator_mem_join base (isAbsolute_name isName) present
    by_cases last : rest = []
    · rw [last]
      exact slash
    · exact ih (List.ne_nil_of_mem slash) later last

/-! ## The way -/

/-- The places that a path leads through, those where it begins and ends among them. -/
def Passes (path : Path) (here place : List Bytes) : Prop :=
  ∃ front, front <+: path.segments ∧ place = front.foldl advance here

variable {path base : Path} {here place : List Bytes}

theorem Passes.of_join (relative : path.isAbsolute = false)
    (passes : (base.join path).Passes here place) :
    base.Passes here place ∨ path.Passes (base.walk here) place := by
  obtain ⟨front, isFront, rfl⟩ := passes
  obtain ⟨first, cut, isFirst, same⟩ := base.segments_join relative
  rw [cut] at isFront
  rcases List.prefix_or_prefix_of_prefix isFront (List.prefix_append first path.segments) with
    within | beyond
  · exact .inl ⟨front, within.trans isFirst, rfl⟩
  · obtain ⟨more, rfl⟩ := beyond
    refine .inr ⟨more, (List.prefix_append_right_inj first).mp isFront, ?_⟩
    rw [List.foldl_append, ← foldl_advance_filter first, same, proper, foldl_advance_filter]
    rfl

theorem Passes.of_join_name {name : Bytes} (isName : IsName name)
    (passes : (base.join ⟨name⟩).Passes here place) :
    base.Passes here place ∨ place = base.walk here ++ [name] := by
  rcases passes.of_join (isAbsolute_name isName) with before | ⟨front, isFront, rfl⟩
  · exact .inl before
  · rw [segments_segment isName.noSlash] at isFront
    rcases List.prefix_cons_iff.mp isFront with rfl | ⟨more, rfl, none⟩
    · exact .inl ⟨base.segments, List.prefix_rfl, rfl⟩
    · rw [List.prefix_nil.mp none, List.foldl_cons, advance_name isName]
      exact .inr rfl

/-- To what stands below a path, the way is that of the path and then goes on below it. -/
theorem Passes.of_below {names : List Bytes} (all : ∀ name ∈ names, IsName name)
    (passes : (base.below names).Passes here place) :
    base.Passes here place ∨ base.walk here <+: place := by
  induction names generalizing base with
  | nil => exact .inl passes
  | cons name rest ih =>
    obtain ⟨isName, later⟩ := List.forall_mem_cons.mp all
    rcases ih later passes with before | below
    · refine (before.of_join_name isName).imp_right ?_
      rintro rfl
      exact List.prefix_append _ _
    · rw [walk_join base (isAbsolute_name isName), walk_name isName] at below
      exact .inr ((List.prefix_append _ _).trans below)

theorem foldl_advance_eq_append {segments : List Bytes} (noDots : dots ∉ segments)
    (here : List Bytes) : segments.foldl advance here = here ++ segments.foldl advance [] := by
  induction segments generalizing here with
  | nil => exact (List.append_nil here).symm
  | cons segment rest ih =>
    rw [List.mem_cons, not_or] at noDots
    rw [List.foldl_cons, List.foldl_cons, ih noDots.2, ih noDots.2 (advance [] segment),
      ← List.append_assoc]
    congr 1
    rw [advance, advance]
    split
    case isTrue => exact (List.append_nil here).symm
    case isFalse => rw [if_neg (Ne.symm noDots.1), if_neg (Ne.symm noDots.1), List.nil_append]

/-- A way has no names but those it begins with and its own. -/
theorem mem_foldl_advance {name : Bytes} {segments here : List Bytes}
    (mem : name ∈ segments.foldl advance here) : name ∈ here ∨ name ∈ segments := by
  induction segments generalizing here with
  | nil => exact .inl mem
  | cons segment rest ih =>
    rcases ih mem with before | later
    case inr => exact .inr (List.mem_cons_of_mem segment later)
    rw [advance] at before
    split at before
    case isTrue => exact .inl before
    case isFalse =>
      split at before
      case isTrue => exact .inl (List.dropLast_subset here before)
      case isFalse =>
        refine (List.mem_append.mp before).imp_right fun last => ?_
        rw [List.mem_singleton.mp last]
        exact List.mem_cons_self

end Path

end LinkGate
