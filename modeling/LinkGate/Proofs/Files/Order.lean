import LinkGate.Proofs.Files.Path
import LinkGate.Proofs.Sorting

/-!
# The order of paths

Paths are in the order of their components, read from the front: the first that differs decides, and
a path comes before those that go on behind it (`Before`).  Spellings do not count: two paths are
equal in the order when they have the same components, and a slash too many or a dot between slashes
makes no component.
-/

set_option autoImplicit false

namespace LinkGate

/-- The first items that differ decide, in the order that `cmp` gives them by way of `f`. -/
theorem compareLex_map_eq_lt_iff {α β : Type} {cmp : α → α → Ordering} {f : β → α}
    {before : β → β → Prop} (lt : ∀ a b, cmp (f a) (f b) = .lt ↔ before a b)
    (eq : ∀ a b, cmp (f a) (f b) = .eq ↔ a = b) (items others : List β) :
    List.compareLex cmp (items.map f) (others.map f) = .lt ↔ List.Lex before items others := by
  induction items generalizing others with
  | nil =>
    cases others with
    | nil => exact iff_of_false nofun nofun
    | cons other others => exact iff_of_true rfl .nil
  | cons item items ih =>
    cases others with
    | nil => exact iff_of_false nofun nofun
    | cons other others =>
      rw [List.map_cons, List.map_cons, List.compareLex_cons_cons, Ordering.then_eq_lt,
        List.cons_lex_cons_iff, ih, lt, eq]

namespace Path

/-! ## Components -/

theorem compareNames_eq_lt_iff {name other : Bytes} :
    compareNames name other = .lt ↔ name < other :=
  compareLex_map_eq_lt_iff (fun _ _ => Nat.compare_eq_lt.trans UInt8.lt_iff_toNat_lt.symm)
    (fun _ _ => Nat.compare_eq_eq.trans UInt8.toNat_inj) name other

theorem isLE_compareNames_iff {name other : Bytes} :
    (compareNames name other).isLE ↔ name ≤ other := by
  have turned : compareNames other name = (compareNames name other).swap :=
    @Std.OrientedCmp.eq_swap _ (List.compareLex Ord.compare) _ _ _
  rw [← List.not_lt, ← compareNames_eq_lt_iff, turned]
  cases compareNames name other <;> decide

namespace Component

/-- The root, then a dot, then two dots, then names. -/
def place : Component → Nat
  | root => 0
  | current => 1
  | parent => 2
  | name _ => 3

/-- Names are in the order of their bytes. -/
def Before : Component → Component → Prop
  | name one, name two => one < two
  | one, two => one.place < two.place

theorem compare_rank_eq_lt_iff (one two : Component) :
    List.compareLex Ord.compare one.rank two.rank = .lt ↔ one.Before two := by
  have names (one two : Bytes) : List.compareLex Ord.compare (one.map UInt8.toNat)
      (two.map UInt8.toNat) = .lt ↔ one < two := compareNames_eq_lt_iff
  cases one <;> cases two <;>
    simp [rank, List.compareLex_cons_cons, List.compareLex_nil_nil, Ordering.then_eq_lt,
      Nat.compare_eq_lt, names, Before, place]

theorem rank_injective : Function.Injective rank := by
  intro one two same
  cases one <;> cases two <;> first
    | rfl
    | exact absurd (List.cons.inj same).1 (by decide)
    | exact congrArg name (List.map_injective_iff.mpr
        (fun _ _ => UInt8.toNat_inj.mp) (List.cons.inj same).2)

theorem compare_rank_eq_eq_iff (one two : Component) :
    List.compareLex Ord.compare one.rank two.rank = .eq ↔ one = two :=
  Std.LawfulEqCmp.compare_eq_iff_eq.trans rank_injective.eq_iff

end Component

/-! ## Paths -/

/-- The first components that differ decide. -/
def Before (a b : Path) : Prop :=
  List.Lex Component.Before a.components b.components

def NotAfter (a b : Path) : Prop :=
  a.components = b.components ∨ a.Before b

section
variable {a b : Path}

theorem compare_eq_lt_iff : a.compare b = .lt ↔ a.Before b :=
  compareLex_map_eq_lt_iff Component.compare_rank_eq_lt_iff Component.compare_rank_eq_eq_iff _ _

theorem compare_eq_eq_iff : a.compare b = .eq ↔ a.components = b.components := by
  rw [compare, Std.LawfulEqCmp.compare_eq_iff_eq]
  exact List.map_inj_right fun _ _ => Component.rank_injective.eq_iff.mp

theorem le_iff : a.le b = true ↔ a.NotAfter b := by
  rw [le, NotAfter, ← compare_eq_eq_iff, ← compare_eq_lt_iff]
  cases a.compare b <;> simp

instance : DecidableRel NotAfter :=
  fun _ _ => decidable_of_iff _ le_iff

theorem le_trans (a b c : Path) (one : a.le b = true) (two : b.le c = true) : a.le c = true :=
  @Std.TransCmp.isLE_trans _ (List.compareLex (List.compareLex Ord.compare)) _ _ _ _ one two

theorem le_total (a b : Path) : (a.le b || b.le a) = true :=
  isLE_total (List.compareLex (List.compareLex Ord.compare)) _ _

theorem components_eq_of_le (one : a.le b = true) (two : b.le a = true) :
    a.components = b.components := by
  rw [← compare_eq_eq_iff]
  exact @Std.OrientedCmp.isLE_antisymm _ (List.compareLex (List.compareLex Ord.compare)) _ _ _
    one two

theorem notAfter_total (a b : Path) : a.NotAfter b ∨ b.NotAfter a := by
  rw [← le_iff, ← le_iff, ← Bool.or_eq_true]
  exact le_total a b

theorem NotAfter.trans {c : Path} (one : a.NotAfter b) (two : b.NotAfter c) : a.NotAfter c :=
  le_iff.mp (le_trans a b c (le_iff.mpr one) (le_iff.mpr two))

theorem NotAfter.components_eq (one : a.NotAfter b) (two : b.NotAfter a) :
    a.components = b.components :=
  components_eq_of_le (le_iff.mpr one) (le_iff.mpr two)

theorem sort_ordered (paths : List Path) : (sort paths).Pairwise fun a b => a.le b :=
  List.pairwise_mergeSort le_trans le_total paths

theorem Before.components_ne (before : a.Before b) : a.components ≠ b.components := by
  rw [Ne, ← compare_eq_eq_iff, compare_eq_lt_iff.mpr before]
  decide

/-- Paths that ascend are left where they are. -/
theorem sort_of_ascending {paths : List Path} (ascending : paths.Pairwise Before) :
    sort paths = paths :=
  List.mergeSort_of_pairwise (ascending.imp fun before => le_iff.mpr (.inr before))

end

/-! ## Spellings -/

section
variable (front back : Bytes)

theorem components_append :
    components ⟨front ++ separator :: back⟩ =
      (if front = [] then [.root] else components ⟨front⟩) ++
        (pieces separator back).filterMap Component.ofSegment? := by
  rw [components, segments, pieces_append, List.filterMap_append]
  cases front with
  | nil => rfl
  | cons b front =>
    obtain ⟨first, more, cut⟩ :=
      List.exists_cons_of_ne_nil (pieces_ne_nil separator (b :: front))
    rw [if_neg (List.cons_ne_nil b front), components, segments, cut, ← List.append_assoc]
    rfl

/-- A second slash behind a slash does not count. -/
theorem components_slashes :
    components ⟨front ++ separator :: separator :: back⟩ =
      components ⟨front ++ separator :: back⟩ := by
  rw [components_append, components_append]
  rfl

/-- Nor does a dot between slashes. -/
theorem components_inner_dot :
    components ⟨front ++ separator :: (dot ++ separator :: back)⟩ =
      components ⟨front ++ separator :: back⟩ := by
  rw [components_append, components_append, pieces_append]
  rfl

/-- Nor does a slash at the end, unless it is the root. -/
theorem components_last_slash {front : Bytes} (present : front ≠ []) :
    components ⟨front ++ [separator]⟩ = components ⟨front⟩ := by
  rw [components_append, if_neg present]
  exact List.append_nil _

end

/-! ## Names behind a path -/

section
variable {name : Bytes} (isName : IsName name)
include isName

theorem filterMap_name :
    (pieces separator name).filterMap Component.ofSegment? = [.name name] := by
  rw [pieces_of_not_mem separator isName.noSlash]
  simp [Component.ofSegment?, isName.present, isName.noDot, isName.noDots]

theorem components_name : components ⟨name⟩ = [.name name] := by
  rw [components, isAbsolute_name isName, segments, filterMap_name isName,
    pieces_of_not_mem separator isName.noSlash]
  simp [isName.noDot]

theorem components_join (base : Path) :
    (base.join ⟨name⟩).components = base.components ++ [.name name] := by
  obtain ⟨base⟩ := base
  rw [join, if_neg (Bool.eq_false_iff.mp (isAbsolute_name isName))]
  by_cases empty : base = []
  · subst empty
    exact components_name isName
  by_cases slash : base.getLast? = some separator
  · obtain ⟨front, rfl⟩ := List.getLast?_eq_some_iff.mp slash
    rw [if_pos (.inr slash), List.append_assoc, List.singleton_append, components_append,
      filterMap_name isName, components_append]
    simp [pieces, Component.ofSegment?]
  · rw [if_neg (not_or.mpr ⟨fun none => empty (List.isEmpty_iff.mp none), slash⟩),
      components_append, if_neg empty, filterMap_name isName]

end

theorem components_below {names : List Bytes} (all : ∀ name ∈ names, IsName name) (base : Path) :
    (base.below names).components = base.components ++ names.map .name := by
  induction names generalizing base with
  | nil => exact (List.append_nil _).symm
  | cons name rest ih =>
    obtain ⟨isName, later⟩ := List.forall_mem_cons.mp all
    rw [below, List.foldl_cons, ← below, ih later, components_join isName, List.append_assoc,
      List.singleton_append, List.map_cons]

end Path

end LinkGate
