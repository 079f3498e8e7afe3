import Mathlib.Data.List.Flatten
import Mathlib.Data.List.Forall2
import Mathlib.Data.List.Perm.Subperm

/-!
# Lists

What is kept of a list and where it stood (`keptAt`), items in pairs, and lists that hold all items
of another, in whatever order.
-/

set_option autoImplicit false

namespace LinkGate
variable {α β : Type}

theorem filterMap_cons_toList (f : α → Option β) (x : α) (rest : List α) :
    (x :: rest).filterMap f = (f x).toList ++ rest.filterMap f := by
  cases found : f x <;> simp [found]

theorem exists_of_forall₂ {R : α → β → Prop} {items : List α} {others : List β}
    (paired : List.Forall₂ R items others) : ∀ a ∈ items, ∃ b ∈ others, R a b := by
  induction paired with
  | nil => simp
  | cons first _ ih =>
    rw [List.forall_mem_cons]
    refine ⟨⟨_, List.mem_cons_self, first⟩, fun a member => ?_⟩
    obtain ⟨b, other, related⟩ := ih a member
    exact ⟨b, List.mem_cons_of_mem _ other, related⟩

theorem exists_split {items : List α} {count : Nat} (inside : count < items.length) :
    ∃ front item back, items = front ++ item :: back ∧ front.length = count := by
  refine ⟨items.take count, items[count], items.drop (count + 1), ?_, ?_⟩
  · rw [← List.drop_eq_getElem_cons inside, List.take_append_drop]
  · exact List.length_take_of_le (Nat.le_of_lt inside)

/-! ## Positions -/

/-- Where the items stand that `f` keeps, first to last. -/
def keptAt (f : α → Option β) (items : List α) : List Nat :=
  (List.range items.length).filter fun position => (items[position]?.bind f).isSome

theorem mem_keptAt {f : α → Option β} {items : List α} {position : Nat} :
    position ∈ keptAt f items ↔ ∃ item kept, items[position]? = some item ∧ f item = some kept := by
  rw [keptAt, List.mem_filter, List.mem_range, Option.isSome_iff_exists]
  simp only [Option.bind_eq_some_iff]
  constructor
  · rintro ⟨_, kept, item, here, keeps⟩
    exact ⟨item, kept, here, keeps⟩
  · rintro ⟨item, kept, here, keeps⟩
    exact ⟨(List.getElem?_eq_some_iff.mp here).1, kept, item, here, keeps⟩

theorem pairwise_keptAt (f : α → Option β) (items : List α) :
    (keptAt f items).Pairwise (· < ·) :=
  List.pairwise_lt_range.filter _

theorem keptAt_cons (f : α → Option β) (item : α) (rest : List α) :
    keptAt f (item :: rest) =
      (if (f item).isSome then [0] else []) ++ (keptAt f rest).map Nat.succ := by
  rw [keptAt, List.length_cons, List.range_succ_eq_map, List.filter_cons, List.filter_map]
  cases found : f item <;> simp [keptAt, Function.comp_def, found]

theorem forall₂_keptAt (f : α → Option β) (items : List α) :
    List.Forall₂ (fun position kept => ∃ item, items[position]? = some item ∧ f item = some kept)
      (keptAt f items) (items.filterMap f) := by
  induction items with
  | nil => exact .nil
  | cons item rest ih =>
    have later : List.Forall₂
        (fun position kept => ∃ other, (item :: rest)[position]? = some other ∧ f other = some kept)
        ((keptAt f rest).map Nat.succ) (rest.filterMap f) := by
      rw [List.forall₂_map_left_iff]
      exact ih
    rw [keptAt_cons, filterMap_cons_toList]
    cases found : f item with
    | none => exact later
    | some kept => exact .cons ⟨item, rfl, found⟩ later

/-! ## Lists with all items of another -/

theorem subperm_filterMap (f : α → Option β) {items more : List α} (inside : items.Subperm more) :
    (items.filterMap f).Subperm (more.filterMap f) := by
  obtain ⟨part, permuted, sublist⟩ := inside
  exact ⟨part.filterMap f, permuted.filterMap f, sublist.filterMap f⟩

theorem subperm_flatMap_right {f g : α → List β} {items : List α}
    (each : ∀ a ∈ items, (f a).Subperm (g a)) :
    (items.flatMap f).Subperm (items.flatMap g) := by
  induction items with
  | nil => exact List.nil_subperm
  | cons a rest ih =>
    rw [List.forall_mem_cons] at each
    rw [List.flatMap_cons, List.flatMap_cons]
    exact each.1.append (ih each.2)

theorem subperm_flatMap {f g : α → List β} {items more : List α} (inside : items.Subperm more)
    (each : ∀ a ∈ items, (f a).Subperm (g a)) :
    (items.flatMap f).Subperm (more.flatMap g) := by
  obtain ⟨part, permuted, sublist⟩ := inside
  have first : (items.flatMap f).Subperm (part.flatMap f) :=
    (permuted.symm.flatMap_right f).subperm
  have second : (part.flatMap f).Subperm (part.flatMap g) :=
    subperm_flatMap_right fun a member => each a (permuted.mem_iff.mp member)
  exact (first.trans second).trans (sublist.flatMap g).subperm

end LinkGate
