import Mathlib.Data.List.Pairwise

/-!
# Stable sorting

What does not depend on the items: in a sorted list those that are equal in the order stand as they
were given, which decides all places.
-/

set_option autoImplicit false

namespace LinkGate
variable {α : Type}

theorem isLE_total (cmp : α → α → Ordering) [Std.OrientedCmp cmp] (a b : α) :
    ((cmp a b).isLE || (cmp b a).isLE) = true := by
  have turned : cmp b a = (cmp a b).swap := Std.OrientedCmp.eq_swap
  rw [turned]
  cases cmp a b <;> rfl

section
variable {le : α → α → Bool}
  (trans : ∀ a b c, le a b = true → le b c = true → le a c = true)
  (total : ∀ a b, (le a b || le b a) = true)
include trans total

/-- Items that are equal in the order keep the order that they had. -/
theorem filter_mergeSort (items : List α) {p : α → Bool}
    (alike : ∀ a b, p a = true → p b = true → le a b = true) :
    (items.mergeSort le).filter p = items.filter p := by
  have kept : (items.filter p).Pairwise fun a b => le a b = true := by
    apply List.pairwise_of_forall_mem_list
    intro a memberA b memberB
    exact alike a b (List.mem_filter.mp memberA).2 (List.mem_filter.mp memberB).2
  have inside := (List.sublist_mergeSort trans total kept List.filter_sublist).filter p
  simp only [List.filter_filter, Bool.and_self] at inside
  have count := ((List.mergeSort_perm items le).filter p).length_eq
  exact (inside.eq_of_length count.symm).symm

/-- Where no two items are equal in the order, it decides their places. -/
theorem mergeSort_eq_of_perm {items others : List α} (permuted : others.Perm items)
    (apart : ∀ a ∈ items, ∀ b ∈ items, le a b = true → le b a = true → a = b) :
    others.mergeSort le = items.mergeSort le := by
  have same : (others.mergeSort le).Perm (items.mergeSort le) :=
    ((List.mergeSort_perm others le).trans permuted).trans (List.mergeSort_perm items le).symm
  refine same.eq_of_pairwise ?_ (List.pairwise_mergeSort trans total others)
    (List.pairwise_mergeSort trans total items)
  intro a b memberA memberB
  rw [List.mem_mergeSort] at memberA memberB
  exact apart a (permuted.mem_iff.mp memberA) b memberB

end

section
variable {κ : Type} [DecidableEq κ] (key : α → κ) {notAfter : α → α → Prop}
  (antisymm : ∀ a b, notAfter a b → notAfter b a → key a = key b)
include antisymm

/-- Two ordered lists are the same, if those with the same key stand alike in both. -/
theorem eq_of_ordered {items again : List α} (permuted : items.Perm again)
    (ordered : items.Pairwise notAfter) (orderedAgain : again.Pairwise notAfter)
    (alike : ∀ a ∈ items, items.filter (fun b => key b = key a) =
      again.filter fun b => key b = key a) : items = again := by
  induction items generalizing again with
  | nil => exact permuted.nil_eq
  | cons a rest ih =>
    cases again with
    | nil => exact absurd permuted.symm.nil_eq nofun
    | cons b others =>
      have same : key b = key a := by
        -- unless the heads are one item, both come first in their order
        rcases List.mem_cons.mp (permuted.mem_iff.mpr List.mem_cons_self) with one | later
        · rw [one]
        rcases List.mem_cons.mp (permuted.mem_iff.mp List.mem_cons_self) with one | laterAgain
        · rw [one]
        exact antisymm b a ((List.pairwise_cons.mp orderedAgain).1 a laterAgain)
          ((List.pairwise_cons.mp ordered).1 b later)
      have heads := alike a List.mem_cons_self
      rw [List.filter_cons_of_pos (by simp), List.filter_cons_of_pos (by simp [same])] at heads
      obtain ⟨rfl, -⟩ := List.cons.inj heads
      rw [ih permuted.cons_inv ordered.of_cons orderedAgain.of_cons]
      intro c member
      have both := alike c (List.mem_cons_of_mem a member)
      rw [List.filter_cons, List.filter_cons] at both
      split at both
      · exact (List.cons.inj both).2
      · exact both

end

end LinkGate
