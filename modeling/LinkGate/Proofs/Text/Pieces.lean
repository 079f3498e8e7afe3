import LinkGate.Text.Pieces
import Mathlib.Data.List.Basic

/-!
# Pieces of lists

The pieces of a list that is put together at a separator are those of its parts, and no piece has
the separator in it.
-/

set_option autoImplicit false

namespace LinkGate
variable {α : Type} [DecidableEq α] (separator : α)

theorem pieces_ne_nil (items : List α) : pieces separator items ≠ [] := by
  cases items with
  | nil => exact List.cons_ne_nil _ _
  | cons a rest =>
    rw [pieces]
    split
    case isTrue => exact List.cons_ne_nil _ _
    case isFalse => split <;> exact List.cons_ne_nil _ _

theorem pieces_append (front back : List α) :
    pieces separator (front ++ separator :: back) =
      pieces separator front ++ pieces separator back := by
  induction front with
  | nil => simp only [List.nil_append, pieces, if_true, List.singleton_append]
  | cons a front ih =>
    rw [List.cons_append, pieces, pieces, ih]
    split
    case isTrue => rfl
    case isFalse =>
      obtain ⟨piece, more, cut⟩ := List.exists_cons_of_ne_nil (pieces_ne_nil separator front)
      rw [cut]
      rfl

theorem pieces_of_not_mem {items : List α} (absent : separator ∉ items) :
    pieces separator items = [items] := by
  induction items with
  | nil => rfl
  | cons a rest ih =>
    rw [List.mem_cons, not_or] at absent
    rw [pieces, if_neg (Ne.symm absent.1), ih absent.2]

theorem not_mem_of_mem_pieces {items piece : List α} (mem : piece ∈ pieces separator items) :
    separator ∉ piece := by
  induction items generalizing piece with
  | nil =>
    rw [List.mem_singleton.mp mem]
    exact List.not_mem_nil
  | cons a rest ih =>
    rw [pieces] at mem
    split at mem
    case isTrue =>
      rcases List.mem_cons.mp mem with rfl | later
      · exact List.not_mem_nil
      · exact ih later
    case isFalse other =>
      split at mem
      case h_1 =>
        rw [List.mem_singleton.mp mem, List.mem_singleton]
        exact Ne.symm other
      case h_2 first more cut =>
        rw [cut] at ih
        rcases List.mem_cons.mp mem with rfl | later
        · rw [List.mem_cons, not_or]
          exact ⟨Ne.symm other, ih List.mem_cons_self⟩
        · exact ih (List.mem_cons_of_mem first later)

end LinkGate
