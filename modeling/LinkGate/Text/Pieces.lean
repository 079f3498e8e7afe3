/-!
# Pieces between separators

A list is cut at every occurrence of a separator, so that it has one piece more than separators, and
putting separators between the pieces gives the list again.
-/

set_option autoImplicit false

namespace LinkGate

/-- The runs between separators, empty ones included. -/
def pieces {α : Type} [DecidableEq α] (separator : α) : List α → List (List α)
  | [] => [[]]
  | a :: rest =>
    if a = separator then [] :: pieces separator rest
    else
      match pieces separator rest with
      | [] => [[a]]
      | piece :: more => (a :: piece) :: more

end LinkGate
