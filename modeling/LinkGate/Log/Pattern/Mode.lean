import LinkGate.Text.Blank

/-!
# Modes of a pattern

Flags in a pattern set how what follows is read: whether characters beyond ASCII are meant, whether
the case of letters matters, and whether blanks and comments may stand between the parts.
-/

set_option autoImplicit false

namespace LinkGate

namespace Pattern

/-- What flags have set for some part of a pattern.  Other flags do not bear on whether a text is a
pattern. -/
structure Mode where
  unicode : Bool := true
  ignoreCase : Bool := false
  spaced : Bool := false
  deriving DecidableEq, Repr

/-- Passes over blanks and comments.  A comment goes from a number sign to the end of its line. -/
def skipBlanks (inComment : Bool) : List Char → List Char
  | [] => []
  | c :: rest =>
    if inComment then skipBlanks (c != '\n') rest
    else if c = '#' then skipBlanks true rest
    else if isBlank c then skipBlanks false rest
    else c :: rest

namespace Mode

def skip (mode : Mode) (text : List Char) : List Char :=
  if mode.spaced then skipBlanks false text else text

/-- The character that tells what a dash in front of the text means.  Behind one number sign it is
looked for in the comment itself, and where there are only blanks it is the first of them. -/
def ahead? (mode : Mode) (text : List Char) : Option Char :=
  if mode.spaced then
    match text.dropWhile isBlank with
    | '#' :: comment => (comment.dropWhile isBlank).head?.or text.head?
    | rest => rest.head?.or text.head?
  else text.head?

/-- The mode that flags change another to: those behind a dash are turned off. -/
def flagged? (mode : Mode) (flags : List Char) : Option Mode :=
  let letters := flags.filter (· != '-')
  let on := flags.takeWhile (· != '-')
  let off := flags.drop on.length
  let set (flag : Char) (before : Bool) : Bool := flag ∈ on || (before && !(flag ∈ off))
  if letters.all (· ∈ ['i', 'm', 's', 'U', 'u', 'R', 'x']) ∧ letters.Nodup ∧
      flags.count '-' ≤ 1 ∧ flags.getLast? ≠ some '-' then
    some ⟨set 'u' mode.unicode, set 'i' mode.ignoreCase, set 'x' mode.spaced⟩
  else none

end Mode

end Pattern

end LinkGate
