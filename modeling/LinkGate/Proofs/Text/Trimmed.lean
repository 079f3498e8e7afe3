import LinkGate.Text.Blank
import Mathlib.Data.List.Basic
import Mathlib.Data.List.TakeWhile

/-!
# Texts without the blanks around them

`Padded core text` says that a text is another one with white space around it, and `Bare core` that
there is none left to take off.  Every text is padded around one bare text and no other, and `trim`
finds it.
-/

set_option autoImplicit false

namespace LinkGate

/-- The characters that have the property White_Space. -/
def whiteSpace : List Char :=
  ['\x09', '\x0A', '\x0B', '\x0C', '\x0D', '\x20', '\x85', '\xA0', '\u1680', '\u2000', '\u2001',
    '\u2002', '\u2003', '\u2004', '\u2005', '\u2006', '\u2007', '\u2008', '\u2009', '\u200A',
    '\u2028', '\u2029', '\u202F', '\u205F', '\u3000']

/-- White space, then the core, then white space again; either may be nothing. -/
def Padded (core text : String) : Prop :=
  ∃ front back : List Char, text.toList = front ++ core.toList ++ back ∧
    (∀ c ∈ front, c ∈ whiteSpace) ∧ ∀ c ∈ back, c ∈ whiteSpace

/-- Neither the first nor the last character is white space. -/
def Bare (core : String) : Prop :=
  (∀ c ∈ core.toList.head?, c ∉ whiteSpace) ∧ ∀ c ∈ core.toList.getLast?, c ∉ whiteSpace

theorem isBlank_iff {c : Char} : isBlank c = true ↔ c ∈ whiteSpace := by
  have byNumber : c ∈ whiteSpace ↔ c.toNat ∈ whiteSpace.map Char.toNat :=
    (List.mem_map_of_injective fun _ _ same => Char.toNat_inj.mp same).symm
  have numbers : whiteSpace.map Char.toNat = [0x09, 0x0A, 0x0B, 0x0C, 0x0D, 0x20, 0x85, 0xA0,
      0x1680, 0x2000, 0x2001, 0x2002, 0x2003, 0x2004, 0x2005, 0x2006, 0x2007, 0x2008, 0x2009,
      0x200A, 0x2028, 0x2029, 0x202F, 0x205F, 0x3000] := by decide
  rw [byNumber, numbers]
  simp only [isBlank, List.mem_cons, List.not_mem_nil, or_false, Bool.or_eq_true, Bool.and_eq_true,
    decide_eq_true_eq, beq_iff_eq]
  omega

theorem not_isBlank_iff {c : Char} : isBlank c = false ↔ c ∉ whiteSpace := by
  rw [← isBlank_iff, Bool.not_eq_true]

/-- Blanks in front are dropped as far as the first character that is none. -/
theorem dropWhile_isBlank {front core back : List Char} (blank : ∀ c ∈ front, c ∈ whiteSpace)
    (first : ∀ c ∈ core.head?, c ∉ whiteSpace) (some : core ≠ []) :
    (front ++ core ++ back).dropWhile isBlank = core ++ back := by
  obtain ⟨c, rest, rfl⟩ := List.exists_cons_of_ne_nil some
  have shown : isBlank c = false := not_isBlank_iff.mpr (first c rfl)
  rw [List.append_assoc, List.dropWhile_append_of_pos fun c member =>
    isBlank_iff.mpr (blank c member)]
  rw [List.cons_append, List.dropWhile_cons_of_neg (by rw [shown]; exact Bool.false_ne_true)]

theorem Bare.trim_eq {core text : String} (bare : Bare core) (padded : Padded core text) :
    trim text = core := by
  obtain ⟨front, back, parts, blankFront, blankBack⟩ := padded
  rw [← String.toList_inj, trim, String.toList_ofList, trimEnd, parts]
  by_cases empty : core.toList = []
  · have blank : ∀ c ∈ front ++ back, isBlank c = true := by
      intro c member
      rcases List.mem_append.mp member with there | there
      · exact isBlank_iff.mpr (blankFront c there)
      · exact isBlank_iff.mpr (blankBack c there)
    rw [empty, List.append_nil, List.dropWhile_eq_nil_iff.mpr blank]
    rfl
  · have backward : (core.toList ++ back).reverse = back.reverse ++ core.toList.reverse ++ [] := by
      rw [List.reverse_append, List.append_nil]
    rw [dropWhile_isBlank blankFront bare.1 empty, backward, dropWhile_isBlank
      (fun c member => blankBack c (List.mem_reverse.mp member))
      (List.head?_reverse ▸ bare.2) (List.reverse_ne_nil_iff.mpr empty),
      List.append_nil, List.reverse_reverse]

theorem padded_trim (text : String) : Padded (trim text) text := by
  refine ⟨text.toList.takeWhile isBlank,
    ((text.toList.dropWhile isBlank).reverse.takeWhile isBlank).reverse, ?_, ?_, ?_⟩
  · rw [trim, String.toList_ofList, trimEnd, List.append_assoc, ← List.reverse_append,
      List.takeWhile_append_dropWhile, List.reverse_reverse, List.takeWhile_append_dropWhile]
  · intro c member
    exact isBlank_iff.mp (List.mem_takeWhile_imp member)
  · intro c member
    exact isBlank_iff.mp (List.mem_takeWhile_imp (List.mem_reverse.mp member))

theorem head?_dropWhile_isBlank (chars : List Char) :
    ∀ c ∈ (chars.dropWhile isBlank).head?, c ∉ whiteSpace := by
  intro c first
  have kept := List.head?_dropWhile_not isBlank chars
  rw [Option.mem_def.mp first] at kept
  exact not_isBlank_iff.mp kept

theorem bare_trim (text : String) : Bare (trim text) := by
  rw [Bare, trim, String.toList_ofList, trimEnd, List.head?_reverse, List.getLast?_reverse]
  refine ⟨?_, head?_dropWhile_isBlank _⟩
  -- What is left begins as it did before blanks were taken off its end.
  intro c first
  apply head?_dropWhile_isBlank text.toList c
  have suffix := List.dropWhile_suffix isBlank (l := (text.toList.dropWhile isBlank).reverse)
  obtain ⟨taken, whole⟩ := suffix
  rw [← List.getLast?_reverse, ← whole]
  exact List.mem_getLast?_append_of_mem_getLast? first

/-- A bare text stands in another when it is what trimming leaves of it. -/
theorem Bare.padded_iff {core text : String} (bare : Bare core) :
    Padded core text ↔ trim text = core :=
  ⟨bare.trim_eq, fun same => same ▸ padded_trim text⟩

theorem bare_iff_trim_eq {core : String} : Bare core ↔ trim core = core := by
  constructor
  · intro bare
    exact bare.trim_eq ⟨[], [], by simp⟩
  · intro same
    exact same ▸ bare_trim core

instance (core : String) : Decidable (Bare core) :=
  decidable_of_iff _ bare_iff_trim_eq.symm

end LinkGate
