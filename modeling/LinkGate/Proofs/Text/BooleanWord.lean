import LinkGate.Text.BooleanWord

/-!
# Which words stand for which boolean

`booleanWord?` lowers a word and looks it up.  Every word in its lists is lower-case itself, so that
this finds the words that equal a listed one but for the case of ASCII letters, and no word is
listed for both values.
-/

set_option autoImplicit false

namespace LinkGate

/-- Equal but for the case of ASCII letters. -/
def SameWord (a b : String) : Prop :=
  a.toList.map Char.toLower = b.toList.map Char.toLower

def wordsFor : Bool → List String
  | true => ["1", "true", "t", "yes", "y", "on"]
  | false => ["0", "false", "f", "no", "n", "off"]

def Spells (word : String) (value : Bool) : Prop :=
  ∃ entry ∈ wordsFor value, SameWord word entry

theorem sameWord_lower {word entry : String}
    (lower : entry.toList.map Char.toLower = entry.toList) :
    SameWord word entry ↔ String.ofList (word.toList.map Char.toLower) = entry := by
  rw [SameWord, lower, ← String.toList_inj, String.toList_ofList]

theorem wordsFor_lower {value : Bool} {entry : String} (listed : entry ∈ wordsFor value) :
    entry.toList.map Char.toLower = entry.toList := by
  cases value <;> revert entry <;> decide

theorem spells_iff {word : String} {value : Bool} :
    Spells word value ↔ String.ofList (word.toList.map Char.toLower) ∈ wordsFor value := by
  constructor
  · rintro ⟨entry, listed, same⟩
    rw [(sameWord_lower (wordsFor_lower listed)).mp same]
    exact listed
  · intro listed
    exact ⟨_, listed, (sameWord_lower (wordsFor_lower listed)).mpr rfl⟩

theorem wordsFor_disjoint : ∀ entry ∈ wordsFor true, entry ∉ wordsFor false := by
  decide

theorem booleanWord?_eq_some_iff {word : String} {value : Bool} :
    booleanWord? word = some value ↔ Spells word value := by
  rw [spells_iff, booleanWord?]
  generalize String.ofList (word.toList.map Char.toLower) = lower
  change (if lower ∈ wordsFor true then some true
    else if lower ∈ wordsFor false then some false else none) = some value ↔ _
  by_cases yes : lower ∈ wordsFor true
  · cases value <;> simp [yes, wordsFor_disjoint lower yes]
  · cases value <;> simp [yes]

theorem booleanWord?_eq_none_iff {word : String} :
    booleanWord? word = none ↔ ∀ value, ¬Spells word value := by
  simp only [Option.eq_none_iff_forall_ne_some, ne_eq, booleanWord?_eq_some_iff]

end LinkGate
