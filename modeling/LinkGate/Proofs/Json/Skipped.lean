import LinkGate.Json.Skip
import LinkGate.Proofs.Json.RecordReaders

/-!
# What is passed over

A value that nobody asks for has a grammar of its own, wider than that of a tree: in its strings
the escapes are well-formed, but they need not give characters.  Skipping goes to the end of such a
value and fails on everything else.
-/

set_option autoImplicit false

namespace LinkGate.Json

/-- A string that is passed over, from behind its opening quote. -/
inductive SkippedString : Bytes → Bytes → Prop where
  | close (rest : Bytes) : SkippedString (quote :: rest) rest
  | plain {b : UInt8} {text rest : Bytes} (noQuote : b ≠ quote) (noBackslash : b ≠ backslash)
    (printing : ¬b < 0x20) (others : SkippedString text rest) : SkippedString (b :: text) rest
  | short {b : UInt8} {c : Char} {text rest : Bytes} (known : (b, c) ∈ shortEscapes)
    (others : SkippedString text rest) : SkippedString (backslash :: b :: text) rest
  | unit {n : Nat} {digits text rest : Bytes} (unit : HexUnit digits n text)
    (others : SkippedString text rest) :
    SkippedString (backslash :: letter 'u' :: digits) rest

mutual

/-- A value that is passed over, at the front of a text. -/
inductive Skipped : Bytes → Bytes → Prop where
  | null (rest : Bytes) : Skipped (word ['n', 'u', 'l', 'l'] rest) rest
  | true (rest : Bytes) : Skipped (word ['t', 'r', 'u', 'e'] rest) rest
  | false (rest : Bytes) : Skipped (word ['f', 'a', 'l', 's', 'e'] rest) rest
  | number {text rest : Bytes} {written : NumberText} (numeral : Numeral text written rest) :
    Skipped text rest
  | string {text rest : Bytes} (passed : SkippedString text rest) : Skipped (quote :: text) rest
  | array {text rest : Bytes} (inner : SkippedElements .true text rest) :
    Skipped (openBracket :: text) rest
  | object {text rest : Bytes} (inner : SkippedEntries .true text rest) :
    Skipped (openBrace :: text) rest

inductive SkippedElements : Bool → Bytes → Bytes → Prop where
  | close {first : Bool} {text rest : Bytes} (spaces : Spaces text (closeBracket :: rest)) :
    SkippedElements first text rest
  | cons {first : Bool} {text start behind rest : Bytes} (gap : Gap first text start)
    (value : Skipped start behind) (others : SkippedElements .false behind rest) :
    SkippedElements first text rest

inductive SkippedEntries : Bool → Bytes → Bytes → Prop where
  | close {first : Bool} {text rest : Bytes} (spaces : Spaces text (closeBrace :: rest)) :
    SkippedEntries first text rest
  | cons {first : Bool} {text key behind separated start after rest : Bytes}
    (gap : Gap first text (quote :: key)) (name : SkippedString key behind)
    (before : Spaces behind (colon :: separated)) (spaces : Spaces separated start)
    (value : Skipped start after) (others : SkippedEntries .false after rest) :
    SkippedEntries first text rest

end

/-! ## Strings -/

theorem skipEscape_eq_ok_iff {text rest : Bytes} :
    skipEscape text = .ok rest ↔
      (∃ b c, text = b :: rest ∧ (b, c) ∈ shortEscapes) ∨
        ∃ digits n, text = letter 'u' :: digits ∧ HexUnit digits n rest := by
  have noShort : ∀ entry ∈ shortEscapes, entry.1 ≠ letter 'u' := by decide
  constructor
  · intro taken
    cases text with
    | nil => cases taken
    | cons b text =>
      rw [skipEscape] at taken
      split at taken
      case isTrue isU =>
        obtain ⟨⟨n, behind⟩, unit, rfl⟩ := map_eq_ok_iff.mp taken
        exact .inr ⟨text, n, isU ▸ rfl, hexUnit_eq_ok_iff.mp unit⟩
      case isFalse noU =>
        obtain ⟨⟨c, behind⟩, escape, rfl⟩ := map_eq_ok_iff.mp taken
        cases unescape_eq_ok_iff.mp escape with
        | short known => exact .inl ⟨b, c, rfl, known⟩
        | unit | pair => exact absurd rfl noU
  · rintro (⟨b, c, rfl, known⟩ | ⟨digits, n, rfl, unit⟩)
    · rw [skipEscape, if_neg (noShort _ known), unescape_short known]
      rfl
    · rw [skipEscape, if_pos rfl, hexUnit_eq_ok_iff.mpr unit]
      rfl

theorem skippedString_of_skipStringWithin {fuel : Nat} {text rest : Bytes}
    (taken : skipStringWithin fuel text = .ok rest) : SkippedString text rest := by
  induction fuel generalizing text with
  | zero => cases taken
  | succ fuel ih =>
    cases text with
    | nil => cases taken
    | cons b text =>
      rw [skipStringWithin] at taken
      split at taken
      case isTrue isQuote =>
        cases taken
        exact isQuote ▸ .close _
      case isFalse noQuote =>
        split at taken
        case isTrue isBackslash =>
          subst isBackslash
          split at taken
          case h_1 => cases taken
          case h_2 behind escape =>
            rcases skipEscape_eq_ok_iff.mp escape with ⟨b, c, rfl, known⟩ | ⟨digits, n, rfl, unit⟩
            · exact .short known (ih taken)
            · exact .unit unit (ih taken)
        case isFalse noBackslash =>
          split at taken
          case isTrue => cases taken
          case isFalse printing => exact .plain noQuote noBackslash printing (ih taken)

theorem SkippedString.shorter {text rest : Bytes} (skipped : SkippedString text rest) :
    rest.length < text.length := by
  induction skipped with
  | close rest => exact Nat.lt_succ_self _
  | plain noQuote noBackslash printing others ih => exact Nat.lt_succ_of_lt ih
  | short known others ih =>
    simp only [List.length_cons]
    omega
  | unit unit others ih =>
    simp only [List.length_cons, unit.length_eq]
    omega

theorem SkippedString.skipStringWithin_eq {text rest : Bytes} (skipped : SkippedString text rest)
    {fuel : Nat} (enough : text.length ≤ fuel) : skipStringWithin fuel text = .ok rest := by
  induction skipped generalizing fuel with
  | close rest =>
    cases fuel with
    | zero => cases enough
    | succ fuel => rfl
  | plain noQuote noBackslash printing others ih =>
    cases fuel with
    | zero => cases enough
    | succ fuel =>
      rw [skipStringWithin, if_neg noQuote, if_neg noBackslash, if_neg printing]
      exact ih (Nat.le_of_succ_le_succ enough)
  | @short b c text rest known others ih =>
    cases fuel with
    | zero => cases enough
    | succ fuel =>
      have escape : skipEscape (b :: text) = .ok text :=
        skipEscape_eq_ok_iff.mpr (.inl ⟨b, c, rfl, known⟩)
      rw [List.length_cons, List.length_cons] at enough
      have further : skipStringWithin fuel text = .ok rest := ih (by omega)
      simp only [skipStringWithin, escape, further]
      rfl
  | @unit n digits text rest unit others ih =>
    cases fuel with
    | zero => cases enough
    | succ fuel =>
      have escape : skipEscape (letter 'u' :: digits) = .ok text :=
        skipEscape_eq_ok_iff.mpr (.inr ⟨digits, n, rfl, unit⟩)
      have cut := unit.length_eq
      rw [List.length_cons, List.length_cons] at enough
      have further : skipStringWithin fuel text = .ok rest := ih (by omega)
      simp only [skipStringWithin, escape, further]
      rfl

theorem skipString_eq_ok_iff {text rest : Bytes} :
    skipString text = .ok rest ↔ SkippedString text rest :=
  ⟨skippedString_of_skipStringWithin, fun skipped => skipped.skipStringWithin_eq (Nat.le_refl _)⟩

/-! ## Soundness -/

theorem skipped_of_skipScalar {text rest : Bytes} (taken : skipScalar text = .ok rest) :
    Skipped text rest := by
  cases text with
  | nil => cases taken
  | cons b text =>
    rw [skipScalar] at taken
    split at taken
    case isTrue isN =>
      rw [letters_eq_ok_iff] at taken
      subst isN taken
      exact .null rest
    split at taken
    case isTrue isT =>
      rw [letters_eq_ok_iff] at taken
      subst isT taken
      exact .true rest
    split at taken
    case isTrue isF =>
      rw [letters_eq_ok_iff] at taken
      subst isF taken
      exact .false rest
    split at taken
    case isTrue =>
      obtain ⟨⟨written, behind⟩, scanned, rfl⟩ := map_eq_ok_iff.mp taken
      exact .number (numeral_of_scanNumber scanned)
    split at taken
    case isTrue isQuote =>
      subst isQuote
      exact .string (skipString_eq_ok_iff.mp taken)
    case isFalse => cases taken

section
variable {skip : Bytes → Except Fault Bytes}
  (sound : ∀ {text rest}, skip text = .ok rest → ∃ start, Spaces text start ∧ Skipped start rest)
include sound

theorem skippedElements_of_skipElementsWithin {fuel : Nat} {first : Bool} {text rest : Bytes}
    (taken : skipElementsWithin skip fuel first text = .ok rest) :
    SkippedElements first text rest := by
  induction fuel generalizing first text with
  | zero => cases taken
  | succ fuel ih =>
    rw [skipElementsWithin] at taken
    split at taken
    case h_1 => cases taken
    case h_2 ended next =>
      obtain ⟨behind, rfl, spaces⟩ := closing_of_nextElement next
      exact .close (spaces.trans (closeArray_eq_ok_iff.mp taken))
    case h_3 found next =>
      split at taken
      case h_1 => cases taken
      case h_2 behind skipped =>
        obtain ⟨start, spaces, value⟩ := sound skipped
        exact .cons ((gap_of_nextElement next).trans spaces) value (ih taken)

theorem skippedEntries_of_skipMembersWithin {fuel : Nat} {first : Bool} {text rest : Bytes}
    (taken : skipMembersWithin skip fuel first text = .ok rest) :
    SkippedEntries first text rest := by
  induction fuel generalizing first text with
  | zero => cases taken
  | succ fuel ih =>
    rw [skipMembersWithin] at taken
    split at taken
    case h_1 => cases taken
    case h_2 ended next =>
      obtain ⟨behind, rfl, spaces⟩ := closing_of_nextMember next
      exact .close (spaces.trans (closeObject_eq_ok_iff.mp taken))
    case h_3 key next =>
      simp only [bind_eq_ok_iff] at taken
      obtain ⟨behind, name, separated, colon, after, skipped, further⟩ := taken
      obtain ⟨start, spaces, value⟩ := sound skipped
      exact .cons (nextMember_eq_ok_iff.mp next) (skipString_eq_ok_iff.mp name)
        (colonAfter_eq_ok_iff.mp colon) spaces value (ih further)

end

theorem skipped_of_skipValueWithin {fuel : Nat} {text rest : Bytes}
    (taken : skipValueWithin fuel text = .ok rest) :
    ∃ start, Spaces text start ∧ Skipped start rest := by
  induction fuel generalizing text rest with
  | zero => cases taken
  | succ fuel ih =>
    refine ⟨skipSpace text, spaces_skipSpace text, ?_⟩
    rw [skipValueWithin] at taken
    split at taken
    case h_1 b more front =>
      rw [front]
      split at taken
      case isTrue isBracket =>
        subst isBracket
        exact .array (skippedElements_of_skipElementsWithin ih taken)
      split at taken
      case isTrue isBrace =>
        subst isBrace
        exact .object (skippedEntries_of_skipMembersWithin ih taken)
      case isFalse => exact skipped_of_skipScalar taken
    case h_2 => cases taken

/-! ## Completeness -/

theorem SkippedElements.delimited {text rest : Bytes} (skipped : SkippedElements .false text rest) :
    Delimited text := by
  cases skipped with
  | close spaces => exact spaces.delimited (delimited_cons (.inr (.inl rfl)))
  | cons gap => exact gap.delimited

theorem SkippedEntries.delimited {text rest : Bytes} (skipped : SkippedEntries .false text rest) :
    Delimited text := by
  cases skipped with
  | close spaces => exact spaces.delimited (delimited_cons (.inr (.inr rfl)))
  | cons gap => exact gap.delimited

/-- The first byte of a value is no blank and closes nothing. -/
theorem Skipped.opens {text rest : Bytes} (skipped : Skipped text rest) :
    ∃ b more, text = b :: more ∧ isSpace b = .false ∧ b ≠ closeBracket := by
  cases skipped with
  | @number _ _ written numeral =>
    obtain ⟨b, more, rfl, opens⟩ := numeral.opens
    have opens : (Tree.number written).Opens b := opens
    exact ⟨b, more, rfl, opens.noSpace, opens.noClosing⟩
  | _ => exact ⟨_, _, rfl, rfl, by decide⟩

mutual

theorem Skipped.shorter {text rest : Bytes} : Skipped text rest → rest.length < text.length
  | .null _ | .true _ | .false _ => by
    rw [length_word]
    exact Nat.lt_add_of_pos_left (Nat.succ_pos _)
  | .number numeral => numeral.shorter
  | .string passed => Nat.lt_succ_of_lt passed.shorter
  | .array inner => Nat.lt_succ_of_lt inner.shorter
  | .object inner => Nat.lt_succ_of_lt inner.shorter

theorem SkippedElements.shorter {first : Bool} {text rest : Bytes} :
    SkippedElements first text rest → rest.length < text.length
  | .close spaces => spaces.shorter
  | .cons gap value others => by
    have blank := gap.shorter
    have taken := value.shorter
    have further := others.shorter
    omega

theorem SkippedEntries.shorter {first : Bool} {text rest : Bytes} :
    SkippedEntries first text rest → rest.length < text.length
  | .close spaces => spaces.shorter
  | .cons gap name before spaces value others => by
    have blank := gap.shorter
    have key := name.shorter
    have separated := before.shorter
    have inner := spaces.shorter
    have taken := value.shorter
    have further := others.shorter
    rw [List.length_cons] at blank separated
    omega

end

theorem skipValueWithin_scalar {b : UInt8} {text more : Bytes} (spaces : Spaces text (b :: more))
    (noSpace : isSpace b = false) (noBracket : b ≠ openBracket) (noBrace : b ≠ openBrace)
    (fuel : Nat) : skipValueWithin (fuel + 1) text = skipScalar (b :: more) := by
  rw [skipValueWithin, spaces.skipSpace_cons noSpace]
  simp only [if_neg noBracket, if_neg noBrace]

theorem skipScalar_numeral {text rest : Bytes} {written : NumberText}
    (numeral : Numeral text written rest) (delimited : Delimited rest) :
    skipScalar text = .ok rest := by
  have scanned := scanNumber_of_numeral numeral delimited
  obtain ⟨b, more, rfl, opens⟩ := numeral.opens
  have other {c : Char} (different : ¬(letter c = minus ∨ isDigit (letter c) = true)) :
      b ≠ letter c := fun same => different (same ▸ opens)
  rw [skipScalar, if_neg (other (by decide)), if_neg (other (by decide)),
    if_neg (other (by decide)), if_pos opens, scanned]
  rfl

mutual

theorem Skipped.skipValueWithin_eq {fuel : Nat} {text start rest : Bytes}
    (spaces : Spaces text start) (delimited : Delimited rest) (enough : start.length ≤ fuel) :
    Skipped start rest → skipValueWithin (fuel + 1) text = .ok rest
  | .null _ => by
    rw [skipValueWithin_scalar spaces rfl (by decide) (by decide)]
    exact letters_eq_ok_iff.mpr rfl
  | .true _ => by
    rw [skipValueWithin_scalar spaces rfl (by decide) (by decide)]
    exact letters_eq_ok_iff.mpr rfl
  | .false _ => by
    rw [skipValueWithin_scalar spaces rfl (by decide) (by decide)]
    exact letters_eq_ok_iff.mpr rfl
  | @Skipped.number _ _ written numeral => by
    have skipped := skipScalar_numeral numeral delimited
    obtain ⟨b, more, rfl, opens⟩ := numeral.opens
    have noSpace : isSpace b = .false := (show (Tree.number written).Opens b from opens).noSpace
    have noBracket : b ≠ openBracket := fun same => absurd (same ▸ opens) (by decide)
    have noBrace : b ≠ openBrace := fun same => absurd (same ▸ opens) (by decide)
    rw [skipValueWithin_scalar spaces noSpace noBracket noBrace, skipped]
  | .string passed => by
    rw [skipValueWithin_scalar spaces rfl (by decide) (by decide)]
    exact skipString_eq_ok_iff.mpr passed
  | .array inner => by
    obtain ⟨fuel, rfl⟩ := Nat.exists_eq_add_one_of_ne_zero (Nat.ne_zero_of_lt enough)
    rw [skipValueWithin, spaces.skipSpace_cons rfl]
    exact inner.skipElementsWithin_eq (Nat.le_of_succ_le_succ enough) (Nat.le_refl _)
  | .object inner => by
    obtain ⟨fuel, rfl⟩ := Nat.exists_eq_add_one_of_ne_zero (Nat.ne_zero_of_lt enough)
    rw [skipValueWithin, spaces.skipSpace_cons rfl]
    exact inner.skipMembersWithin_eq (Nat.le_of_succ_le_succ enough) (Nat.le_refl _)

theorem SkippedElements.skipElementsWithin_eq {fuel steps : Nat} {first : Bool} {text rest : Bytes}
    (deep : text.length ≤ fuel) (enough : text.length ≤ steps) :
    SkippedElements first text rest →
      skipElementsWithin (skipValueWithin (fuel + 1)) (steps + 1) first text = .ok rest
  | .close spaces => by
    rw [skipElementsWithin, nextElement_closing spaces]
    rfl
  | @SkippedElements.cons _ _ start behind _ gap value others => by
    have blank := gap.shorter
    have taken := value.shorter
    obtain ⟨steps, rfl⟩ := Nat.exists_eq_add_one_of_ne_zero (n := steps) (by omega)
    have skipped : skipValueWithin (fuel + 1) start = .ok behind :=
      value.skipValueWithin_eq (.none start) others.delimited (by omega)
    have further : skipElementsWithin (skipValueWithin (fuel + 1)) (steps + 1) .false behind =
        .ok rest := others.skipElementsWithin_eq (by omega) (by omega)
    obtain ⟨b, more, rfl, noSpace, noClosing⟩ := value.opens
    rw [skipElementsWithin, gap.nextElement_eq noSpace noClosing]
    simp only [skipped, further]

theorem SkippedEntries.skipMembersWithin_eq {fuel steps : Nat} {first : Bool} {text rest : Bytes}
    (deep : text.length ≤ fuel) (enough : text.length ≤ steps) :
    SkippedEntries first text rest →
      skipMembersWithin (skipValueWithin (fuel + 1)) (steps + 1) first text = .ok rest
  | .close spaces => by
    rw [skipMembersWithin, nextMember_closing spaces]
    rfl
  | @SkippedEntries.cons _ _ _ _ separated _ after _ gap name before spaces value others => by
    have blank := gap.shorter
    have named := name.shorter
    have colon := before.shorter
    have inner := spaces.shorter
    have taken := value.shorter
    rw [List.length_cons] at blank colon
    obtain ⟨steps, rfl⟩ := Nat.exists_eq_add_one_of_ne_zero (n := steps) (by omega)
    have skipped : skipValueWithin (fuel + 1) separated = .ok after :=
      value.skipValueWithin_eq spaces others.delimited (by omega)
    have further : skipMembersWithin (skipValueWithin (fuel + 1)) (steps + 1) .false after =
        .ok rest := others.skipMembersWithin_eq (by omega) (by omega)
    rw [skipMembersWithin, nextMember_eq_ok_iff.mpr gap]
    simp only [skipString_eq_ok_iff.mpr name, colonAfter_eq_ok_iff.mpr before, skipped, further,
      bind, Except.bind]

end

theorem skipped_of_skipValue {text rest : Bytes} (taken : skipValue text = .ok rest) :
    ∃ start, Spaces text start ∧ Skipped start rest :=
  skipped_of_skipValueWithin taken

theorem Skipped.skipValue_eq {text start rest : Bytes} (skipped : Skipped start rest)
    (spaces : Spaces text start) (delimited : Delimited rest) : skipValue text = .ok rest :=
  skipped.skipValueWithin_eq spaces delimited spaces.shorter

end LinkGate.Json
