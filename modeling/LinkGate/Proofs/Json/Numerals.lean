import LinkGate.Json.Number
import LinkGate.Proofs.Json.Grammar
import LinkGate.Proofs.Outcome
import LinkGate.Proofs.Text.Utf8

/-!
# Which numbers are read

A number is taken as far as it goes, so a numeral is what is read only in front of something that
cannot belong to it (`Delimited`).  Each part of a number is read up to a byte with which the next
part may begin; so the parts are put together from the back.
-/

set_option autoImplicit false

namespace LinkGate.Json

/-- What may stand behind a value: nothing, a blank, a comma or a closing bracket. -/
def Delimited (rest : Bytes) : Prop :=
  ∀ b ∈ rest.head?, isSpace b = true ∨ b = comma ∨ b = closeBracket ∨ b = closeBrace

/-- A text whose first byte, if any, is not accepted. -/
def StopsAt (accepted : UInt8 → Prop) (rest : Bytes) : Prop :=
  ∀ b ∈ rest.head?, ¬accepted b

theorem StopsAt.mono {accepted other : UInt8 → Prop} {rest : Bytes} (stops : StopsAt accepted rest)
    (weaker : ∀ b, other b → accepted b) : StopsAt other rest :=
  fun b head holds => stops b head (weaker b holds)

theorem stopsAt_cons {accepted : UInt8 → Prop} {b : UInt8} {rest : Bytes} :
    StopsAt accepted (b :: rest) ↔ ¬accepted b :=
  ⟨fun stops => stops b rfl, fun refused _ head => Option.some.inj head ▸ refused⟩

/-! ## Digits -/

/-- Where a number without fraction and exponent would go on. -/
def GoesOn (b : UInt8) : Prop :=
  isDigit b = true ∨ b = point ∨ b = letter 'e' ∨ b = letter 'E'

instance (b : UInt8) : Decidable (GoesOn b) :=
  inferInstanceAs (Decidable (_ ∨ _))

theorem Delimited.stops {rest : Bytes} (delimited : Delimited rest) : StopsAt GoesOn rest := by
  intro b head
  rcases delimited b head with space | rfl | rfl | rfl
  · simp only [isSpace, Bool.or_eq_true, beq_iff_eq] at space
    rcases space with ((rfl | rfl) | rfl) | rfl <;> decide
  all_goals decide

theorem isDigit_byte {d : Nat} (small : d < 10) : isDigit (UInt8.ofNat (0x30 + d)) = true := by
  revert d
  decide

theorem value_byte {d : Nat} (small : d < 10) : (UInt8.ofNat (0x30 + d)).toNat - 0x30 = d := by
  rw [Utf8.toNat_byte (by omega), Nat.add_sub_cancel_left]

theorem byte_of_isDigit {b : UInt8} (digit : isDigit b = true) :
    ∃ d < 10, b = UInt8.ofNat (0x30 + d) := by
  simp only [isDigit, Bool.and_eq_true, decide_eq_true_eq, UInt8.le_iff_toNat_le,
    UInt8.reduceToNat] at digit
  refine ⟨b.toNat - 0x30, by omega, ?_⟩
  rw [Nat.add_sub_cancel' digit.1, UInt8.ofNat_toNat]

theorem digits_byte {d : Nat} (small : d < 10) (text : Bytes) :
    digits (UInt8.ofNat (0x30 + d) :: text) = (d :: (digits text).1, (digits text).2) := by
  have digit := isDigit_byte small
  rw [digits, List.takeWhile_cons_of_pos digit, List.dropWhile_cons_of_pos digit, List.map_cons,
    value_byte small, digits]

theorem digits_stop {rest : Bytes} (stops : StopsAt (isDigit · = true) rest) :
    digits rest = ([], rest) := by
  cases rest with
  | nil => rfl
  | cons b rest =>
    have noDigit := stopsAt_cons.mp stops
    rw [digits, List.takeWhile_cons_of_neg noDigit, List.dropWhile_cons_of_neg noDigit,
      List.map_nil]

theorem digits_written (text : Bytes) : Digits text (digits text).1 (digits text).2 := by
  induction text with
  | nil => exact .none []
  | cons b text ih =>
    by_cases digit : isDigit b = true
    · obtain ⟨d, small, rfl⟩ := byte_of_isDigit digit
      rw [digits_byte small]
      exact .more small ih
    · rw [digits_stop (stopsAt_cons.mpr digit)]
      exact .none _

namespace Digits
variable {text rest : Bytes} {written : List Nat}

theorem digits_eq (run : Digits text written rest) (stops : StopsAt (isDigit · = true) rest) :
    digits text = (written, rest) := by
  induction run with
  | none rest => exact digits_stop stops
  | more small others ih => rw [digits_byte small, ih stops]

theorem head_digit (run : Digits text written rest) (present : written ≠ []) :
    ∃ b more, text = b :: more ∧ isDigit b = true := by
  cases run with
  | none => exact absurd rfl present
  | more small others => exact ⟨_, _, rfl, isDigit_byte small⟩

theorem someDigits_eq (run : Digits text written rest) (present : written ≠ [])
    (stops : StopsAt (isDigit · = true) rest) : someDigits text = .ok (written, rest) := by
  obtain ⟨b, more, rfl, digit⟩ := run.head_digit present
  rw [someDigits, if_pos digit, run.digits_eq stops]

end Digits

theorem written_of_someDigits {text rest : Bytes} {written : List Nat}
    (taken : someDigits text = .ok (written, rest)) : Digits text written rest ∧ written ≠ [] := by
  cases text with
  | nil => cases taken
  | cons b text =>
    rw [someDigits] at taken
    split at taken
    case isFalse => cases taken
    case isTrue digit =>
      have run := digits_written (b :: text)
      rw [Except.ok.inj taken] at run
      refine ⟨run, ?_⟩
      rintro rfl
      obtain ⟨d, small, rfl⟩ := byte_of_isDigit digit
      rw [digits_byte small] at taken
      cases taken

/-! ## The parts of a number -/

section
variable {text rest : Bytes}

theorem wholePart_of_whole {written : List Nat} (whole : Whole text written rest)
    (stops : StopsAt (isDigit · = true) rest) : wholePart text = .ok (written, rest) := by
  rw [wholePart, whole.written.someDigits_eq whole.present stops]
  split
  case h_1 failed => cases failed
  case h_2 found =>
    obtain ⟨rfl, -⟩ := Prod.mk.inj (Except.ok.inj found)
    cases whole.zeroAlone rfl
  case h_3 same => exact same.symm

theorem whole_of_wholePart {written : List Nat} (taken : wholePart text = .ok (written, rest)) :
    Whole text written rest := by
  rw [wholePart] at taken
  split at taken
  case h_1 => cases taken
  case h_2 => cases taken
  case h_3 result notLeading scanned =>
    obtain rfl := Except.ok.inj taken
    obtain ⟨run, present⟩ := written_of_someDigits scanned
    refine ⟨run, present, ?_⟩
    intro zero
    obtain ⟨more, rfl⟩ := List.head?_eq_some_iff.mp zero
    cases more with
    | nil => rfl
    | cons d more => exact absurd rfl (notLeading d more rest)

theorem fractionPart_of_fraction {written : List Nat} (fraction : Fraction text written rest)
    (stops : StopsAt (fun b => isDigit b = true ∨ b = point) rest) :
    fractionPart text = .ok (written, rest) := by
  cases fraction with
  | none =>
    cases text with
    | nil => rfl
    | cons b text =>
      have noPoint : b ≠ point := fun isPoint => stopsAt_cons.mp stops (.inr isPoint)
      rw [fractionPart, if_neg noPoint]
  | point run present =>
    have taken := run.digits_eq (stops.mono fun b => .inl)
    obtain ⟨d, more, rfl⟩ := List.exists_cons_of_ne_nil present
    rw [fractionPart, if_pos rfl, taken]

theorem fraction_of_fractionPart {written : List Nat}
    (taken : fractionPart text = .ok (written, rest)) : Fraction text written rest := by
  cases text with
  | nil =>
    cases taken
    exact .none []
  | cons b text =>
    rw [fractionPart] at taken
    split at taken
    case isFalse =>
      cases taken
      exact .none _
    case isTrue isPoint =>
      have run := digits_written text
      split at taken
      case h_1 => cases taken
      case h_2 => cases taken
      case h_3 none =>
        have scanned := Except.ok.inj taken
        rw [scanned] at run
        subst isPoint
        refine .point run ?_
        rintro rfl
        exact none rest scanned

theorem exponentSign_of_signed {negative : Bool} (sign : Signed text negative rest)
    (digit : ∃ b more, rest = b :: more ∧ isDigit b = true) :
    exponentSign text = (negative, rest) := by
  cases sign with
  | none =>
    obtain ⟨b, more, rfl, digit⟩ := digit
    have noMinus : b ≠ minus := by
      rintro rfl
      exact absurd digit (by decide)
    have noPlus : b ≠ plus := by
      rintro rfl
      exact absurd digit (by decide)
    rw [exponentSign, if_neg noMinus, if_neg noPlus]
  | plus => rfl
  | minus => rfl

theorem signed_exponentSign (text : Bytes) :
    Signed text (exponentSign text).1 (exponentSign text).2 := by
  cases text with
  | nil => exact .none []
  | cons b text =>
    rw [exponentSign]
    split
    case isTrue isMinus => exact isMinus ▸ .minus text
    case isFalse =>
      split
      case isTrue isPlus => exact isPlus ▸ .plus text
      case isFalse => exact .none _

theorem exponentPart_of_exponent {written : Option (Bool × List Nat)}
    (exponent : Exponent text written rest) (stops : StopsAt GoesOn rest) :
    exponentPart text = .ok (written, rest) := by
  cases exponent with
  | none =>
    cases text with
    | nil => rfl
    | cons b text =>
      have noMark : ¬(b = letter 'e' ∨ b = letter 'E') :=
        fun isMark => stopsAt_cons.mp stops (.inr (.inr isMark))
      rw [exponentPart, if_neg noMark]
  | mark isMark sign run present =>
    have signed := exponentSign_of_signed sign (run.head_digit present)
    have taken := run.someDigits_eq present (stops.mono fun b => .inl)
    simp only [exponentPart, if_pos isMark, signed, taken]

theorem exponent_of_exponentPart {written : Option (Bool × List Nat)}
    (taken : exponentPart text = .ok (written, rest)) : Exponent text written rest := by
  cases text with
  | nil =>
    cases taken
    exact .none []
  | cons b text =>
    rw [exponentPart] at taken
    split at taken
    case isFalse =>
      cases taken
      exact .none _
    case isTrue isMark =>
      have sign := signed_exponentSign text
      simp only at taken
      split at taken
      case h_1 => cases taken
      case h_2 found behind scanned =>
        obtain ⟨rfl, rfl⟩ := Prod.mk.inj (Except.ok.inj taken)
        obtain ⟨run, present⟩ := written_of_someDigits scanned
        exact .mark isMark sign run present

/-- An exponent takes the place of what would be read into the fraction. -/
theorem stops_exponent {written : Option (Bool × List Nat)} (exponent : Exponent text written rest)
    (stops : StopsAt GoesOn rest) : StopsAt (fun b => isDigit b = true ∨ b = point) text := by
  cases exponent with
  | none =>
    refine stops.mono fun b => ?_
    rintro (digit | isPoint)
    · exact .inl digit
    · exact .inr (.inl isPoint)
  | mark isMark =>
    rw [stopsAt_cons]
    rcases isMark with rfl | rfl <;> decide

theorem stops_fraction {written : List Nat} (fraction : Fraction text written rest)
    (stops : StopsAt (fun b => isDigit b = true ∨ b = point) rest) :
    StopsAt (isDigit · = true) text := by
  cases fraction with
  | none => exact stops.mono fun b => .inl
  | point => exact stopsAt_cons.mpr (by decide)

/-! ## Whole numbers -/

theorem scanNumber_of_numeral {number : NumberText} (numeral : Numeral text number rest)
    (delimited : Delimited rest) : scanNumber text = .ok (number, rest) := by
  obtain ⟨sign, whole, fraction, exponent⟩ := numeral
  have third := stops_exponent exponent delimited.stops
  have second := stops_fraction fraction third
  have wholeTaken := wholePart_of_whole whole second
  have fractionTaken := fractionPart_of_fraction fraction third
  have exponentTaken := exponentPart_of_exponent exponent delimited.stops
  cases number with
  | mk negative digits others power =>
    cases sign with
    | none =>
      obtain ⟨b, more, rfl, digit⟩ := whole.written.head_digit whole.present
      have noMinus : (b :: more).head? ≠ some minus := by
        rintro ⟨rfl⟩
        exact absurd digit (by decide)
      simp only [scanNumber, if_neg noMinus, bind, Except.bind, wholeTaken, fractionTaken,
        exponentTaken]
      rfl
    | minus =>
      simp only [scanNumber, List.head?_cons, if_true, List.drop_one, List.tail_cons, bind,
        Except.bind, wholeTaken, fractionTaken, exponentTaken]
      rfl

theorem negation_of_front {negative : Bool} {unsigned : Bytes}
    (front : (if text.head? = some minus then (true, text.drop 1) else (false, text)) =
      (negative, unsigned)) : Negation text negative unsigned := by
  split at front
  case isTrue isMinus =>
    obtain ⟨more, rfl⟩ := List.head?_eq_some_iff.mp isMinus
    cases front
    exact .minus more
  case isFalse =>
    cases front
    exact .none text

theorem numeral_of_scanNumber {number : NumberText} (taken : scanNumber text = .ok (number, rest)) :
    Numeral text number rest := by
  rw [scanNumber] at taken
  split at taken
  rename_i negative unsigned front
  simp only [bind_eq_ok_iff] at taken
  obtain ⟨⟨whole, second⟩, wholeTaken, ⟨fraction, third⟩, fractionTaken,
    ⟨exponent, behind⟩, exponentTaken, built⟩ := taken
  cases built
  exact .parts (negation_of_front front) (whole_of_wholePart wholeTaken)
    (fraction_of_fractionPart fractionTaken) (exponent_of_exponentPart exponentTaken)

end

/-! ## Integers -/

theorem le_foldl_decimal (written : List Nat) (value : Nat) :
    value ≤ written.foldl (fun value d => value * 10 + d) value := by
  induction written generalizing value with
  | nil => exact Nat.le_refl value
  | cons d written ih =>
    have later := ih (value * 10 + d)
    rw [List.foldl_cons]
    omega

/-- As long as the bound is not met, every digit is gathered. -/
theorem gather_fits {bound : Nat} (written : List Nat) (value : Nat)
    (fits : written.foldl (fun value d => value * 10 + d) value < bound) :
    gather bound value written =
      (written.foldl (fun value d => value * 10 + d) value, written.length) := by
  induction written generalizing value with
  | nil => rfl
  | cons d written ih =>
    rw [List.foldl_cons] at fits ⊢
    have below := Nat.lt_of_le_of_lt (le_foldl_decimal written _) fits
    rw [gather, if_pos below, ih _ fits]
    rfl

/-- Where every digit was gathered, their value was. -/
theorem gather_value {bound : Nat} (written : List Nat) (value : Nat)
    (all : written.length ≤ (gather bound value written).2) :
    (gather bound value written).1 = written.foldl (fun value d => value * 10 + d) value := by
  induction written generalizing value with
  | nil => rfl
  | cons d written ih =>
    rw [gather] at all ⊢
    split at all
    case isFalse => cases all
    case isTrue below =>
      rw [if_pos below, List.foldl_cons]
      exact ih _ (Nat.le_of_succ_le_succ all)

namespace NumberText
variable {written : NumberText}

theorem significand_whole (noFraction : written.fraction = []) :
    written.significand = ((gather (Nat.pow 2 64) 0 written.whole).1,
      ((written.whole.length - (gather (Nat.pow 2 64) 0 written.whole).2 : Nat) : Int)) := by
  simp only [significand, noFraction, gather, Int.natCast_zero, Int.sub_zero]

theorem Integer.integer?_eq {n : Int} (integer : written.Integer n)
    (low : -9223372036854775808 ≤ n) (high : n ≤ 18446744073709551615) :
    written.integer? = some n := by
  obtain ⟨sign, noFraction, noExponent, worth⟩ := integer
  have fits : decimal written.whole < Nat.pow 2 64 := by
    rw [worth]
    simp only [Nat.pow_eq]
    omega
  have gathered : gather (Nat.pow 2 64) 0 written.whole = (n.natAbs, written.whole.length) :=
    worth ▸ gather_fits written.whole 0 fits
  have bare : written.fraction.isEmpty = true ∧ written.exponent.isNone = true := by
    rw [noFraction, noExponent]
    exact ⟨rfl, rfl⟩
  rw [integer?, if_pos bare, significand_whole noFraction, gathered]
  simp only [Nat.sub_self, Int.natCast_zero]
  split
  case isTrue negative =>
    have below := sign.mp negative
    have range : 0 < n.natAbs ∧ n.natAbs ≤ Nat.pow 2 63 := by
      simp only [Nat.pow_eq]
      omega
    rw [if_pos range, Option.some.injEq]
    omega
  case isFalse noSign =>
    have natural : ¬n < 0 := fun below => noSign (sign.mpr below)
    rw [Option.some.injEq]
    omega

theorem integer_of_integer? {n : Int} (found : written.integer? = some n) : written.Integer n := by
  rw [integer?] at found
  split at found
  case isFalse => cases found
  case isTrue bare =>
    have noFraction := List.isEmpty_iff.mp bare.1
    have noExponent := Option.isNone_iff_eq_none.mp bare.2
    rw [significand_whole noFraction] at found
    split at found
    case h_2 => cases found
    case h_1 total parts =>
      obtain ⟨rfl, none⟩ := Prod.mk.inj parts
      have all := Nat.le_of_sub_eq_zero (Int.ofNat_eq_zero.mp none)
      have worth : decimal written.whole = _ := (gather_value written.whole 0 all).symm
      split at found
      case isTrue sign =>
        split at found
        case isFalse => cases found
        case isTrue range =>
          obtain rfl := Option.some.inj found
          refine ⟨iff_of_true sign ?_, noFraction, noExponent, ?_⟩ <;> omega
      case isFalse noSign =>
        obtain rfl := Option.some.inj found
        exact ⟨iff_of_false noSign (by omega), noFraction, noExponent, worth⟩

theorem Counts.integer {n : Nat} (counts : written.Counts n) : written.Integer n := by
  obtain ⟨noSign, noFraction, noExponent, worth⟩ := counts
  exact ⟨iff_of_false (Bool.eq_false_iff.mp noSign) (by omega), noFraction, noExponent, worth⟩

theorem Integer.counts {n : Int} (integer : written.Integer n) (natural : 0 ≤ n) :
    written.Counts n.toNat := by
  obtain ⟨sign, noFraction, noExponent, worth⟩ := integer
  have noSign : written.negative = false :=
    Bool.eq_false_iff.mpr fun negative => Int.not_lt.mpr natural (sign.mp negative)
  exact ⟨noSign, noFraction, noExponent, by omega⟩

end NumberText

end LinkGate.Json
