import LinkGate.Json.Reader
import LinkGate.Proofs.Decimal.Layout
import LinkGate.Proofs.Text.Utf8

/-!
# Integers read back

A number ends where something follows that cannot belong to it, so a written integer is only read
back in front of such a text (`Ended`).  What stands behind a value inside a document always is one:
a comma or a closing bracket.
-/

set_option autoImplicit false

namespace LinkGate.Json

/-- What may stand behind a value: nothing, a comma or a closing bracket. -/
def Ended (rest : Bytes) : Prop :=
  ∀ b ∈ rest.head?, b = comma ∨ b = closeBracket ∨ b = closeBrace

theorem ended_nil : Ended [] :=
  fun _ none => nomatch none

theorem Ended.not_digit {b : UInt8} {rest : Bytes} (ended : Ended (b :: rest)) :
    isDigit b = false := by
  rcases ended b rfl with rfl | rfl | rfl <;> decide

theorem Ended.fractionPart_eq {rest : Bytes} (ended : Ended rest) :
    fractionPart rest = .ok ([], rest) := by
  cases rest with
  | nil => rfl
  | cons b rest =>
    have noPoint : b ≠ point := by rcases ended b rfl with rfl | rfl | rfl <;> decide
    rw [fractionPart, if_neg noPoint]

theorem Ended.exponentPart_eq {rest : Bytes} (ended : Ended rest) :
    exponentPart rest = .ok (none, rest) := by
  cases rest with
  | nil => rfl
  | cons b rest =>
    have noMark : ¬(b = letter 'e' ∨ b = letter 'E') := by
      rcases ended b rfl with rfl | rfl | rfl <;> decide
    rw [exponentPart, if_neg noMark]

/-! ## Decimal digits -/

/-- The value of a digit character. -/
def digitOf (c : Char) : Nat :=
  c.toNat - 0x30

theorem digit_range {c : Char} (digit : c.isDigit = true) : 0x30 ≤ c.toNat ∧ c.toNat ≤ 0x39 := by
  simpa [Char.isDigit, UInt32.le_iff_toNat_le] using digit

theorem bytes_digits {chars : List Char} (all : ∀ c ∈ chars, c.isDigit = true) :
    Utf8.bytes chars = chars.map letter := by
  induction chars with
  | nil => rfl
  | cons c chars ih =>
    have range := digit_range (all c List.mem_cons_self)
    rw [Utf8.bytes_cons, Utf8.encodeChar_ascii (by omega),
      ih fun d mem => all d (List.mem_cons_of_mem c mem)]
    rfl

theorem toNat_letter {c : Char} (digit : c.isDigit = true) : (letter c).toNat = c.toNat := by
  have range := digit_range digit
  exact Utf8.toNat_byte (by omega)

theorem isDigit_letter {c : Char} (digit : c.isDigit = true) : isDigit (letter c) = true := by
  have range := digit_range digit
  simp only [isDigit, Bool.and_eq_true, decide_eq_true_eq, UInt8.le_iff_toNat_le,
    toNat_letter digit, UInt8.reduceToNat]
  exact range

theorem Ended.digits_eq {chars : List Char} (all : ∀ c ∈ chars, c.isDigit = true) {rest : Bytes}
    (ended : Ended rest) : digits (Utf8.bytes chars ++ rest) = (chars.map digitOf, rest) := by
  have run : ∀ b ∈ chars.map letter, isDigit b = true := by
    intro b written
    obtain ⟨c, mem, rfl⟩ := List.mem_map.mp written
    exact isDigit_letter (all c mem)
  have values : (chars.map letter).map (fun b => b.toNat - 0x30) = chars.map digitOf := by
    rw [List.map_map]
    refine List.map_congr_left fun c mem => ?_
    simp only [Function.comp_apply, toNat_letter (all c mem), digitOf]
  have stop : rest.takeWhile isDigit = [] ∧ rest.dropWhile isDigit = rest := by
    cases rest with
    | nil => exact ⟨rfl, rfl⟩
    | cons b rest => simp [ended.not_digit]
  rw [digits, bytes_digits all, List.takeWhile_append_of_pos run, List.dropWhile_append_of_pos run,
    stop.1, stop.2, List.append_nil, values]

/-- The digits of a number do not begin with a zero, unless it is zero. -/
theorem head?_toDigits {n : Nat} (pos : 0 < n) : (Nat.toDigits 10 n).head? ≠ some '0' := by
  induction n using Nat.strongRecOn with
  | ind n ih =>
    by_cases single : n < 10
    · rw [Nat.toDigits_of_lt_base single, List.head?_cons]
      intro zero
      have none : n = 0 := Nat.digitChar_eq_zero.mp (Option.some.inj zero)
      omega
    · have front : (Nat.toDigits 10 (n / 10)).head? ≠ some '0' := ih (n / 10) (by omega) (by omega)
      have more : Nat.toDigits 10 (n / 10) ≠ [] := Nat.toDigits_ne_nil
      rw [Nat.toDigits_of_base_le (by decide) (by omega), List.head?_append,
        List.head?_eq_some_head more, Option.some_or, ← List.head?_eq_some_head more]
      exact front

theorem no_leading_zero (n first : Nat) (more : List Nat) :
    (Nat.toDigits 10 n).map digitOf ≠ 0 :: first :: more := by
  intro written
  by_cases single : n < 10
  · simp [Nat.toDigits_of_lt_base single] at written
  · obtain ⟨c, chars, cons, zero, -⟩ := List.map_eq_cons_iff.mp written
    have mem : c ∈ Nat.toDigits 10 n := cons ▸ List.mem_cons_self
    have range := digit_range (Nat.isDigit_of_mem_toDigits (by decide) (by decide) mem)
    have value : c.toNat = '0'.toNat := Nat.le_antisymm (Nat.sub_eq_zero_iff_le.mp zero) range.1
    refine head?_toDigits (n := n) (by omega) ?_
    rw [cons, List.head?_cons, Char.toNat_inj.mp value]

theorem le_ofDigitChars (chars : List Char) (value : Nat) :
    value ≤ Nat.ofDigitChars 10 chars value := by
  induction chars generalizing value with
  | nil => exact Nat.le_refl value
  | cons c chars ih =>
    have later := ih (10 * value + (c.toNat - '0'.toNat))
    rw [Nat.ofDigitChars_cons]
    omega

/-- As long as the bound is not met, every digit is gathered. -/
theorem gather_eq {bound : Nat} (chars : List Char) (value : Nat)
    (fits : Nat.ofDigitChars 10 chars value < bound) :
    gather bound value (chars.map digitOf) = (Nat.ofDigitChars 10 chars value, chars.length) := by
  induction chars generalizing value with
  | nil => rfl
  | cons c chars ih =>
    have next : 10 * value + (c.toNat - '0'.toNat) = value * 10 + digitOf c := by
      rw [Nat.mul_comm, digitOf]
      rfl
    rw [Nat.ofDigitChars_cons, next] at fits
    have below := Nat.lt_of_le_of_lt (le_ofDigitChars chars _) fits
    rw [List.map_cons, gather, if_pos below, ih _ fits, Nat.ofDigitChars_cons, next]
    rfl

/-! ## Whole numbers -/

section
variable (n : Nat)

theorem isDigit_toDigits : ∀ c ∈ Nat.toDigits 10 n, c.isDigit = true :=
  fun _ mem => Nat.isDigit_of_mem_toDigits (by decide) (by decide) mem

/-- The bytes of a number begin with a digit. -/
theorem bytes_toDigits_cons :
    ∃ b more, Utf8.bytes (Nat.toDigits 10 n) = b :: more ∧ isDigit b = true := by
  have all := isDigit_toDigits n
  rw [bytes_digits all]
  cases written : Nat.toDigits 10 n with
  | nil => exact absurd written Nat.toDigits_ne_nil
  | cons c chars =>
    have digit := all c (written ▸ List.mem_cons_self)
    exact ⟨letter c, chars.map letter, rfl, isDigit_letter digit⟩

theorem wholePart_eq {rest : Bytes} (ended : Ended rest) :
    wholePart (Utf8.bytes (Nat.toDigits 10 n) ++ rest) =
      .ok ((Nat.toDigits 10 n).map digitOf, rest) := by
  obtain ⟨b, more, cons, digit⟩ := bytes_toDigits_cons n
  have taken := ended.digits_eq (isDigit_toDigits n)
  have some : someDigits (Utf8.bytes (Nat.toDigits 10 n) ++ rest) =
      .ok ((Nat.toDigits 10 n).map digitOf, rest) := by
    rw [cons, List.cons_append] at taken ⊢
    rw [someDigits, if_pos digit, taken]
  rw [wholePart, some]
  -- of the three outcomes the second is the zero in front of other digits
  split
  case h_1 failed => cases failed
  case h_2 found =>
    obtain ⟨written, -⟩ := Prod.mk.inj (Except.ok.inj found)
    exact absurd written (no_leading_zero n _ _)
  case h_3 same => exact same.symm

theorem scan_unsigned {rest : Bytes} (ended : Ended rest) :
    scanNumber (Utf8.bytes (Nat.toDigits 10 n) ++ rest) =
      .ok (⟨false, (Nat.toDigits 10 n).map digitOf, [], none⟩, rest) := by
  obtain ⟨b, more, cons, digit⟩ := bytes_toDigits_cons n
  have noMinus : (Utf8.bytes (Nat.toDigits 10 n) ++ rest).head? ≠ some minus := by
    rw [cons]
    rintro ⟨rfl⟩
    exact absurd digit (by decide)
  simp only [scanNumber, if_neg noMinus, bind, Except.bind, wholePart_eq n ended,
    ended.fractionPart_eq, ended.exponentPart_eq]
  rfl

theorem scan_negative {rest : Bytes} (ended : Ended rest) :
    scanNumber (minus :: (Utf8.bytes (Nat.toDigits 10 n) ++ rest)) =
      .ok (⟨true, (Nat.toDigits 10 n).map digitOf, [], none⟩, rest) := by
  simp only [scanNumber, List.head?_cons, if_true, List.drop_one, List.tail_cons, bind,
    Except.bind, wholePart_eq n ended, ended.fractionPart_eq, ended.exponentPart_eq]
  rfl

variable {n}

theorem significand_eq (fits : n < Nat.pow 2 64) (negative : Bool) :
    NumberText.significand ⟨negative, (Nat.toDigits 10 n).map digitOf, [], none⟩ = (n, 0) := by
  have value : Nat.ofDigitChars 10 (Nat.toDigits 10 n) 0 = n := Nat.ofDigitChars_ten_toDigits
  have small : Nat.ofDigitChars 10 (Nat.toDigits 10 n) 0 < Nat.pow 2 64 := by rwa [value]
  have gathered := gather_eq (Nat.toDigits 10 n) 0 small
  simp only [NumberText.significand, gathered, value, gather, List.length_map, Nat.sub_self]
  rfl

end

/-- An integer of less than 64 bits reads back. -/
theorem number_eq {n : Int} (fits : n.natAbs < Nat.pow 2 63) {rest : Bytes} (ended : Ended rest) :
    number (Utf8.bytes (integerChars n) ++ rest) = .ok (.integer n, rest) := by
  have wide : n.natAbs < Nat.pow 2 64 := Nat.lt_trans fits (by decide)
  by_cases negative : n < 0
  · have value : NumberText.value ⟨true, (Nat.toDigits 10 n.natAbs).map digitOf, [], none⟩ =
        .ok (.integer n) := by
      have bounds : 0 < n.natAbs ∧ n.natAbs ≤ Nat.pow 2 63 := by omega
      have whole : -(n.natAbs : Int) = n := by omega
      simp only [NumberText.value, NumberText.integer?, significand_eq wide, List.isEmpty_nil,
        Option.isNone_none, and_self, if_true, if_pos bounds, whole]
    have written : Utf8.bytes (integerChars n) =
        minus :: Utf8.bytes (Nat.toDigits 10 n.natAbs) := by
      rw [integerChars, if_pos negative]
      rfl
    rw [written, List.cons_append, number, scan_negative _ ended]
    simp only [value]
  · have value : NumberText.value ⟨false, (Nat.toDigits 10 n.natAbs).map digitOf, [], none⟩ =
        .ok (.integer n) := by
      have whole : (n.natAbs : Int) = n := by omega
      simp only [NumberText.value, NumberText.integer?, significand_eq wide, List.isEmpty_nil,
        Option.isNone_none, and_self, if_true, Bool.false_eq_true, if_false, whole]
    rw [integerChars, if_neg negative, number, scan_unsigned _ ended]
    simp only [value]

/-- The bytes of an integer begin as a number does. -/
theorem bytes_integerChars_cons (n : Int) :
    ∃ b more, Utf8.bytes (integerChars n) = b :: more ∧ (b = minus ∨ isDigit b = true) := by
  rw [integerChars]
  split
  · exact ⟨minus, _, rfl, .inl rfl⟩
  · obtain ⟨b, more, cons, digit⟩ := bytes_toDigits_cons n.natAbs
    exact ⟨b, more, cons, .inr digit⟩

theorem bytes_floatChars_cons (negative : Bool) (magnitude : Binary64) :
    ∃ b more, Utf8.bytes (floatLayout.chars negative magnitude) = b :: more ∧
      (b = minus ∨ isDigit b = true) := by
  obtain ⟨body, ⟨⟨first, more, rfl, digit⟩, -⟩, written⟩ :=
    Binary64.chars_eq floatLayout negative magnitude
  rw [written]
  cases negative with
  | true => exact ⟨minus, _, rfl, .inl rfl⟩
  | false =>
    have range := digit_range digit
    refine ⟨letter first, Utf8.bytes more, ?_, .inr (isDigit_letter digit)⟩
    rw [if_neg Bool.false_ne_true, List.nil_append, Utf8.bytes_cons,
      Utf8.encodeChar_ascii (by omega)]
    rfl

end LinkGate.Json
