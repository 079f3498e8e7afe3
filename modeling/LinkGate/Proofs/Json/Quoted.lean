import LinkGate.Proofs.Json.Grammar
import LinkGate.Proofs.Json.Strings
import LinkGate.Proofs.Text.WellFormed

/-!
# Which strings are read

A string is scanned byte by byte and decoded afterwards, while the grammar has it character by
character.  Both agree because an escape stands for whole characters: behind the lead byte of a
character the scan can only go on with its continuation bytes, as no escape gives such a byte first.
-/

set_option autoImplicit false

namespace LinkGate.Json

/-! ## Escapes -/

theorem letter_digitChar {n : Nat} (small : n < 10) :
    letter n.digitChar = UInt8.ofNat (0x30 + n) := by
  revert n
  decide

theorem letter_digitChar_lower {n : Nat} (small : n < 6) :
    letter (n + 10).digitChar = UInt8.ofNat (0x61 + n) := by
  revert n
  decide

theorem letter_digitChar_upper {n : Nat} (small : n < 6) :
    letter (n + 10).digitChar.toUpper = UInt8.ofNat (0x41 + n) := by
  revert n
  decide

theorem hexValue?_eq_some_iff {b : UInt8} {n : Nat} : hexValue? b = some n ↔ HexDigit b n := by
  constructor
  · intro found
    have offset {base m : Nat} (same : b.toNat = base + m) : b = UInt8.ofNat (base + m) := by
      rw [← same, UInt8.ofNat_toNat]
    simp only [hexValue?, UInt8.le_iff_toNat_le, UInt8.reduceToNat] at found
    split at found
    case isTrue range =>
      obtain rfl := Option.some.inj found
      have small : b.toNat - 0x30 < 10 := by omega
      refine ⟨by omega, .inl ?_⟩
      rw [letter_digitChar small]
      exact offset (by omega)
    split at found
    case isTrue range =>
      obtain rfl := Option.some.inj found
      have small : b.toNat - 0x41 < 6 := by omega
      refine ⟨by omega, .inr ?_⟩
      rw [letter_digitChar_upper small]
      exact offset (by omega)
    split at found
    case isTrue range =>
      obtain rfl := Option.some.inj found
      have small : b.toNat - 0x61 < 6 := by omega
      refine ⟨by omega, .inl ?_⟩
      rw [letter_digitChar_lower small]
      exact offset (by omega)
    case isFalse => cases found
  · rintro ⟨small, rfl | rfl⟩
    · exact hexValue?_digitChar small
    · revert n
      decide

theorem hexUnit_eq_ok_iff {text rest : Bytes} {n : Nat} :
    hexUnit text = .ok (n, rest) ↔ HexUnit text n rest := by
  constructor
  · intro taken
    rw [hexUnit.eq_def] at taken
    split at taken
    case h_2 => cases taken
    case h_1 a b c d rest =>
      split at taken
      case h_2 => cases taken
      case h_1 w x y z first second third fourth =>
        cases taken
        exact .digits (hexValue?_eq_some_iff.mp first) (hexValue?_eq_some_iff.mp second)
          (hexValue?_eq_some_iff.mp third) (hexValue?_eq_some_iff.mp fourth) rest
  · rintro ⟨first, second, third, fourth, rest⟩
    simp only [hexUnit, hexValue?_eq_some_iff.mpr first, hexValue?_eq_some_iff.mpr second,
      hexValue?_eq_some_iff.mpr third, hexValue?_eq_some_iff.mpr fourth]

theorem lowSurrogate_eq_ok_iff {text rest : Bytes} {low : Nat} :
    lowSurrogate text = .ok (low, rest) ↔
      ∃ behind, text = backslash :: letter 'u' :: behind ∧ HexUnit behind low rest ∧
        isLowSurrogate low = true := by
  constructor
  · intro taken
    rw [lowSurrogate.eq_def] at taken
    split at taken
    case h_1 => cases taken
    case h_2 b text =>
      split at taken
      case isFalse => cases taken
      case isTrue isBackslash =>
        split at taken
        case h_1 => cases taken
        case h_2 u text =>
          split at taken
          case isFalse => cases taken
          case isTrue isU =>
            split at taken
            case h_1 => cases taken
            case h_2 unit behind unitTaken =>
              split at taken
              case isFalse => cases taken
              case isTrue isLow =>
                cases taken
                subst isBackslash isU
                exact ⟨text, rfl, hexUnit_eq_ok_iff.mp unitTaken, isLow⟩
  · rintro ⟨behind, rfl, unit, isLow⟩
    simp only [lowSurrogate, if_true, hexUnit_eq_ok_iff.mpr unit, if_pos isLow]

theorem isHighSurrogate_iff {n : Nat} : isHighSurrogate n = true ↔ 0xD800 ≤ n ∧ n < 0xDC00 := by
  rw [isHighSurrogate, Bool.and_eq_true, decide_eq_true_eq, decide_eq_true_eq]

theorem isLowSurrogate_iff {n : Nat} : isLowSurrogate n = true ↔ 0xDC00 ≤ n ∧ n < 0xE000 := by
  rw [isLowSurrogate, Bool.and_eq_true, decide_eq_true_eq, decide_eq_true_eq]

theorem Escape.of_codePoint {text rest : Bytes} {c : Char}
    (taken : codePoint text = .ok (c, rest)) : Escape (letter 'u' :: text) c rest := by
  rw [codePoint] at taken
  split at taken
  case h_1 => cases taken
  case h_2 unit behind unitTaken =>
    have digits := hexUnit_eq_ok_iff.mp unitTaken
    split at taken
    case isTrue => cases taken
    case isFalse noLow =>
      rw [isLowSurrogate_iff] at noLow
      split at taken
      case isFalse noHigh =>
        rw [isHighSurrogate_iff] at noHigh
        cases taken
        exact .unit digits (by omega)
      case isTrue isHigh =>
        split at taken
        case h_1 => cases taken
        case h_2 low last lowTaken =>
          obtain ⟨second, rfl, lowDigits, isLow⟩ := lowSurrogate_eq_ok_iff.mp lowTaken
          obtain ⟨rfl, rfl⟩ := Prod.mk.inj (Except.ok.inj taken)
          exact .pair digits (isHighSurrogate_iff.mp isHigh) lowDigits (isLowSurrogate_iff.mp isLow)

theorem HexUnit.length_eq {text rest : Bytes} {n : Nat} (unit : HexUnit text n rest) :
    text.length = rest.length + 4 := by
  cases unit with
  | digits => rfl

theorem Escape.codePoint_eq {text rest : Bytes} {c : Char} {u : UInt8} (isU : u = letter 'u')
    (escape : Escape (u :: text) c rest) : codePoint text = .ok (c, rest) := by
  have noShort : ∀ entry ∈ shortEscapes, entry.1 ≠ letter 'u' := by decide
  generalize taken : u :: text = tail at escape
  cases escape with
  | short known rest =>
    obtain ⟨rfl, -⟩ := List.cons.inj taken
    exact absurd isU (noShort _ known)
  | @unit _ _ n digits noSurrogate =>
    obtain ⟨-, rfl⟩ := List.cons.inj taken
    have noLow : ¬isLowSurrogate n = true := by
      rw [isLowSurrogate_iff]
      omega
    have noHigh : ¬isHighSurrogate n = true := by
      rw [isHighSurrogate_iff]
      omega
    simp only [codePoint, hexUnit_eq_ok_iff.mpr digits, if_neg noLow, if_neg noHigh]
  | @pair _ behind _ high low first isHigh second isLow =>
    obtain ⟨-, rfl⟩ := List.cons.inj taken
    have noLow : ¬isLowSurrogate high = true := by
      rw [isLowSurrogate_iff]
      omega
    have half : lowSurrogate (backslash :: letter 'u' :: behind) = .ok (low, rest) :=
      lowSurrogate_eq_ok_iff.mpr ⟨behind, rfl, second, isLowSurrogate_iff.mpr isLow⟩
    simp only [codePoint, hexUnit_eq_ok_iff.mpr first, if_neg noLow,
      if_pos (isHighSurrogate_iff.mpr isHigh), half]

theorem unescape_short {b : UInt8} {c : Char} (known : (b, c) ∈ shortEscapes) (rest : Bytes) :
    unescape (b :: rest) = .ok (c, rest) := by
  simp only [shortEscapes, List.mem_cons, Prod.mk.injEq, List.not_mem_nil, or_false] at known
  rcases known with ⟨rfl, rfl⟩ | ⟨rfl, rfl⟩ | ⟨rfl, rfl⟩ | ⟨rfl, rfl⟩ | ⟨rfl, rfl⟩ | ⟨rfl, rfl⟩ |
    ⟨rfl, rfl⟩ | ⟨rfl, rfl⟩ <;> rfl

theorem unescape_eq_ok_iff {tail rest : Bytes} {c : Char} :
    unescape tail = .ok (c, rest) ↔ Escape tail c rest := by
  constructor
  · intro taken
    rw [unescape.eq_def] at taken
    split at taken
    case h_1 => cases taken
    case h_2 b text =>
      have short {l : UInt8} {d : Char} (known : (l, d) ∈ shortEscapes) (isLetter : b = l)
          (result : (Except.ok (d, text) : Except Fault (Char × Bytes)) = .ok (c, rest)) :
          Escape (b :: text) c rest := by
        cases result
        exact isLetter ▸ .short known rest
      iterate 8
        split at taken
        case isTrue isLetter => exact short (by decide) isLetter taken
      split at taken
      case isTrue isLetter => exact isLetter ▸ .of_codePoint taken
      case isFalse => cases taken
  · intro escape
    cases tail with
    | nil => cases escape
    | cons b text =>
      by_cases isU : b = letter 'u'
      · rw [isU]
        exact escape.codePoint_eq isU
      · cases escape with
        | short known rest => exact unescape_short known rest
        | unit => exact absurd rfl isU
        | pair => exact absurd rfl isU

theorem Escape.shorter {tail rest : Bytes} {c : Char} (escape : Escape tail c rest) :
    rest.length < tail.length := by
  cases escape with
  | short known rest => exact Nat.lt_succ_self _
  | unit digits =>
    rw [List.length_cons, digits.length_eq]
    omega
  | pair first isHigh second =>
    rw [List.length_cons, first.length_eq, List.length_cons, List.length_cons, second.length_eq]
    omega

/-! ## Bytes and characters -/

/-- A byte inside a character. -/
def Continues (b : UInt8) : Prop :=
  0x80 ≤ b ∧ b < 0xC0

theorem encodeChar_cons (c : Char) :
    ∃ lead inner,
      Utf8.encodeChar c = lead :: inner ∧ ¬Continues lead ∧ ∀ b ∈ inner, Continues b := by
  have group (n : Nat) : Continues (UInt8.ofNat (0x80 + n % 64)) := by
    have small : 0x80 + n % 64 < 256 := by omega
    refine ⟨(Utf8.le_byte small).mpr ?_, (Utf8.byte_lt small).mpr ?_⟩
    · exact Nat.le_add_right _ _
    · simp only [UInt8.reduceToNat]
      omega
  have lead {n : Nat} (outside : n < 0x80 ∨ 0xC0 ≤ n) (small : n < 256) :
      ¬Continues (UInt8.ofNat n) := by
    simp only [Continues, Utf8.le_byte small, Utf8.byte_lt small, UInt8.reduceToNat]
    omega
  have width := Utf8.width c
  generalize Utf8.encodeChar c = coded at width ⊢
  cases width with
  | one high => exact ⟨_, _, rfl, lead (.inl high) (by omega), nofun⟩
  | two low high =>
    refine ⟨_, _, rfl, lead (.inr (by omega)) (by omega), ?_⟩
    simpa only [List.forall_mem_singleton] using group c.toNat
  | three low high =>
    refine ⟨_, _, rfl, lead (.inr (by omega)) (by omega), ?_⟩
    simpa only [List.forall_mem_cons, List.forall_mem_singleton] using
      ⟨group (c.toNat / 64), group c.toNat, nofun⟩
  | four low high =>
    refine ⟨_, _, rfl, lead (.inr (by omega)) (by omega), ?_⟩
    simpa only [List.forall_mem_cons, List.forall_mem_singleton] using
      ⟨group (c.toNat / 4096), group (c.toNat / 64), group c.toNat, nofun⟩

theorem encodeChar_ne_nil (c : Char) : Utf8.encodeChar c ≠ [] := by
  obtain ⟨lead, inner, coded, -, -⟩ := encodeChar_cons c
  rw [coded]
  nofun

/-- Characters whose bytes begin with those of one character begin with it. -/
theorem bytes_eq_encodeChar_append {chars : List Char} {c : Char} {others : Bytes}
    (same : Utf8.bytes chars = Utf8.encodeChar c ++ others) :
    ∃ more, chars = c :: more ∧ Utf8.bytes more = others := by
  cases chars with
  | nil => exact absurd (List.append_eq_nil_iff.mp same.symm).1 (encodeChar_ne_nil c)
  | cons d more =>
    have front := Utf8.step_encodeChar c others
    rw [← same, Utf8.bytes_cons, Utf8.step_encodeChar] at front
    obtain ⟨rfl, rfl⟩ := Utf8.Step.char.inj front
    exact ⟨more, rfl, rfl⟩

theorem quotable_of_lead {c : Char} {b : UInt8} {inner : Bytes}
    (coded : Utf8.encodeChar c = b :: inner) (noQuote : b ≠ quote) (noBackslash : b ≠ backslash)
    (printing : ¬b < 0x20) : c ≠ '"' ∧ c ≠ '\\' ∧ 0x20 ≤ c.toNat := by
  refine ⟨?_, ?_, ?_⟩
  · rintro rfl
    exact noQuote (List.cons.inj coded).1.symm
  · rintro rfl
    exact noBackslash (List.cons.inj coded).1.symm
  · apply Nat.le_of_not_lt
    intro control
    rw [Utf8.encodeChar_ascii (by omega)] at coded
    obtain ⟨rfl, -⟩ := List.cons.inj coded
    exact printing ((Utf8.byte_lt (by omega)).mpr control)

/-! ## Whole strings -/

/-- What is scanned is quoted.  `inner` is what is left of a character in hand. -/
theorem Quoted.of_scanWithin {fuel : Nat} {inner text rest : Bytes} {chars : List Char}
    (continues : ∀ b ∈ inner, Continues b)
    (scanned : scanWithin fuel text = .ok (inner ++ Utf8.bytes chars, rest)) :
    ∃ behind, text = inner ++ behind ∧ Quoted behind chars rest := by
  induction fuel generalizing inner text chars with
  | zero => cases scanned
  | succ fuel ih =>
    cases text with
    | nil => cases scanned
    | cons b text =>
      rw [scanWithin] at scanned
      split at scanned
      case isTrue isQuote =>
        obtain ⟨none, rfl⟩ := Prod.mk.inj (Except.ok.inj scanned)
        obtain ⟨rfl, noBytes⟩ := List.append_eq_nil_iff.mp none.symm
        cases chars with
        | nil => exact ⟨_, rfl, isQuote ▸ .close text⟩
        | cons c chars => exact absurd (List.append_eq_nil_iff.mp noBytes).1 (encodeChar_ne_nil c)
      case isFalse noQuote =>
        split at scanned
        case isTrue isBackslash =>
          split at scanned
          case h_1 => cases scanned
          case h_2 c behind escape =>
            split at scanned
            case h_1 => cases scanned
            case h_2 others last further =>
              obtain ⟨resolved, rfl⟩ := Prod.mk.inj (Except.ok.inj scanned)
              cases inner with
              | nil =>
                obtain ⟨more, rfl, rfl⟩ := bytes_eq_encodeChar_append resolved.symm
                obtain ⟨_, rfl, quoted⟩ := ih (List.forall_mem_nil Continues) further
                exact ⟨_, rfl, isBackslash ▸ .escaped (unescape_eq_ok_iff.mp escape) quoted⟩
              | cons k inner =>
                obtain ⟨lead, others, coded, noInner, -⟩ := encodeChar_cons c
                rw [coded] at resolved
                obtain ⟨rfl, -⟩ := List.cons.inj resolved
                exact absurd (continues lead List.mem_cons_self) noInner
        case isFalse noBackslash =>
          split at scanned
          case isTrue => cases scanned
          case isFalse printing =>
            split at scanned
            case h_1 => cases scanned
            case h_2 others last further =>
              obtain ⟨same, rfl⟩ := Prod.mk.inj (Except.ok.inj scanned)
              cases inner with
              | nil =>
                cases chars with
                | nil => cases same
                | cons c chars =>
                  obtain ⟨lead, inner, coded, -, tails⟩ := encodeChar_cons c
                  rw [List.nil_append, Utf8.bytes_cons, coded] at same
                  obtain ⟨rfl, rfl⟩ := List.cons.inj same
                  obtain ⟨behind, rfl, quoted⟩ := ih tails further
                  have quotable := quotable_of_lead coded noQuote noBackslash printing
                  refine ⟨_, rfl, ?_⟩
                  rw [← List.cons_append, ← coded]
                  exact .plain quotable.1 quotable.2.1 quotable.2.2 quoted
              | cons k inner =>
                obtain ⟨rfl, rfl⟩ := List.cons.inj same
                obtain ⟨behind, rfl, quoted⟩ :=
                  ih (fun c mem => continues c (List.mem_cons_of_mem b mem)) further
                exact ⟨behind, rfl, quoted⟩

theorem Quoted.scans {text rest : Bytes} {chars : List Char} (quoted : Quoted text chars rest) :
    Scans text (Utf8.bytes chars) rest := by
  induction quoted with
  | close rest => exact .quote rest
  | plain noQuote noBackslash printing others ih =>
    exact .plains (fun b mem => plain_encodeChar noQuote noBackslash printing mem) ih
  | escaped escape others ih =>
    exact .escape (unescape_eq_ok_iff.mpr escape) (Nat.le_of_lt escape.shorter) ih

theorem stringBody_eq_ok_iff {text rest : Bytes} {s : String} :
    stringBody text = .ok (s, rest) ↔ Quoted text s.toList rest := by
  constructor
  · intro taken
    rw [stringBody] at taken
    split at taken
    case h_1 => cases taken
    case h_2 coded behind scanned =>
      split at taken
      case h_2 => cases taken
      case h_1 decoded =>
        obtain ⟨rfl, rfl⟩ := Prod.mk.inj (Except.ok.inj taken)
        rw [Utf8.decode?_eq_some_iff.mp decoded] at scanned
        obtain ⟨_, rfl, quoted⟩ := Quoted.of_scanWithin (List.forall_mem_nil Continues) scanned
        exact quoted
  · intro quoted
    have scanned := quoted.scans _ (Nat.le_refl _)
    have decoded : Utf8.decode? (Utf8.bytes s.toList) = some s := Utf8.decode?_encode s
    simp only [stringBody, scanned, decoded]

theorem Quoted.shorter {text rest : Bytes} {chars : List Char} (quoted : Quoted text chars rest) :
    rest.length < text.length := by
  induction quoted with
  | close rest => exact Nat.lt_succ_self _
  | plain noQuote noBackslash printing others ih =>
    rw [List.length_append]
    omega
  | escaped escape others ih =>
    have further := escape.shorter
    rw [List.length_cons]
    omega

end LinkGate.Json
