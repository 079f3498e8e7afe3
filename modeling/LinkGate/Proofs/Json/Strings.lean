import LinkGate.Json.Token
import LinkGate.Json.Value
import LinkGate.Proofs.Text.Utf8

/-!
# Strings read back

A string is written with escapes and read by a scan over its bytes.  `Scans text bytes rest` says
what a scan makes of a text, with any fuel that is enough; it is built up from the closing quote
backwards, a byte, an escape or a character at a time.
-/

set_option autoImplicit false

namespace LinkGate.Json

def Scans (text bytes rest : Bytes) : Prop :=
  ∀ fuel, text.length ≤ fuel → scanWithin fuel text = .ok (bytes, rest)

/-- A byte that stands for itself. -/
def Plain (b : UInt8) : Prop :=
  b ≠ quote ∧ b ≠ backslash ∧ 0x20 ≤ b

namespace Scans

theorem quote (rest : Bytes) : Scans (quote :: rest) [] rest := by
  intro fuel enough
  cases fuel with
  | zero => simp at enough
  | succ fuel => rw [scanWithin, if_pos rfl]

theorem plain {b : UInt8} {text bytes rest : Bytes} (plain : Plain b)
    (scans : Scans text bytes rest) : Scans (b :: text) (b :: bytes) rest := by
  intro fuel enough
  cases fuel with
  | zero => simp at enough
  | succ fuel =>
    have further := scans fuel (Nat.le_of_succ_le_succ enough)
    have printing : ¬b < 0x20 := UInt8.not_lt.mpr plain.2.2
    rw [scanWithin, if_neg plain.1, if_neg plain.2.1, if_neg printing, further]

theorem plains {front text bytes rest : Bytes} (all : ∀ b ∈ front, Plain b)
    (scans : Scans text bytes rest) : Scans (front ++ text) (front ++ bytes) rest := by
  induction front with
  | nil => exact scans
  | cons b front ih =>
    have here := all b List.mem_cons_self
    exact plain here (ih fun c mem => all c (List.mem_cons_of_mem b mem))

theorem escape {tail text bytes rest : Bytes} {c : Char} (resolved : unescape tail = .ok (c, text))
    (shorter : text.length ≤ tail.length) (scans : Scans text bytes rest) :
    Scans (backslash :: tail) (Utf8.encodeChar c ++ bytes) rest := by
  intro fuel enough
  cases fuel with
  | zero => simp at enough
  | succ fuel =>
    have further := scans fuel (Nat.le_trans shorter (Nat.le_of_succ_le_succ enough))
    rw [scanWithin, if_neg (by decide), if_pos rfl, resolved]
    simp only [further]

end Scans

/-! ## The escapes -/

theorem hexValue?_digitChar {n : Nat} (small : n < 16) :
    hexValue? (letter (Nat.digitChar n)) = some n := by
  revert n
  decide

theorem encodeChar_digitChar {n : Nat} (small : n < 16) :
    Utf8.encodeChar (Nat.digitChar n) = [letter (Nat.digitChar n)] := by
  revert n
  decide

theorem unescape_codePoint {c : Char} (control : c.toNat < 0x20) (text : Bytes) :
    unescape (letter 'u' :: zero :: zero :: letter (Nat.digitChar (c.toNat / 16)) ::
      letter (Nat.digitChar (c.toNat % 16)) :: text) = .ok (c, text) := by
  have none : hexValue? zero = some 0 := by decide
  have high : hexValue? (letter (Nat.digitChar (c.toNat / 16))) = some (c.toNat / 16) :=
    hexValue?_digitChar (by omega)
  have low : hexValue? (letter (Nat.digitChar (c.toNat % 16))) = some (c.toNat % 16) :=
    hexValue?_digitChar (by omega)
  have unit : ((0 * 16 + 0) * 16 + c.toNat / 16) * 16 + c.toNat % 16 = c.toNat := by omega
  have noLow : isLowSurrogate c.toNat = false := by
    simp only [isLowSurrogate, Bool.and_eq_false_iff, decide_eq_false_iff_not]
    omega
  have noHigh : isHighSurrogate c.toNat = false := by
    simp only [isHighSurrogate, Bool.and_eq_false_iff, decide_eq_false_iff_not]
    omega
  change codePoint _ = _
  simp only [codePoint, hexUnit, none, high, low, unit, noLow, noHigh, Char.ofNat_toNat]
  rfl

/-- The ways to write a character inside a string. -/
inductive Escaped (c : Char) : List Char → Prop where
  | letter (l : Char) (ascii : l.toNat < 0x80)
      (resolved : ∀ text, unescape (letter l :: text) = .ok (c, text)) : Escaped c ['\\', l]
  | codePoint (control : c.toNat < 0x20) :
    Escaped c ['\\', 'u', '0', '0', Nat.digitChar (c.toNat / 16), Nat.digitChar (c.toNat % 16)]
  | itself (noQuote : c ≠ '"') (noBackslash : c ≠ '\\') (printing : 0x20 ≤ c.toNat) :
    Escaped c [c]

theorem escaped (c : Char) : Escaped c (escape c) := by
  by_cases isQuote : c = '"'
  · subst isQuote
    exact .letter '"' (by decide) fun _ => rfl
  by_cases isBackslash : c = '\\'
  · subst isBackslash
    exact .letter '\\' (by decide) fun _ => rfl
  by_cases isBackspace : c = '\x08'
  · subst isBackspace
    exact .letter 'b' (by decide) fun _ => rfl
  by_cases isTab : c = '\t'
  · subst isTab
    exact .letter 't' (by decide) fun _ => rfl
  by_cases isNewline : c = '\n'
  · subst isNewline
    exact .letter 'n' (by decide) fun _ => rfl
  by_cases isFormFeed : c = '\x0c'
  · subst isFormFeed
    exact .letter 'f' (by decide) fun _ => rfl
  by_cases isReturn : c = '\r'
  · subst isReturn
    exact .letter 'r' (by decide) fun _ => rfl
  simp only [escape, if_neg isQuote, if_neg isBackslash, if_neg isBackspace, if_neg isTab,
    if_neg isNewline, if_neg isFormFeed, if_neg isReturn]
  by_cases control : c.toNat < 0x20
  · rw [if_pos control]
    exact .codePoint control
  · rw [if_neg control]
    exact .itself isQuote isBackslash (Nat.le_of_not_lt control)

/-- A character that stands for itself does so in all its bytes. -/
theorem plain_encodeChar {c : Char} (noQuote : c ≠ '"') (noBackslash : c ≠ '\\')
    (printing : 0x20 ≤ c.toNat) {b : UInt8} (mem : b ∈ Utf8.encodeChar c) : Plain b := by
  by_cases ascii : c.toNat < 0x80
  · have small : c.toNat < 256 := by omega
    rw [Utf8.encodeChar_ascii ascii, List.mem_singleton] at mem
    subst mem
    refine ⟨fun same => noQuote ?_, fun same => noBackslash ?_, (Utf8.le_byte small).mpr printing⟩
    · exact Char.toNat_inj.mp ((Utf8.byte_eq small).mp same)
    · exact Char.toNat_inj.mp ((Utf8.byte_eq small).mp same)
  · have high := (Utf8.width c).all_high (Nat.le_of_not_lt ascii) mem
    refine ⟨?_, ?_, UInt8.le_trans (by decide) high⟩
    · rintro rfl
      exact absurd high (by decide)
    · rintro rfl
      exact absurd high (by decide)

/-! ## Whole strings -/

theorem Escaped.scans {c : Char} {written : List Char} (way : Escaped c written)
    {text bytes rest : Bytes} (scans : Scans text bytes rest) :
    Scans (Utf8.bytes written ++ text) (Utf8.encodeChar c ++ bytes) rest := by
  cases way with
  | letter l ascii resolved =>
    rw [Utf8.bytes_cons, Utf8.bytes_cons, Utf8.encodeChar_ascii ascii]
    exact .escape (resolved text) (Nat.le_succ _) scans
  | codePoint control =>
    have high : Utf8.encodeChar (Nat.digitChar (c.toNat / 16)) = _ :=
      encodeChar_digitChar (by omega)
    have low : Utf8.encodeChar (Nat.digitChar (c.toNat % 16)) = _ :=
      encodeChar_digitChar (by omega)
    simp only [Utf8.bytes_cons, Utf8.bytes_nil, high, low]
    exact .escape (unescape_codePoint control text) (Nat.le_add_right _ 5) scans
  | itself noQuote noBackslash printing =>
    rw [Utf8.bytes_cons, Utf8.bytes_nil, List.append_nil]
    exact .plains (fun b mem => plain_encodeChar noQuote noBackslash printing mem) scans

theorem scans_stringChars (chars : List Char) (rest : Bytes) :
    Scans (Utf8.bytes (chars.flatMap escape) ++ quote :: rest) (Utf8.bytes chars) rest := by
  induction chars with
  | nil => exact .quote rest
  | cons c chars ih =>
    rw [List.flatMap_cons, Utf8.bytes_append, List.append_assoc, Utf8.bytes_cons]
    exact (escaped c).scans ih

theorem bytes_stringChars (s : String) :
    Utf8.bytes (stringChars s) = quote :: Utf8.bytes (s.toList.flatMap escape) ++ [quote] := by
  rw [stringChars, List.cons_append, Utf8.bytes_cons, Utf8.bytes_append]
  rfl

/-- Behind its opening quote a written string reads back. -/
theorem stringBody_eq (s : String) (rest : Bytes) :
    stringBody (Utf8.bytes (s.toList.flatMap escape) ++ quote :: rest) = .ok (s, rest) := by
  have scanned := scans_stringChars s.toList rest _ (Nat.le_refl _)
  have decoded : Utf8.decode? (Utf8.bytes s.toList) = some s := Utf8.decode?_encode s
  simp only [stringBody, scanned, decoded]

end LinkGate.Json
