import LinkGate.Proofs.Text.Pieces
import LinkGate.Proofs.Text.WellFormed

/-!
# Lines of any bytes

Bytes that begin no character end before the next ASCII byte at the latest, so what is made of them
does not reach across one.  Decoding bytes line by line therefore gives the lines of their text, and
a line that is well-formed comes out as it is, whatever stands around it.
-/

set_option autoImplicit false

namespace LinkGate.Utf8

/-- What is behind the front of some bytes when others follow them. -/
def Step.followed (behind : Bytes) : Step → Step
  | ended => ended
  | char c rest => char c (rest ++ behind)
  | broken rest => broken (rest ++ behind)

/-- The text of some bytes, what begins no character shown as U+FFFD. -/
inductive Lossy : Bytes → List Char → Prop where
  | nil : Lossy [] []
  | char {coded rest : Bytes} {c : Char} {chars : List Char} (taken : step coded = .char c rest)
    (others : Lossy rest chars) : Lossy coded (c :: chars)
  | broken {coded rest : Bytes} {chars : List Char} (taken : step coded = .broken rest)
    (others : Lossy rest chars) : Lossy coded ('\uFFFD' :: chars)

theorem suffix_of_continuation {count value : Nat} {low high : UInt8} {coded rest : Bytes}
    (taken : continuation count value low high coded = .broken rest) : rest <:+ coded := by
  induction count generalizing value low high coded with
  | zero => cases taken
  | succ count ih =>
    cases coded with
    | nil =>
      cases taken
      exact List.suffix_rfl
    | cons b coded =>
      rw [continuation] at taken
      split at taken
      case isTrue => exact (ih taken).trans (List.suffix_cons b coded)
      case isFalse =>
        cases taken
        exact List.suffix_rfl

theorem suffix_of_step {b : UInt8} {coded rest : Bytes} (taken : step (b :: coded) = .broken rest) :
    rest <:+ coded := by
  rcases step_cases b with char | broken | ⟨count, value, low, high, -, further⟩
  · rw [char] at taken
    cases taken
  · rw [broken] at taken
    cases taken
    exact List.suffix_rfl
  · rw [further] at taken
    exact suffix_of_continuation taken

theorem lossy_decodeLossyWithin {fuel : Nat} {coded : Bytes} (enough : coded.length ≤ fuel) :
    Lossy coded (decodeLossyWithin fuel coded) := by
  induction fuel generalizing coded with
  | zero =>
    rw [List.eq_nil_of_length_eq_zero (Nat.le_zero.mp enough)]
    exact .nil
  | succ fuel ih =>
    rw [decodeLossyWithin]
    cases coded with
    | nil => exact .nil
    | cons b coded =>
      split
      case h_1 ended => exact absurd ended (step_cons_ne_ended b coded)
      case h_2 c rest taken =>
        refine .char taken (ih ?_)
        have cut := congrArg List.length (step_eq_char_iff.mp taken)
        have wide := (width c).length_pos
        rw [List.length_append] at cut
        omega
      case h_3 rest taken =>
        refine .broken taken (ih ?_)
        exact Nat.le_trans (suffix_of_step taken).length_le (Nat.le_of_succ_le_succ enough)

theorem lossy_decodeLossy (coded : Bytes) : Lossy coded (decodeLossy coded).toList := by
  rw [decodeLossy, String.toList_ofList]
  exact lossy_decodeLossyWithin (Nat.le_refl _)

theorem lossy_bytes (chars : List Char) : Lossy (bytes chars) chars := by
  induction chars with
  | nil => exact .nil
  | cons c rest ih =>
    rw [bytes_cons]
    exact .char (step_encodeChar c _) ih

namespace Lossy
variable {coded front back : Bytes} {chars others : List Char}

theorem unique (one : Lossy coded chars) (two : Lossy coded others) : chars = others := by
  induction one generalizing others with
  | nil =>
    cases two with
    | nil => rfl
    | char taken | broken taken => cases taken
  | char taken _ ih =>
    cases two with
    | nil => cases taken
    | char again more =>
      rw [taken] at again
      cases again
      rw [ih more]
    | broken again =>
      rw [taken] at again
      cases again
  | broken taken _ ih =>
    cases two with
    | nil => cases taken
    | char again =>
      rw [taken] at again
      cases again
    | broken again more =>
      rw [taken] at again
      cases again
      rw [ih more]

/-- A character below 0x80 is there only where its byte is. -/
theorem mem_of_mem {c : Char} (lossy : Lossy coded chars) (ascii : c.toNat < 0x80)
    (mem : c ∈ chars) : UInt8.ofNat c.toNat ∈ coded := by
  induction lossy with
  | nil => cases mem
  | @char coded rest d chars taken _ ih =>
    rw [step_eq_char_iff.mp taken, List.mem_append]
    rcases List.mem_cons.mp mem with rfl | later
    · rw [encodeChar_ascii ascii]
      exact .inl (List.mem_singleton_self _)
    · exact .inr (ih later)
  | @broken coded rest chars taken _ ih =>
    rcases List.mem_cons.mp mem with rfl | later
    · exact absurd ascii (by decide)
    · cases coded with
      | nil => cases taken
      | cons b coded => exact List.mem_cons_of_mem b ((suffix_of_step taken).subset (ih later))

end Lossy

/-! ## Behind an ASCII byte -/

section
variable {b : UInt8} (ascii : b < 0x80) (behind : Bytes)
include ascii

theorem continuation_followed {count value : Nat} {low high : UInt8} (floor : 0x80 ≤ low)
    (coded : Bytes) : continuation count value low high (coded ++ b :: behind) =
      (continuation count value low high coded).followed (b :: behind) := by
  induction count generalizing value low high coded with
  | zero => rfl
  | succ count ih =>
    cases coded with
    | nil =>
      have below : ¬(low ≤ b ∧ b ≤ high) := fun bounds =>
        absurd (UInt8.lt_of_le_of_lt (UInt8.le_trans floor bounds.1) ascii) (UInt8.lt_irrefl _)
      simp only [List.nil_append, continuation, if_neg below, Step.followed]
    | cons d coded =>
      rw [List.cons_append, continuation, continuation]
      split
      case isTrue => exact ih (by decide) coded
      case isFalse => rfl

theorem step_followed (d : UInt8) (coded : Bytes) :
    step (d :: coded ++ b :: behind) = (step (d :: coded)).followed (b :: behind) := by
  rw [List.cons_append]
  rcases step_cases d with char | broken | ⟨count, value, low, high, floor, further⟩
  · rw [char, char]
    rfl
  · rw [broken, broken]
    rfl
  · rw [further, further]
    exact continuation_followed ascii behind floor coded

end

/-- The texts on both sides of an ASCII character are decoded apart from each other. -/
theorem Lossy.append {c : Char} {front back : Bytes} {chars others : List Char}
    (ascii : c.toNat < 0x80) (one : Lossy front chars) (two : Lossy back others) :
    Lossy (front ++ UInt8.ofNat c.toNat :: back) (chars ++ c :: others) := by
  have low : UInt8.ofNat c.toNat < 0x80 := (byte_lt (by omega)).mpr ascii
  induction one with
  | nil =>
    rw [List.nil_append, List.nil_append, ← List.singleton_append, ← encodeChar_ascii ascii]
    exact .char (step_encodeChar c back) two
  | @char coded rest d chars taken _ ih =>
    cases coded with
    | nil => cases taken
    | cons b coded =>
      have further := step_followed low back b coded
      rw [taken] at further
      exact .char further ih
  | @broken coded rest chars taken _ ih =>
    cases coded with
    | nil => cases taken
    | cons b coded =>
      have further := step_followed low back b coded
      rw [taken] at further
      exact .broken further ih

/-! ## Texts -/

theorem decodeLossy_eq {coded : Bytes} {chars : List Char} (lossy : Lossy coded chars) :
    decodeLossy coded = String.ofList chars := by
  rw [← (lossy_decodeLossy coded).unique lossy, String.ofList_toList]

theorem decodeLossy_encode (s : String) : decodeLossy (encode s) = s :=
  (decodeLossy_eq (lossy_bytes s.toList)).trans String.ofList_toList

def lineFeed : UInt8 := 0x0A

/-- The lines of a text are the texts of the lines. -/
theorem pieces_decodeLossy (coded : Bytes) :
    (pieces '\n' (decodeLossy coded).toList).map String.ofList =
      (pieces lineFeed coded).map decodeLossy := by
  have single {line : Bytes} (absent : lineFeed ∉ line) :
      (pieces '\n' (decodeLossy line).toList).map String.ofList = [decodeLossy line] := by
    have none : '\n' ∉ (decodeLossy line).toList := fun there =>
      absent ((lossy_decodeLossy line).mem_of_mem (by decide) there)
    rw [pieces_of_not_mem '\n' none, List.map_singleton, String.ofList_toList]
  by_cases there : lineFeed ∈ coded
  case neg => rw [single there, pieces_of_not_mem lineFeed there, List.map_singleton]
  case pos =>
    obtain ⟨front, back, same, absent⟩ := List.eq_append_cons_of_mem there
    have ascii : '\n'.toNat < 0x80 := by decide
    have both : Lossy (front ++ lineFeed :: back) ((decodeLossy front).toList ++
        '\n' :: (decodeLossy back).toList) :=
      (lossy_decodeLossy front).append ascii (lossy_decodeLossy back)
    rw [same, decodeLossy_eq both, String.toList_ofList, pieces_append, pieces_append,
      List.map_append, List.map_append, single absent, pieces_of_not_mem lineFeed absent,
      List.map_singleton, pieces_decodeLossy back]
termination_by coded.length
decreasing_by
  rw [same, List.length_append, List.length_cons]
  omega

end LinkGate.Utf8
