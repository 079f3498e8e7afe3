import LinkGate.Text.Utf8

/-!
# Text from its own bytes

Decoding undoes encoding.  Both work character by character, so all is said by `step_encodeChar`:
the bytes of a character in front of any others are read as that character.  A character of several
bytes has none below 0x80, so what looks for ASCII may look at bytes.
-/

set_option autoImplicit false

namespace LinkGate.Utf8

/-- The bytes of some characters. -/
def bytes (chars : List Char) : Bytes :=
  chars.flatMap encodeChar

@[simp] theorem bytes_nil : bytes [] = [] :=
  rfl

@[simp] theorem bytes_cons (c : Char) (chars : List Char) :
    bytes (c :: chars) = encodeChar c ++ bytes chars :=
  List.flatMap_cons

@[simp] theorem bytes_append (front back : List Char) :
    bytes (front ++ back) = bytes front ++ bytes back :=
  List.flatMap_append

theorem encode_ofList (chars : List Char) : encode (String.ofList chars) = bytes chars := by
  rw [encode, String.toList_ofList, bytes]

/-! ## Single bytes -/

section
variable {n : Nat} {b : UInt8} (small : n < 256)
include small

theorem toNat_byte : (UInt8.ofNat n).toNat = n := by
  rw [UInt8.toNat_ofNat', Nat.mod_eq_of_lt small]

theorem byte_lt : UInt8.ofNat n < b ↔ n < b.toNat := by
  rw [UInt8.lt_iff_toNat_lt, toNat_byte small]

theorem byte_le : UInt8.ofNat n ≤ b ↔ n ≤ b.toNat := by
  rw [UInt8.le_iff_toNat_le, toNat_byte small]

theorem le_byte : b ≤ UInt8.ofNat n ↔ b.toNat ≤ n := by
  rw [UInt8.le_iff_toNat_le, toNat_byte small]

theorem byte_eq : UInt8.ofNat n = b ↔ n = b.toNat := by
  rw [← UInt8.toNat_inj, toNat_byte small]

end

/-! ## The four widths -/

theorem toNat_range (c : Char) : c.toNat < 0xD800 ∨ 0xDFFF < c.toNat ∧ c.toNat < 0x110000 :=
  c.valid

/-- The bytes of a character, by how many there are. -/
inductive Width (n : Nat) : Bytes → Prop where
  | one (high : n < 0x80) : Width n [UInt8.ofNat n]
  | two (low : 0x80 ≤ n) (high : n < 0x800) :
    Width n [UInt8.ofNat (0xC0 + n / 64), UInt8.ofNat (0x80 + n % 64)]
  | three (low : 0x800 ≤ n) (high : n < 0x10000) (noSurrogate : n < 0xD800 ∨ 0xDFFF < n) :
    Width n [UInt8.ofNat (0xE0 + n / 4096), UInt8.ofNat (0x80 + n / 64 % 64),
      UInt8.ofNat (0x80 + n % 64)]
  | four (low : 0x10000 ≤ n) (high : n < 0x110000) :
    Width n [UInt8.ofNat (0xF0 + n / 262144), UInt8.ofNat (0x80 + n / 4096 % 64),
      UInt8.ofNat (0x80 + n / 64 % 64), UInt8.ofNat (0x80 + n % 64)]

theorem width (c : Char) : Width c.toNat (encodeChar c) := by
  have range := toNat_range c
  simp only [encodeChar]
  split
  case isTrue high => exact .one high
  case isFalse low =>
    split
    case isTrue high => exact .two (by omega) high
    case isFalse low =>
      split
      case isTrue high => exact .three (by omega) high (by omega)
      case isFalse low => exact .four (by omega) (by omega)

theorem Width.length_pos {n : Nat} {coded : Bytes} (width : Width n coded) : 0 < coded.length := by
  cases width <;> exact Nat.succ_pos _

theorem length_le_bytes (chars : List Char) : chars.length ≤ (bytes chars).length := by
  induction chars with
  | nil => exact Nat.le_refl 0
  | cons c rest ih =>
    have here := (width c).length_pos
    simp only [bytes_cons, List.length_cons, List.length_append]
    omega

theorem encodeChar_ascii {c : Char} (ascii : c.toNat < 0x80) :
    encodeChar c = [UInt8.ofNat c.toNat] :=
  if_pos ascii

/-- All bytes of a character beyond ASCII lie beyond ASCII. -/
theorem Width.all_high {n : Nat} {coded : Bytes} (width : Width n coded) (wide : 0x80 ≤ n)
    {b : UInt8} (mem : b ∈ coded) : 0x80 ≤ b := by
  have beyond {k : Nat} (low : 0x80 ≤ k) (small : k < 256) : 0x80 ≤ UInt8.ofNat k :=
    (le_byte small).mpr low
  cases width <;> simp only [List.mem_cons, List.not_mem_nil, or_false] at mem
  case one => omega
  case two => rcases mem with rfl | rfl <;> exact beyond (by omega) (by omega)
  case three => rcases mem with rfl | rfl | rfl <;> exact beyond (by omega) (by omega)
  case four => rcases mem with rfl | rfl | rfl | rfl <;> exact beyond (by omega) (by omega)

theorem toNat_of_mem_bytes {chars : List Char} {b : UInt8} (low : b < 0x80)
    (mem : b ∈ bytes chars) : ∃ c ∈ chars, c.toNat = b.toNat := by
  obtain ⟨c, there, mem⟩ := List.mem_flatMap.mp mem
  refine ⟨c, there, ?_⟩
  by_cases ascii : c.toNat < 0x80
  · rw [encodeChar_ascii ascii, List.mem_singleton] at mem
    rw [mem, toNat_byte (by omega)]
  · have high := (width c).all_high (Nat.le_of_not_lt ascii) mem
    exact absurd low (UInt8.not_lt.mpr high)

/-! ## One character -/

/-- A continuation byte hands on its six bits. -/
theorem continuation_group (count value : Nat) {low high : UInt8} {group : Nat} (rest : Bytes)
    (bits : group < 64) (inside : low.toNat ≤ 0x80 + group ∧ 0x80 + group ≤ high.toNat) :
    continuation (count + 1) value low high (UInt8.ofNat (0x80 + group) :: rest) =
      continuation count (value * 64 + group) 0x80 0xBF rest := by
  have small : 0x80 + group < 256 := by omega
  have bounds : low ≤ UInt8.ofNat (0x80 + group) ∧ UInt8.ofNat (0x80 + group) ≤ high :=
    ⟨(le_byte small).mpr inside.1, (byte_le small).mpr inside.2⟩
  rw [continuation, if_pos bounds, toNat_byte small, Nat.add_sub_cancel_left]

theorem continuation_last {value n : Nat} {low high : UInt8} (rest : Bytes)
    (front : value = n / 64) (inside : low.toNat ≤ 0x80 + n % 64 ∧ 0x80 + n % 64 ≤ high.toNat) :
    continuation 1 value low high (UInt8.ofNat (0x80 + n % 64) :: rest) =
      .char (Char.ofNat n) rest := by
  have whole : value * 64 + n % 64 = n := by omega
  rw [continuation_group 0 value rest (by omega) inside, whole, continuation]

theorem continuation_two {value n : Nat} {low high : UInt8} (rest : Bytes)
    (front : value = n / 4096)
    (inside : low.toNat ≤ 0x80 + n / 64 % 64 ∧ 0x80 + n / 64 % 64 ≤ high.toNat) :
    continuation 2 value low high
        (UInt8.ofNat (0x80 + n / 64 % 64) :: UInt8.ofNat (0x80 + n % 64) :: rest) =
      .char (Char.ofNat n) rest := by
  have last : 0x80 + n % 64 ≤ 0xBF := by omega
  rw [continuation_group 1 value _ (by omega) inside]
  exact continuation_last rest (by omega) ⟨Nat.le_add_right _ _, last⟩

theorem continuation_three {value n : Nat} {low high : UInt8} (rest : Bytes)
    (front : value = n / 262144)
    (inside : low.toNat ≤ 0x80 + n / 4096 % 64 ∧ 0x80 + n / 4096 % 64 ≤ high.toNat) :
    continuation 3 value low high
        (UInt8.ofNat (0x80 + n / 4096 % 64) :: UInt8.ofNat (0x80 + n / 64 % 64) ::
          UInt8.ofNat (0x80 + n % 64) :: rest) =
      .char (Char.ofNat n) rest := by
  have last : 0x80 + n / 64 % 64 ≤ 0xBF := by omega
  rw [continuation_group 2 value _ (by omega) inside]
  exact continuation_two rest (by omega) ⟨Nat.le_add_right _ _, last⟩

/-- Two bytes: the lead has five bits. -/
theorem step_two {lead : Nat} (low : 0xC2 ≤ lead) (high : lead < 0xE0) (rest : Bytes) :
    step (UInt8.ofNat lead :: rest) = continuation 1 (lead - 0xC0) 0x80 0xBF rest := by
  have small : lead < 256 := by omega
  simp only [step, byte_lt small, toNat_byte small, UInt8.reduceToNat]
  rw [if_neg (by omega), if_neg (by omega), if_pos high]

/-- Three bytes.  Behind the least lead an overlong form is shut out, and behind one lead the
surrogates. -/
theorem step_three {lead : Nat} (low : 0xE0 ≤ lead) (high : lead < 0xF0) (rest : Bytes) :
    step (UInt8.ofNat lead :: rest) =
      continuation 2 (lead - 0xE0) (if lead = 0xE0 then 0xA0 else 0x80)
        (if lead = 0xED then 0x9F else 0xBF) rest := by
  have small : lead < 256 := by omega
  by_cases least : lead = 0xE0
  · subst least
    rfl
  by_cases surrogates : lead = 0xED
  · subst surrogates
    rfl
  simp only [step, byte_lt small, byte_eq small, toNat_byte small, UInt8.reduceToNat,
    if_neg least, if_neg surrogates, if_pos high]
  rw [if_neg (by omega), if_neg (by omega), if_neg (by omega)]

/-- Four bytes.  Behind the least lead an overlong form is shut out, and behind the greatest what
lies above the last character. -/
theorem step_four {lead : Nat} (low : 0xF0 ≤ lead) (high : lead ≤ 0xF4) (rest : Bytes) :
    step (UInt8.ofNat lead :: rest) =
      continuation 3 (lead - 0xF0) (if lead = 0xF0 then 0x90 else 0x80)
        (if lead = 0xF4 then 0x8F else 0xBF) rest := by
  have small : lead < 256 := by omega
  by_cases least : lead = 0xF0
  · subst least
    rfl
  by_cases greatest : lead = 0xF4
  · subst greatest
    rfl
  have below : lead < 0xF4 := by omega
  have noThree : lead ≠ 0xE0 ∧ lead ≠ 0xED := by omega
  simp only [step, byte_lt small, byte_eq small, toNat_byte small, UInt8.reduceToNat,
    if_neg least, if_neg greatest, if_neg noThree.1, if_neg noThree.2, if_pos below]
  rw [if_neg (by omega), if_neg (by omega), if_neg (by omega), if_neg (by omega)]

theorem Width.step_eq {n : Nat} {coded : Bytes} (width : Width n coded) (rest : Bytes) :
    step (coded ++ rest) = .char (Char.ofNat n) rest := by
  cases width <;> simp only [List.cons_append, List.nil_append]
  case one high =>
    have small : n < 256 := by omega
    have ascii : UInt8.ofNat n < 0x80 := (byte_lt small).mpr high
    rw [step, if_pos ascii, toNat_byte small]
  case two low high =>
    rw [step_two (by omega) (by omega)]
    refine continuation_last rest (by omega) ⟨?_, ?_⟩
    · exact Nat.le_add_right _ _
    · simp only [UInt8.reduceToNat]
      omega
  case three low high noSurrogate =>
    rw [step_three (by omega) (by omega)]
    refine continuation_two rest (by omega) ⟨?_, ?_⟩
    · split <;> simp only [UInt8.reduceToNat] <;> omega
    · split <;> simp only [UInt8.reduceToNat] <;> omega
  case four low high =>
    rw [step_four (by omega) (by omega)]
    refine continuation_three rest (by omega) ⟨?_, ?_⟩
    · split <;> simp only [UInt8.reduceToNat] <;> omega
    · split <;> simp only [UInt8.reduceToNat] <;> omega

theorem step_encodeChar (c : Char) (rest : Bytes) : step (encodeChar c ++ rest) = .char c rest := by
  rw [(width c).step_eq rest, Char.ofNat_toNat]

/-! ## Whole texts -/

/-- Fuel for every character is enough. -/
theorem decodeWithin_bytes (chars : List Char) (fuel : Nat) (enough : chars.length ≤ fuel) :
    decodeWithin fuel (bytes chars) = some chars := by
  induction chars generalizing fuel with
  | nil => cases fuel <;> rfl
  | cons c rest ih =>
    cases fuel with
    | zero => simp at enough
    | succ fuel =>
      have further : rest.length ≤ fuel := Nat.le_of_succ_le_succ enough
      simp only [bytes_cons, decodeWithin, step_encodeChar, ih fuel further, Option.map_some]

theorem decode?_encode (s : String) : decode? (encode s) = some s := by
  have enough := length_le_bytes s.toList
  change (decodeWithin (bytes s.toList).length (bytes s.toList)).map String.ofList = some s
  rw [decodeWithin_bytes s.toList _ enough, Option.map_some, String.ofList_toList]

theorem encode_injective {s t : String} (same : encode s = encode t) : s = t := by
  have decoded := congrArg decode? same
  rw [decode?_encode, decode?_encode] at decoded
  exact Option.some.inj decoded

end LinkGate.Utf8
