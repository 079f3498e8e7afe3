import LinkGate.Proofs.Text.Utf8

/-!
# Well-formed bytes

What decodes is the encoding of the text that it decodes to, so that bytes without a text are just
those that encode none.  A character that is taken off the front was there in one of the four forms
of `Width`: every continuation byte gave its six bits, and the bounds on the first of them are those
that the form asks for.
-/

set_option autoImplicit false

namespace LinkGate.Utf8

/-- The form of a character fixes its bytes. -/
theorem Width.unique {n : Nat} {coded other : Bytes} (width : Width n coded)
    (again : Width n other) : coded = other := by
  cases width <;> cases again <;> first | rfl | omega

theorem Width.encodeChar_ofNat {n : Nat} {coded : Bytes} (width : Width n coded) :
    encodeChar (Char.ofNat n) = coded := by
  have valid : n.isValidChar := by
    cases width <;> simp only [Nat.isValidChar] <;> omega
  have value : (Char.ofNat n).toNat = n := by
    rw [Char.ofNat, dif_pos valid]
    rfl
  have canonical := Utf8.width (Char.ofNat n)
  rw [value] at canonical
  exact canonical.unique width

section
variable {bytes rest : Bytes} {c : Char}

/-- A continuation byte that was accepted held six bits. -/
theorem group_of_continuation {count value : Nat} {low high : UInt8}
    (floor : 0x80 ≤ low.toNat) (ceiling : high.toNat ≤ 0xBF)
    (taken : continuation (count + 1) value low high bytes = .char c rest) :
    ∃ group tail, bytes = UInt8.ofNat (0x80 + group) :: tail ∧ group < 64 ∧
      low.toNat ≤ 0x80 + group ∧ 0x80 + group ≤ high.toNat ∧
      continuation count (value * 64 + group) 0x80 0xBF tail = .char c rest := by
  cases bytes with
  | nil => cases taken
  | cons b tail =>
    rw [continuation] at taken
    split at taken
    case isFalse => cases taken
    case isTrue bounds =>
      rw [UInt8.le_iff_toNat_le, UInt8.le_iff_toNat_le] at bounds
      have whole : 0x80 + (b.toNat - 0x80) = b.toNat := by omega
      refine ⟨b.toNat - 0x80, tail, ?_, by omega, by omega, by omega, taken⟩
      rw [whole, UInt8.ofNat_toNat]

theorem char_of_continuation_one {value : Nat} {low high : UInt8}
    (floor : 0x80 ≤ low.toNat) (ceiling : high.toNat ≤ 0xBF)
    (taken : continuation 1 value low high bytes = .char c rest) :
    ∃ n, n / 64 = value ∧ low.toNat ≤ 0x80 + n % 64 ∧ 0x80 + n % 64 ≤ high.toNat ∧
      c = Char.ofNat n ∧ bytes = UInt8.ofNat (0x80 + n % 64) :: rest := by
  obtain ⟨group, tail, rfl, bits, least, most, ended⟩ :=
    group_of_continuation floor ceiling taken
  rw [continuation, Step.char.injEq] at ended
  obtain ⟨rfl, rfl⟩ := ended
  have group_eq : (value * 64 + group) % 64 = group := by omega
  refine ⟨value * 64 + group, by omega, ?_, ?_, rfl, ?_⟩ <;> rw [group_eq]
  · exact least
  · exact most

theorem char_of_continuation_two {value : Nat} {low high : UInt8}
    (floor : 0x80 ≤ low.toNat) (ceiling : high.toNat ≤ 0xBF)
    (taken : continuation 2 value low high bytes = .char c rest) :
    ∃ n, n / 4096 = value ∧ low.toNat ≤ 0x80 + n / 64 % 64 ∧ 0x80 + n / 64 % 64 ≤ high.toNat ∧
      c = Char.ofNat n ∧
      bytes = UInt8.ofNat (0x80 + n / 64 % 64) :: UInt8.ofNat (0x80 + n % 64) :: rest := by
  obtain ⟨group, tail, rfl, bits, least, most, further⟩ :=
    group_of_continuation floor ceiling taken
  obtain ⟨n, front, -, -, rfl, rfl⟩ :=
    char_of_continuation_one (by decide) (by decide) further
  have group_eq : n / 64 % 64 = group := by omega
  refine ⟨n, by omega, ?_, ?_, rfl, ?_⟩ <;> rw [group_eq]
  · exact least
  · exact most

theorem char_of_continuation_three {value : Nat} {low high : UInt8}
    (floor : 0x80 ≤ low.toNat) (ceiling : high.toNat ≤ 0xBF)
    (taken : continuation 3 value low high bytes = .char c rest) :
    ∃ n, n / 262144 = value ∧ low.toNat ≤ 0x80 + n / 4096 % 64 ∧
      0x80 + n / 4096 % 64 ≤ high.toNat ∧ c = Char.ofNat n ∧
      bytes = UInt8.ofNat (0x80 + n / 4096 % 64) :: UInt8.ofNat (0x80 + n / 64 % 64) ::
        UInt8.ofNat (0x80 + n % 64) :: rest := by
  obtain ⟨group, tail, rfl, bits, least, most, further⟩ :=
    group_of_continuation floor ceiling taken
  obtain ⟨n, front, -, -, rfl, rfl⟩ :=
    char_of_continuation_two (by decide) (by decide) further
  have group_eq : n / 4096 % 64 = group := by omega
  refine ⟨n, by omega, ?_, ?_, rfl, ?_⟩ <;> rw [group_eq]
  · exact least
  · exact most

/-- No character begins between the ASCII bytes and the least lead byte, nor above the greatest. -/
theorem step_broken {lead : Nat} (small : lead < 256) (ascii : 0x80 ≤ lead)
    (noLead : lead < 0xC2 ∨ 0xF4 < lead) (tail : Bytes) :
    step (UInt8.ofNat lead :: tail) = .broken tail := by
  simp only [step, byte_lt small, byte_eq small, UInt8.reduceToNat]
  rcases noLead with below | above
  · rw [if_neg (by omega), if_pos below]
  · iterate 9 rw [if_neg (by omega)]

/-- The first byte tells whether it is a character, begins none, or which bytes go on with it. -/
theorem step_cases (b : UInt8) :
    (∀ tail, step (b :: tail) = .char (Char.ofNat b.toNat) tail) ∨
      (∀ tail, step (b :: tail) = .broken tail) ∨
      ∃ count value low high, 0x80 ≤ low ∧
        ∀ tail, step (b :: tail) = continuation count value low high tail := by
  have small : b.toNat < 256 := b.toNat_lt
  rw [← UInt8.ofNat_toNat (x := b), toNat_byte small]
  generalize b.toNat = lead at small
  by_cases ascii : lead < 0x80
  case pos => exact .inl (Width.step_eq (.one ascii))
  by_cases noLead : lead < 0xC2 ∨ 0xF4 < lead
  case pos => exact .inr (.inl (step_broken small (by omega) noLead))
  by_cases two : lead < 0xE0
  case pos => exact .inr (.inr ⟨_, _, _, _, by decide, step_two (by omega) two⟩)
  by_cases three : lead < 0xF0
  case pos =>
    exact .inr (.inr ⟨_, _, _, _, by split <;> decide, step_three (by omega) three⟩)
  case neg =>
    exact .inr (.inr ⟨_, _, _, _, by split <;> decide, step_four (by omega) (by omega)⟩)

/-- What is taken off the front is a character in one of its forms. -/
theorem width_of_step (taken : step bytes = .char c rest) :
    ∃ n coded, Width n coded ∧ c = Char.ofNat n ∧ bytes = coded ++ rest := by
  cases bytes with
  | nil => cases taken
  | cons lead tail =>
    have small : lead.toNat < 256 := lead.toNat_lt
    have lead_eq : lead = UInt8.ofNat lead.toNat := UInt8.ofNat_toNat.symm
    generalize lead.toNat = value at small lead_eq
    subst lead_eq
    by_cases ascii : value < 0x80
    case pos =>
      have front := Width.step_eq (.one ascii) tail
      rw [List.singleton_append, taken, Step.char.injEq] at front
      obtain ⟨rfl, rfl⟩ := front
      exact ⟨value, _, .one ascii, rfl, rfl⟩
    by_cases noLead : value < 0xC2 ∨ 0xF4 < value
    case pos =>
      rw [step_broken small (by omega) noLead] at taken
      cases taken
    by_cases two : value < 0xE0
    case pos =>
      rw [step_two (by omega) two] at taken
      obtain ⟨n, front, -, -, rfl, rfl⟩ :=
        char_of_continuation_one (by decide) (by decide) taken
      have lead_eq : value = 0xC0 + n / 64 := by omega
      subst lead_eq
      exact ⟨n, _, .two (by omega) (by omega), rfl, rfl⟩
    by_cases three : value < 0xF0
    case pos =>
      rw [step_three (by omega) three] at taken
      obtain ⟨n, front, least, most, rfl, rfl⟩ :=
        char_of_continuation_two (by split <;> decide) (by split <;> decide) taken
      have lead_eq : value = 0xE0 + n / 4096 := by omega
      subst lead_eq
      refine ⟨n, _, .three ?_ (by omega) ?_, rfl, rfl⟩
      · split at least <;> simp only [UInt8.reduceToNat] at least <;> omega
      · split at most <;> simp only [UInt8.reduceToNat] at most <;> omega
    case neg =>
      rw [step_four (by omega) (by omega)] at taken
      obtain ⟨n, front, least, most, rfl, rfl⟩ :=
        char_of_continuation_three (by split <;> decide) (by split <;> decide) taken
      have lead_eq : value = 0xF0 + n / 262144 := by omega
      subst lead_eq
      refine ⟨n, _, .four ?_ ?_, rfl, rfl⟩
      · split at least <;> simp only [UInt8.reduceToNat] at least <;> omega
      · split at most <;> simp only [UInt8.reduceToNat] at most <;> omega

theorem step_eq_char_iff : step bytes = .char c rest ↔ bytes = encodeChar c ++ rest := by
  constructor
  · intro taken
    obtain ⟨n, coded, width, rfl, rfl⟩ := width_of_step taken
    rw [width.encodeChar_ofNat]
  · rintro rfl
    exact step_encodeChar c rest

end

theorem continuation_ne_ended (count value : Nat) (low high : UInt8) (coded : Bytes) :
    continuation count value low high coded ≠ .ended := by
  intro ended
  induction count generalizing value low high coded with
  | zero => cases ended
  | succ count ih =>
    cases coded with
    | nil => cases ended
    | cons b rest =>
      rw [continuation] at ended
      split at ended
      case isTrue => exact ih _ _ _ rest ended
      case isFalse => cases ended

theorem step_cons_ne_ended (b : UInt8) (rest : Bytes) : step (b :: rest) ≠ .ended := by
  rcases step_cases b with char | broken | ⟨count, value, low, high, -, further⟩
  · rw [char]
    exact nofun
  · rw [broken]
    exact nofun
  · rw [further]
    exact continuation_ne_ended count value low high rest

theorem bytes_of_decodeWithin {fuel : Nat} {coded : Bytes} {chars : List Char}
    (decoded : decodeWithin fuel coded = some chars) : coded = bytes chars := by
  induction fuel generalizing coded chars with
  | zero =>
    rw [decodeWithin] at decoded
    split at decoded
    case isTrue empty =>
      cases decoded
      exact List.isEmpty_iff.mp empty
    case isFalse => cases decoded
  | succ fuel ih =>
    rw [decodeWithin] at decoded
    split at decoded
    case h_1 ended =>
      cases decoded
      cases coded with
      | nil => rfl
      | cons b rest => exact absurd ended (step_cons_ne_ended b rest)
    case h_2 c rest taken =>
      obtain ⟨others, further, rfl⟩ := Option.map_eq_some_iff.mp decoded
      rw [step_eq_char_iff.mp taken, ih further, bytes_cons]
    case h_3 => cases decoded

/-- Some bytes have a text just when they are its encoding. -/
theorem decode?_eq_some_iff {coded : Bytes} {s : String} :
    decode? coded = some s ↔ coded = encode s := by
  constructor
  · intro decoded
    obtain ⟨chars, within, rfl⟩ := Option.map_eq_some_iff.mp decoded
    rw [encode_ofList]
    exact bytes_of_decodeWithin within
  · rintro rfl
    exact decode?_encode s

end LinkGate.Utf8
