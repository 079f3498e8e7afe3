import LinkGate.Proofs.Text.Utf8

/-!
# The order of texts

Texts compare as their bytes do: the bytes of a smaller character are smaller than those of a
greater one before either of them ends, whatever follows them.
-/

set_option autoImplicit false

namespace LinkGate.Utf8

/-! ## Two characters -/

theorem cons_byte_lt {x y : Nat} {front back : Bytes} (small : y < 256)
    (less : x < y ∨ x = y ∧ front < back) : UInt8.ofNat x :: front < UInt8.ofNat y :: back := by
  rw [List.cons_lt_cons_iff]
  rcases less with less | ⟨rfl, less⟩
  · exact .inl ((byte_lt (by omega)).mpr (by rwa [toNat_byte small]))
  · exact .inr ⟨rfl, less⟩

section
variable {n m : Nat} (less : n < m) (front back : Bytes)
include less

/-! Continuation bytes compare as the numbers, where the bits in front of them are the same. -/

theorem last_group_lt (same : n / 64 = m / 64) :
    UInt8.ofNat (0x80 + n % 64) :: front < UInt8.ofNat (0x80 + m % 64) :: back :=
  cons_byte_lt (by omega) (.inl (by omega))

theorem two_groups_lt (same : n / 4096 = m / 4096) :
    UInt8.ofNat (0x80 + n / 64 % 64) :: UInt8.ofNat (0x80 + n % 64) :: front <
      UInt8.ofNat (0x80 + m / 64 % 64) :: UInt8.ofNat (0x80 + m % 64) :: back := by
  apply cons_byte_lt (by omega)
  by_cases next : n / 64 = m / 64
  · exact .inr ⟨by omega, last_group_lt less front back next⟩
  · exact .inl (by omega)

theorem three_groups_lt (same : n / 262144 = m / 262144) :
    UInt8.ofNat (0x80 + n / 4096 % 64) :: UInt8.ofNat (0x80 + n / 64 % 64) ::
        UInt8.ofNat (0x80 + n % 64) :: front <
      UInt8.ofNat (0x80 + m / 4096 % 64) :: UInt8.ofNat (0x80 + m / 64 % 64) ::
        UInt8.ofNat (0x80 + m % 64) :: back := by
  apply cons_byte_lt (by omega)
  by_cases next : n / 4096 = m / 4096
  · exact .inr ⟨by omega, two_groups_lt less front back next⟩
  · exact .inl (by omega)

/-- Of two widths the smaller has the smaller lead byte. -/
theorem Width.lt {coded other : Bytes} (narrow : Width n coded) (wide : Width m other) :
    coded ++ front < other ++ back := by
  cases narrow with
  | one high =>
    cases wide <;> exact cons_byte_lt (by omega) (.inl (by omega))
  | two low high =>
    cases wide with
    | one => omega
    | two =>
      apply cons_byte_lt (by omega)
      by_cases same : n / 64 = m / 64
      · exact .inr ⟨by omega, last_group_lt less front back same⟩
      · exact .inl (by omega)
    | three | four => exact cons_byte_lt (by omega) (.inl (by omega))
  | three low high =>
    cases wide with
    | one | two => omega
    | three =>
      apply cons_byte_lt (by omega)
      by_cases same : n / 4096 = m / 4096
      · exact .inr ⟨by omega, two_groups_lt less front back same⟩
      · exact .inl (by omega)
    | four => exact cons_byte_lt (by omega) (.inl (by omega))
  | four low high =>
    cases wide with
    | one | two | three => omega
    | four =>
      apply cons_byte_lt (by omega)
      by_cases same : n / 262144 = m / 262144
      · exact .inr ⟨by omega, three_groups_lt less front back same⟩
      · exact .inl (by omega)

end

/-! ## Whole texts -/

theorem bytes_lt {chars others : List Char} (less : chars < others) :
    bytes chars < bytes others := by
  induction less with
  | @nil c rest =>
    obtain ⟨b, more, coded⟩ := List.exists_cons_of_length_pos (width c).length_pos
    rw [bytes_nil, bytes_cons, coded]
    exact List.nil_lt_cons b _
  | @rel c front d back less =>
    rw [bytes_cons, bytes_cons]
    exact Width.lt less _ _ (width c) (width d)
  | @cons c front back less ih =>
    rw [bytes_cons, bytes_cons]
    exact List.append_left_lt ih

theorem encode_lt_iff {s t : String} : encode s < encode t ↔ s < t := by
  constructor
  · intro less
    rcases Std.lt_trichotomy s.toList t.toList with below | same | above
    · exact below
    · rw [String.toList_inj.mp same] at less
      exact absurd less (List.lt_irrefl _)
    · exact absurd less (List.lt_asymm (bytes_lt above))
  · exact bytes_lt

theorem compare_eq_eq_iff {s t : String} : compare s t = .eq ↔ encode s = encode t :=
  Std.compare_eq_iff_eq.trans ⟨congrArg encode, encode_injective⟩

theorem compare_eq_lt_iff {s t : String} : compare s t = .lt ↔ encode s < encode t := by
  rw [encode_lt_iff]
  exact compareOfLessAndEq_eq_lt

end LinkGate.Utf8
