import Mathlib.Data.List.Basic

/-!
# Written numbers as texts

Numbers with as many digits compare as texts.  Of a number with more digits a text shows the leading
ones first, so that a smaller number comes first only where these exceed it, or equal it and nothing
follows that is greater than a digit.
-/

set_option autoImplicit false

namespace LinkGate

/-- How many decimal digits a number is written with. -/
def digitCount (n : Nat) : Nat :=
  (Nat.toDigits 10 n).length

/-- The first digits of `n`, as many as `m` has, taken as a number. -/
def leading (m n : Nat) : Nat :=
  n / Nat.pow 10 (digitCount n - digitCount m)

variable {m n : Nat}

theorem digitCount_pos (n : Nat) : 0 < digitCount n :=
  Nat.length_toDigits_pos

theorem digitCount_of_lt (single : n < 10) : digitCount n = 1 := by
  rw [digitCount, Nat.toDigits_of_lt_base single, List.length_singleton]

theorem digitCount_of_le (more : 10 ≤ n) : digitCount n = digitCount (n / 10) + 1 := by
  rw [digitCount, Nat.toDigits_of_base_le (by decide) more, List.length_append,
    List.length_singleton, digitCount]

theorem digitCount_mono (less : m ≤ n) : digitCount m ≤ digitCount n := by
  have inside : n < 10 ^ digitCount n :=
    (Nat.length_toDigits_le_iff (by decide) (digitCount_pos n)).mp (Nat.le_refl _)
  exact (Nat.length_toDigits_le_iff (by decide) (digitCount_pos n)).mpr
    (Nat.lt_of_le_of_lt less inside)

theorem leading_of_same (same : digitCount m = digitCount n) : leading m n = n := by
  rw [leading, same, Nat.sub_self]
  exact Nat.div_one n

theorem digitChar_lt (less : m < n) (digit : n < 10) : m.digitChar < n.digitChar := by
  rw [Char.lt_def, UInt32.lt_iff_toNat_lt]
  change m.digitChar.toNat < n.digitChar.toNat
  rw [Nat.toNat_digitChar_of_lt_ten (by omega), Nat.toNat_digitChar_of_lt_ten digit]
  omega

/-! ## As many digits -/

theorem toDigits_lt (same : digitCount m = digitCount n) (less : m < n) (front back : List Char) :
    Nat.toDigits 10 m ++ front < Nat.toDigits 10 n ++ back := by
  induction n using Nat.strongRecOn generalizing m front back with
  | ind n ih =>
    by_cases single : n < 10
    · rw [Nat.toDigits_of_lt_base single, Nat.toDigits_of_lt_base (by omega)]
      exact List.cons_lt_cons_iff.mpr (.inl (digitChar_lt less single))
    have longer := digitCount_of_le (Nat.le_of_not_lt single)
    have many : 10 ≤ m := by
      by_contra few
      rw [digitCount_of_lt (by omega)] at same
      have := digitCount_pos (n / 10)
      omega
    rw [digitCount_of_le many, longer] at same
    rw [Nat.toDigits_of_base_le (by decide) many,
      Nat.toDigits_of_base_le (by decide) (Nat.le_of_not_lt single), List.append_assoc,
      List.append_assoc]
    by_cases tens : m / 10 < n / 10
    · exact ih (n / 10) (by omega) (Nat.succ.inj same) tens _ _
    · have equal : m / 10 = n / 10 := by omega
      rw [equal]
      apply List.append_left_lt
      exact List.cons_lt_cons_iff.mpr (.inl (digitChar_lt (by omega) (by omega)))

/-! ## More digits -/

theorem toDigits_split (count : Nat) (fewer : count < digitCount n) :
    ∃ rest, Nat.toDigits 10 n = Nat.toDigits 10 (n / Nat.pow 10 count) ++ rest ∧
      rest.length = count := by
  induction count with
  | zero => exact ⟨[], by simp [Nat.pow], rfl⟩
  | succ count ih =>
    obtain ⟨rest, whole, length⟩ := ih (by omega)
    have many : 10 ≤ n / Nat.pow 10 count := by
      by_contra few
      have one := digitCount_of_lt (Nat.lt_of_not_le few)
      rw [digitCount, whole, List.length_append] at fewer
      rw [digitCount] at one
      omega
    have shorter : n / Nat.pow 10 (count + 1) = n / Nat.pow 10 count / 10 :=
      (Nat.div_div_eq_div_mul n (Nat.pow 10 count) 10).symm
    refine ⟨(n / Nat.pow 10 count % 10).digitChar :: rest, ?_, ?_⟩
    · rw [whole, Nat.toDigits_of_base_le (by decide) many, shorter, List.append_assoc,
        List.singleton_append]
    · rw [List.length_cons, length]

/-- The digits of a greater number: first as many as the smaller one has, then the rest. -/
theorem toDigits_leading (less : m < n) :
    ∃ rest, Nat.toDigits 10 n = Nat.toDigits 10 (leading m n) ++ rest ∧
      digitCount m = digitCount (leading m n) ∧ (∀ c ∈ rest, c ≤ '9') ∧
      (leading m n = m → rest ≠ []) := by
  have order := digitCount_mono (Nat.le_of_lt less)
  have positive := digitCount_pos m
  obtain ⟨rest, whole, length⟩ :=
    toDigits_split (n := n) (digitCount n - digitCount m) (by omega)
  have total : digitCount n = digitCount (leading m n) + rest.length :=
    (congrArg List.length whole).trans List.length_append
  refine ⟨rest, whole, by omega, ?_, ?_⟩
  · intro c member
    have digit : c.isDigit = true := by
      apply Nat.isDigit_of_mem_toDigits (b := 10) (n := n) (by decide) (by decide)
      rw [whole]
      exact List.mem_append_right _ member
    simp only [Char.isDigit, Bool.and_eq_true, decide_eq_true_eq] at digit
    exact digit.2
  · rintro same rfl
    rw [List.append_nil] at whole
    have value := congrArg (Nat.ofDigitChars 10 · 0) whole
    simp only [Nat.ofDigitChars_ten_toDigits] at value
    rw [leading] at same
    omega

theorem toDigits_lt_of_le (less : m < n) (reached : m ≤ leading m n) :
    Nat.toDigits 10 m < Nat.toDigits 10 n := by
  obtain ⟨rest, whole, same, -, more⟩ := toDigits_leading less
  rw [whole, ← List.append_nil (Nat.toDigits 10 m)]
  rcases Nat.lt_or_eq_of_le reached with below | equal
  · exact toDigits_lt same below _ _
  · obtain ⟨c, later, rfl⟩ := List.exists_cons_of_ne_nil (more equal.symm)
    rw [← equal]
    exact List.append_left_lt (List.nil_lt_cons c later)

theorem toDigits_gt_of_lt (less : m < n) (missed : leading m n < m) :
    Nat.toDigits 10 n < Nat.toDigits 10 m := by
  obtain ⟨rest, whole, same, -, -⟩ := toDigits_leading less
  rw [whole, ← List.append_nil (Nat.toDigits 10 m)]
  exact toDigits_lt same.symm missed _ _

section
variable {stop : Char} (front back : List Char)

theorem toDigits_stop_lt (less : m < n) (passed : m < leading m n) :
    Nat.toDigits 10 m ++ stop :: front < Nat.toDigits 10 n ++ stop :: back := by
  obtain ⟨rest, whole, same, -, -⟩ := toDigits_leading less
  rw [whole, List.append_assoc]
  exact toDigits_lt same passed _ _

theorem toDigits_stop_gt (beyond : '9' < stop) (less : m < n) (missed : leading m n ≤ m) :
    Nat.toDigits 10 n ++ stop :: back < Nat.toDigits 10 m ++ stop :: front := by
  obtain ⟨rest, whole, same, digits, more⟩ := toDigits_leading less
  rw [whole, List.append_assoc]
  rcases Nat.lt_or_eq_of_le missed with above | equal
  · exact toDigits_lt same.symm above _ _
  · obtain ⟨c, later, rfl⟩ := List.exists_cons_of_ne_nil (more equal)
    rw [equal]
    apply List.append_left_lt
    exact List.cons_lt_cons_iff.mpr (.inl (Std.lt_of_le_of_lt (digits c List.mem_cons_self) beyond))

end

end LinkGate
