import LinkGate.Decimal.Shortest

/-!
# The characters of a decimal

Whatever a layout decides, the text of a double begins with a digit, behind a minus sign if it has
one, and is made of digits, a point and a power.
-/

set_option autoImplicit false

namespace LinkGate.Binary64

def Digits (text : List Char) : Prop :=
  ∀ c ∈ text, c.isDigit = true

/-- A digit in front, and behind it nothing but digits and the marks of a decimal. -/
structure Numeric (text : List Char) : Prop where
  front : ∃ first more, text = first :: more ∧ first.isDigit = true
  each : ∀ c ∈ text, c.isDigit = true ∨ c ∈ ['.', 'e', '+', '-']

theorem digits_toDigits (n : Nat) : Digits (Nat.toDigits 10 n) :=
  fun _ mem => Nat.isDigit_of_mem_toDigits (by decide) (by decide) mem

theorem digits_zeros (n : Nat) : Digits (List.replicate n '0') := by
  intro c mem
  rw [(List.mem_replicate.mp mem).2]
  decide

theorem Digits.append {front back : List Char} (first : Digits front) (second : Digits back) :
    Digits (front ++ back) :=
  List.forall_mem_append.mpr ⟨first, second⟩

theorem Digits.numeric {text : List Char} (digits : Digits text) (present : text ≠ []) :
    Numeric text := by
  obtain ⟨first, more, rfl⟩ := List.exists_cons_of_ne_nil present
  exact ⟨⟨first, more, rfl, digits first List.mem_cons_self⟩, fun c mem => .inl (digits c mem)⟩

theorem Numeric.append {front back : List Char} (numeric : Numeric front)
    (each : ∀ c ∈ back, c.isDigit = true ∨ c ∈ ['.', 'e', '+', '-']) : Numeric (front ++ back) := by
  obtain ⟨⟨first, more, rfl, digit⟩, others⟩ := numeric
  exact ⟨⟨first, more ++ back, rfl, digit⟩, List.forall_mem_append.mpr ⟨others, each⟩⟩

theorem numeric_pointed {whole fraction : List Char} (first : Digits whole) (present : whole ≠ [])
    (second : Digits fraction) : Numeric (pointed whole fraction) := by
  refine (first.numeric present).append (List.forall_mem_cons.mpr ⟨.inr (by decide), ?_⟩)
  split
  · exact fun c mem => .inl (digits_zeros 1 c mem)
  · exact fun c mem => .inl (second c mem)

theorem each_powerText (power : Int) :
    ∀ c ∈ powerText power, c.isDigit = true ∨ c ∈ ['.', 'e', '+', '-'] := by
  refine List.forall_mem_cons.mpr ⟨by decide, List.forall_mem_cons.mpr ⟨?_, ?_⟩⟩
  · split <;> decide
  · exact fun c mem => .inl (digits_toDigits _ c mem)

theorem numeric_decimalText (layout : Layout) (d : Decimal) : Numeric (layout.decimalText d) := by
  have kept : Digits ((Nat.toDigits 10 d.digits).reverse.dropWhile (· == '0')).reverse := by
    intro c mem
    refine digits_toDigits d.digits c (List.mem_reverse.mp ?_)
    exact (List.dropWhile_sublist _).subset (List.mem_reverse.mp mem)
  rw [Layout.decimalText]
  generalize ((Nat.toDigits 10 d.digits).reverse.dropWhile (· == '0')).reverse = digits at kept
  generalize (decimalLength d.digits + d.power : Int) = point
  dsimp only
  split
  case isTrue =>
    split
    case isTrue => exact numeric_pointed (digits_zeros 1) nofun (.append (digits_zeros _) kept)
    case isFalse positive =>
      have padded := kept.append (digits_zeros (point.toNat - digits.length))
      refine numeric_pointed (fun c mem => padded c (List.mem_of_mem_take mem)) ?_
        (fun c mem => padded c (List.mem_of_mem_drop mem))
      -- as many places as the point asks for are there, and it asks for one at least
      rw [← List.length_pos_iff, List.length_take, List.length_append, List.length_replicate]
      omega
  case isFalse =>
    split
    case h_1 => exact (digits_zeros 1).numeric nofun
    case h_2 first => exact (kept.numeric nofun).append (each_powerText _)
    case h_3 first more _ =>
      obtain ⟨digit, others⟩ := List.forall_mem_cons.mp kept
      have single : Digits [first] := List.forall_mem_singleton.mpr digit
      exact (numeric_pointed single nofun others).append (each_powerText _)

/-- A minus sign, if there is one, and a decimal. -/
theorem chars_eq (layout : Layout) (negative : Bool) (x : Binary64) :
    ∃ body, Numeric body ∧ layout.chars negative x = (if negative then ['-'] else []) ++ body := by
  refine ⟨_, ?_, rfl⟩
  split
  · exact numeric_pointed (digits_zeros 1) nofun nofun
  · exact numeric_decimalText layout _

end LinkGate.Binary64
