import LinkGate.Proofs.Decimal.Layout
import LinkGate.Proofs.Json.Numbers

/-!
# Values on one line

The compact text of a value has no control character: what a string would put there is escaped, and
all else is letters, digits and punctuation.  So a value that is printed stays on its line.
-/

set_option autoImplicit false

namespace LinkGate.Json

def Unbroken (text : List Char) : Prop :=
  ∀ c ∈ text, 0x20 ≤ c.toNat

namespace Unbroken

theorem nil : Unbroken [] := by
  simp [Unbroken]

theorem cons {c : Char} {text : List Char} (shown : 0x20 ≤ c.toNat) (rest : Unbroken text) :
    Unbroken (c :: text) :=
  List.forall_mem_cons.mpr ⟨shown, rest⟩

theorem append {front back : List Char} (first : Unbroken front) (second : Unbroken back) :
    Unbroken (front ++ back) :=
  List.forall_mem_append.mpr ⟨first, second⟩

theorem single {c : Char} (shown : 0x20 ≤ c.toNat) : Unbroken [c] :=
  cons shown nil

theorem digits (n : Nat) : Unbroken (Nat.toDigits 10 n) := by
  intro c written
  have range := digit_range (isDigit_toDigits n c written)
  omega

theorem integerChars (n : Int) : Unbroken (integerChars n) := by
  rw [Json.integerChars]
  split
  · exact cons (by decide) (digits _)
  · exact digits _

theorem numeric {text : List Char} (numeric : Binary64.Numeric text) : Unbroken text := by
  intro c mem
  rcases numeric.each c mem with digit | mark
  · have range := digit_range digit
    omega
  · simp only [List.mem_cons, List.not_mem_nil, or_false] at mark
    rcases mark with rfl | rfl | rfl | rfl <;> decide

theorem floatChars (negative : Bool) (magnitude : Binary64) :
    Unbroken (floatLayout.chars negative magnitude) := by
  obtain ⟨body, isNumeric, written⟩ := Binary64.chars_eq floatLayout negative magnitude
  rw [written]
  refine append ?_ (numeric isNumeric)
  split
  · exact single (by decide)
  · exact nil

theorem digitChar {n : Nat} (small : n < 16) : 0x20 ≤ (Nat.digitChar n).toNat := by
  revert n
  decide

theorem escape (c : Char) : Unbroken (escape c) := by
  have pair {l : Char} (shown : 0x20 ≤ l.toNat) : Unbroken ['\\', l] :=
    cons (by decide) (single shown)
  rw [Json.escape]
  iterate 7
    split
    · exact pair (by decide)
  split
  case isTrue control =>
    have high : 0x20 ≤ (Nat.digitChar (c.toNat / 16)).toNat := digitChar (by omega)
    have low : 0x20 ≤ (Nat.digitChar (c.toNat % 16)).toNat := digitChar (by omega)
    exact cons (by decide) (cons (by decide) (cons (by decide) (cons (by decide)
      (cons high (single low)))))
  case isFalse shown => exact single (Nat.le_of_not_lt shown)

theorem stringChars (s : String) : Unbroken (stringChars s) := by
  have body : Unbroken (s.toList.flatMap Json.escape) := by
    intro c written
    obtain ⟨source, -, mem⟩ := List.mem_flatMap.mp written
    exact escape source c mem
  exact cons (by decide) (append body (single (by decide)))

end Unbroken

mutual

theorem unbroken_chars : ∀ v : Json, Unbroken v.chars
  | null | bool true | bool false => by
    rw [chars]
    repeat refine .cons (by decide) ?_
    exact .nil
  | integer n => by
    rw [chars]
    exact .integerChars n
  | float negative magnitude => by
    rw [chars]
    exact .floatChars negative magnitude
  | string s => by
    rw [chars]
    exact .stringChars s
  | array elements => by
    rw [chars]
    exact .cons (by decide) (.append (unbroken_elementChars elements) (.single (by decide)))
  | object members => by
    rw [chars]
    exact .cons (by decide) (.append (unbroken_memberChars members) (.single (by decide)))

theorem unbroken_elementChars : ∀ elements : List Json, Unbroken (elementChars elements)
  | [] => by
    rw [elementChars]
    exact .nil
  | [v] => by
    rw [elementChars]
    exact unbroken_chars v
  | v :: w :: rest => by
    rw [elementChars]
    exact .append (unbroken_chars v) (.cons (by decide) (unbroken_elementChars (w :: rest)))

theorem unbroken_memberChars : ∀ members : List (String × Json), Unbroken (memberChars members)
  | [] => by
    rw [memberChars]
    exact .nil
  | [(key, v)] => by
    rw [memberChars]
    exact .append (.stringChars key) (.cons (by decide) (unbroken_chars v))
  | (key, v) :: next :: rest => by
    rw [memberChars]
    exact .append (.append (.stringChars key) (.cons (by decide) (unbroken_chars v)))
      (.cons (by decide) (unbroken_memberChars (next :: rest)))

end

end LinkGate.Json
