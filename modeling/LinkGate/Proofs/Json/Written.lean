import LinkGate.Proofs.Json.Records
import LinkGate.Proofs.Json.Unambiguous

/-!
# Values from their texts

What is written for a value stands, in the grammar, for one tree: the same strings, the digits of
the integers, the members in their order.  The tree gives the value back, and no other tree has the
same text, so that a text tells the value it was written for.  All of this is about values whose
numbers are integers (`Integral`).
-/

set_option autoImplicit false

namespace LinkGate.Json

mutual

/-- All numbers are integers. -/
def Integral : Json → Prop
  | null | bool _ | integer _ | string _ => True
  | float _ _ => False
  | array elements => IntegralElements elements
  | object members => IntegralMembers members

def IntegralElements : List Json → Prop
  | [] => True
  | v :: rest => v.Integral ∧ IntegralElements rest

def IntegralMembers : List (String × Json) → Prop
  | [] => True
  | (_, v) :: rest => v.Integral ∧ IntegralMembers rest

end

theorem integral_array_iff {elements : List Json} :
    (array elements).Integral ↔ ∀ v ∈ elements, v.Integral := by
  rw [Integral]
  induction elements with
  | nil => simp [IntegralElements]
  | cons v rest ih => rw [IntegralElements, ih, List.forall_mem_cons]

theorem integral_object_iff {members : List (String × Json)} :
    (object members).Integral ↔ ∀ member ∈ members, member.2.Integral := by
  rw [Integral]
  induction members with
  | nil => simp [IntegralMembers]
  | cons member rest ih => rw [IntegralMembers, ih, List.forall_mem_cons]

/-- An integer as its digits. -/
def numberText (n : Int) : NumberText :=
  ⟨n < 0, (Nat.toDigits 10 n.natAbs).map digitOf, [], none⟩

mutual

/-- The tree that the text of a value stands for, if all its numbers are integers. -/
def tree : Json → Tree
  | null => .null
  | bool value => .bool value
  | integer n => .number (numberText n)
  | float _ _ => .null
  | string s => .string s
  | array elements => .array (trees elements)
  | object members => .object (memberTrees members)

def trees : List Json → List Tree
  | [] => []
  | v :: rest => v.tree :: trees rest

def memberTrees : List (String × Json) → List (String × Tree)
  | [] => []
  | (key, v) :: rest => (key, v.tree) :: memberTrees rest

end

/-! ## Values from trees -/

/-- A number without fraction and exponent. -/
def NumberText.toInt (written : NumberText) : Int :=
  if written.negative then -decimal written.whole else decimal written.whole

mutual

/-- The value of a tree whose numbers are all integers. -/
def Tree.value : Tree → Json
  | .null => .null
  | .bool value => .bool value
  | .number written => .integer written.toInt
  | .string s => .string s
  | .array elements => .array (Tree.values elements)
  | .object members => .object (Tree.memberValues members)

def Tree.values : List Tree → List Json
  | [] => []
  | v :: rest => v.value :: Tree.values rest

def Tree.memberValues : List (String × Tree) → List (String × Json)
  | [] => []
  | (key, v) :: rest => (key, v.value) :: Tree.memberValues rest

end

theorem foldl_digitOf (chars : List Char) (value : Nat) :
    (chars.map digitOf).foldl (fun value d => value * 10 + d) value =
      Nat.ofDigitChars 10 chars value := by
  induction chars generalizing value with
  | nil => rfl
  | cons c rest ih =>
    rw [List.map_cons, List.foldl_cons, ih, Nat.ofDigitChars_cons, digitOf, Nat.mul_comm]
    rfl

theorem decimal_toDigits (n : Nat) : decimal ((Nat.toDigits 10 n).map digitOf) = n := by
  rw [decimal, foldl_digitOf, Nat.ofDigitChars_ten_toDigits]

theorem integer_numberText (n : Int) : (numberText n).Integer n where
  sign := decide_eq_true_iff
  noFraction := rfl
  noExponent := rfl
  value := decimal_toDigits n.natAbs

theorem toInt_numberText (n : Int) : (numberText n).toInt = n := by
  rw [NumberText.toInt, numberText, decimal_toDigits]
  simp only [decide_eq_true_eq]
  omega

mutual

theorem value_tree : ∀ {v : Json}, v.Integral → v.tree.value = v
  | null, _ => rfl
  | bool _, _ => rfl
  | integer n, _ => by rw [tree, Tree.value, toInt_numberText]
  | string _, _ => rfl
  | array elements, integral => by rw [tree, Tree.value, values_trees integral]
  | object members, integral => by rw [tree, Tree.value, memberValues_memberTrees integral]

theorem values_trees : ∀ {elements : List Json}, IntegralElements elements →
    Tree.values (trees elements) = elements
  | [], _ => rfl
  | v :: rest, ⟨first, others⟩ => by
    rw [trees, Tree.values, value_tree first, values_trees others]

theorem memberValues_memberTrees : ∀ {members : List (String × Json)}, IntegralMembers members →
    Tree.memberValues (memberTrees members) = members
  | [], _ => rfl
  | (key, v) :: rest, ⟨first, others⟩ => by
    rw [memberTrees, Tree.memberValues, value_tree first, memberValues_memberTrees others]

end

/-! ## Trees from texts -/

theorem quoted_stringChars (s : String) (rest : Bytes) :
    Quoted (Utf8.bytes (s.toList.flatMap escape) ++ quote :: rest) s.toList rest :=
  stringBody_eq_ok_iff.mp (stringBody_eq s rest)

theorem numeral_integerChars (n : Int) {rest : Bytes} (ended : Ended rest) :
    Numeral (Utf8.bytes (integerChars n) ++ rest) (numberText n) rest := by
  apply numeral_of_scanNumber
  rw [integerChars, numberText]
  split
  case isTrue negative =>
    simp only [negative, decide_true]
    exact scan_negative n.natAbs ended
  case isFalse notNegative =>
    simp only [notNegative, decide_false]
    exact scan_unsigned n.natAbs ended

mutual

theorem stands_bytes : ∀ {v : Json} {rest : Bytes}, v.Integral → Ended rest →
    Stands (v.bytes ++ rest) v.tree rest
  | null, rest, _, _ => .null rest
  | bool true, rest, _, _ => .true rest
  | bool false, rest, _, _ => .false rest
  | integer n, _, _, ended => .number (numeral_integerChars n ended)
  | string s, rest, _, _ => by
    rw [string_bytes, tree]
    exact .string (quoted_stringChars s rest)
  | array elements, rest, integral, _ => by
    rw [array_bytes, tree]
    exact .array (elements_separated integral rest)
  | object members, rest, integral, _ => by
    rw [object_bytes, tree]
    exact .object (entries_separated integral rest)

theorem elements_separated : ∀ {elements : List Json}, IntegralElements elements →
    ∀ rest : Bytes, Elements true
      (Utf8.bytes (separated chars elements) ++ closeBracket :: rest) (trees elements) rest
  | [], _, _ => .close (.none _)
  | v :: others, ⟨first, later⟩, rest => by
    rw [separated, Utf8.bytes_append, List.append_assoc, trees]
    have ended := ended_trailing chars others (.inl rfl) rest
    exact .first (.none _) (stands_bytes first ended) (elements_trailing later rest)

theorem elements_trailing : ∀ {elements : List Json}, IntegralElements elements →
    ∀ rest : Bytes, Elements false
      (Utf8.bytes (trailing chars elements) ++ closeBracket :: rest) (trees elements) rest
  | [], _, _ => .close (.none _)
  | v :: others, ⟨first, later⟩, rest => by
    rw [bytes_trailing_cons, trees]
    have ended := ended_trailing chars others (.inl rfl) rest
    exact .later (.none _) (.none _) (stands_bytes first ended) (elements_trailing later rest)

theorem entries_separated : ∀ {members : List (String × Json)}, IntegralMembers members →
    ∀ rest : Bytes, Entries true
      (Utf8.bytes (separated memberText members) ++ closeBrace :: rest) (memberTrees members) rest
  | [], _, _ => .close (.none _)
  | (key, v) :: others, ⟨first, later⟩, rest => by
    rw [separated, Utf8.bytes_append, List.append_assoc, bytes_memberText, memberTrees]
    have ended := ended_trailing memberText others (.inr rfl) rest
    have value := stands_bytes first ended
    exact .first (.none _) (.pair (quoted_stringChars key _) (.none _) (.none _) value)
      (entries_trailing later rest)

theorem entries_trailing : ∀ {members : List (String × Json)}, IntegralMembers members →
    ∀ rest : Bytes, Entries false
      (Utf8.bytes (trailing memberText members) ++ closeBrace :: rest) (memberTrees members) rest
  | [], _, _ => .close (.none _)
  | (key, v) :: others, ⟨first, later⟩, rest => by
    rw [bytes_trailing_cons, bytes_memberText, memberTrees]
    have ended := ended_trailing memberText others (.inr rfl) rest
    exact .later (.none _) (.none _)
      (.pair (quoted_stringChars key _) (.none _) (.none _) (stands_bytes first ended))
      (entries_trailing later rest)

end

/-- The text of a value is a document. -/
theorem document_text {v : Json} (integral : v.Integral) :
    Document (Utf8.encode v.text) v.tree := by
  have stands := stands_bytes integral ended_nil
  rw [List.append_nil, ← encode_text] at stands
  exact ⟨_, [], .none _, stands, .none []⟩

/-- Values with the same text are the same. -/
theorem eq_of_text {v w : Json} (first : v.Integral) (second : w.Integral)
    (same : v.text = w.text) : v = w := by
  have trees : v.tree = w.tree := (document_text first).unique (same ▸ document_text second)
  rw [← value_tree first, trees, value_tree second]

end LinkGate.Json
