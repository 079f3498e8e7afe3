import LinkGate.Json.Record
import LinkGate.Proofs.Json.Numbers
import LinkGate.Proofs.Json.Strings

/-!
# Readers and the values they read

`Reads reader v x` says that a reader takes the written value `v` off the front of a text and makes
`x` of it.  For every reader there is a lemma that builds such a fact from those of its parts.
-/

set_option autoImplicit false

namespace LinkGate.Json

/-- The bytes of a written value. -/
def bytes (v : Json) : Bytes :=
  Utf8.bytes v.chars

theorem encode_text (v : Json) : Utf8.encode v.text = v.bytes :=
  Utf8.encode_ofList v.chars

/-! ## What is written -/

section
variable {α : Type} (item : α → List Char)

/-- Items with a comma in front of each. -/
def trailing : List α → List Char
  | [] => []
  | x :: items => ',' :: item x ++ trailing items

/-- Items with a comma between any two. -/
def separated : List α → List Char
  | [] => []
  | x :: items => item x ++ trailing item items

theorem bytes_trailing_cons (x : α) (items : List α) (rest : Bytes) :
    Utf8.bytes (trailing item (x :: items)) ++ rest =
      comma :: (Utf8.bytes (item x) ++ (Utf8.bytes (trailing item items) ++ rest)) := by
  rw [trailing, List.cons_append, Utf8.bytes_cons, Utf8.bytes_append, List.append_assoc,
    List.append_assoc]
  rfl

/-- Between brackets every item ends where it should. -/
theorem ended_trailing (items : List α) {b : UInt8} (closing : b = closeBracket ∨ b = closeBrace)
    (rest : Bytes) : Ended (Utf8.bytes (trailing item items) ++ b :: rest) := by
  intro first head
  cases items with
  | nil => exact .inr (Option.some.inj head ▸ closing)
  | cons x items =>
    rw [bytes_trailing_cons] at head
    exact .inl (Option.some.inj head).symm

theorem length_le_trailing (items : List α) : items.length ≤ (trailing item items).length := by
  induction items with
  | nil => exact Nat.le_refl 0
  | cons x items ih =>
    simp only [trailing, List.cons_append, List.length_cons, List.length_append]
    omega

/-- With the closing bracket, the commas alone are as many bytes as there are items. -/
theorem length_le_separated (items : List α) (closing : UInt8) (rest : Bytes) :
    items.length ≤ (Utf8.bytes (separated item items) ++ closing :: rest).length := by
  cases items with
  | nil => exact Nat.zero_le _
  | cons x items =>
    have commas := length_le_trailing item items
    have long := Utf8.length_le_bytes (trailing item items)
    simp only [separated, Utf8.bytes_append, List.length_append, List.length_cons]
    omega

end

theorem elementChars_eq (elements : List Json) :
    elementChars elements = separated chars elements := by
  cases elements with
  | nil => rfl
  | cons v rest =>
    induction rest generalizing v with
    | nil => rw [elementChars, separated, trailing, List.append_nil]
    | cons w rest ih => rw [elementChars, ih w, separated, separated, trailing, List.cons_append]

def memberText (member : String × Json) : List Char :=
  stringChars member.1 ++ ':' :: chars member.2

theorem memberChars_eq (members : List (String × Json)) :
    memberChars members = separated memberText members := by
  cases members with
  | nil => rfl
  | cons member rest =>
    induction rest generalizing member with
    | nil => rw [memberChars, separated, trailing, List.append_nil, memberText]
    | cons next rest ih =>
      have written : memberChars (member :: next :: rest) =
          memberText member ++ ',' :: memberChars (next :: rest) := by
        simp only [memberChars, memberText, List.append_assoc, List.cons_append]
      rw [written, ih next, separated, separated, trailing, List.cons_append]

theorem array_bytes (elements : List Json) (rest : Bytes) :
    (array elements).bytes ++ rest =
      openBracket :: (Utf8.bytes (separated chars elements) ++ closeBracket :: rest) := by
  rw [bytes, chars, elementChars_eq, List.cons_append, Utf8.bytes_cons, Utf8.bytes_append,
    List.append_assoc, List.append_assoc]
  rfl

theorem object_bytes (members : List (String × Json)) (rest : Bytes) :
    (object members).bytes ++ rest =
      openBrace :: (Utf8.bytes (separated memberText members) ++ closeBrace :: rest) := by
  rw [bytes, chars, memberChars_eq, List.cons_append, Utf8.bytes_cons, Utf8.bytes_append,
    List.append_assoc, List.append_assoc]
  rfl

theorem string_bytes (s : String) (rest : Bytes) :
    (string s).bytes ++ rest =
      quote :: (Utf8.bytes (s.toList.flatMap escape) ++ quote :: rest) := by
  rw [bytes, chars, bytes_stringChars, List.append_assoc]
  rfl

/-- What the first byte of a value is not taken for: a blank, the end of a list, or the `n` of a
value that is absent. -/
structure Lead (v : Json) (b : UInt8) : Prop where
  noSpace : isSpace b = false
  noClosing : b ≠ closeBracket
  null_of_n : b = letter 'n' → v = .null

theorem Lead.of_ne {v : Json} {b : UInt8} (noSpace : isSpace b = false)
    (noClosing : b ≠ closeBracket) (noN : b ≠ letter 'n') : Lead v b :=
  ⟨noSpace, noClosing, fun isN => absurd isN noN⟩

theorem Lead.of_number {v : Json} {b : UInt8} (number : b = minus ∨ isDigit b = true) :
    Lead v b := by
  rcases number with rfl | digit
  · exact .of_ne (by decide) (by decide) (by decide)
  · refine .of_ne (Bool.eq_false_iff.mpr fun space => ?_) ?_ ?_
    · simp only [isSpace, Bool.or_eq_true, beq_iff_eq] at space
      rcases space with ((rfl | rfl) | rfl) | rfl <;> exact absurd digit (by decide)
    · rintro rfl
      exact absurd digit (by decide)
    · rintro rfl
      exact absurd digit (by decide)

theorem bytes_lead (v : Json) : ∃ b more, v.bytes = b :: more ∧ Lead v b := by
  cases v with
  | null => exact ⟨letter 'n', _, rfl, by decide, by decide, fun _ => rfl⟩
  | bool value =>
    cases value with
    | true => exact ⟨letter 't', _, rfl, .of_ne (by decide) (by decide) (by decide)⟩
    | false => exact ⟨letter 'f', _, rfl, .of_ne (by decide) (by decide) (by decide)⟩
  | integer n =>
    obtain ⟨b, more, cons, number⟩ := bytes_integerChars_cons n
    exact ⟨b, more, cons, .of_number number⟩
  | float negative magnitude =>
    obtain ⟨b, more, cons, number⟩ := bytes_floatChars_cons negative magnitude
    exact ⟨b, more, cons, .of_number number⟩
  | string s => exact ⟨quote, _, rfl, .of_ne (by decide) (by decide) (by decide)⟩
  | array elements => exact ⟨openBracket, _, rfl, .of_ne (by decide) (by decide) (by decide)⟩
  | object members => exact ⟨openBrace, _, rfl, .of_ne (by decide) (by decide) (by decide)⟩

theorem skipSpace_cons {b : UInt8} (noSpace : isSpace b = false) (rest : Bytes) :
    skipSpace (b :: rest) = b :: rest :=
  List.dropWhile_cons_of_neg (Bool.not_eq_true _ ▸ noSpace)

/-! ## Scalars -/

/-- The reader takes the written value and gives `x`, whatever may stand behind. -/
def Reads {α : Type} (reader : Reader α) (v : Json) (x : α) : Prop :=
  ∀ rest, Ended rest → reader (v.bytes ++ rest) = .ok (x, rest)

theorem reads_string (s : String) : Reads Reader.string (.string s) s := by
  intro rest ended
  rw [string_bytes, Reader.string, skipSpace_cons (by decide)]
  simp only [if_true, stringBody_eq]

theorem reads_boolean (value : Bool) : Reads Reader.boolean (.bool value) value := by
  intro rest ended
  cases value <;> rfl

theorem reads_integer (kind : String) {low high n : Int} (fits : n.natAbs < Nat.pow 2 63)
    (inside : low ≤ n ∧ n ≤ high) : Reads (Reader.integerWithin kind low high) (.integer n) n := by
  intro rest ended
  obtain ⟨b, more, cons, number⟩ := bytes_integerChars_cons n
  have read := number_eq fits ended
  have lead : Lead (.integer n) b := .of_number number
  rw [bytes, chars]
  rw [cons, List.cons_append] at read ⊢
  rw [Reader.integerWithin, skipSpace_cons lead.noSpace]
  simp only [if_pos number, read, if_pos inside]

theorem reads_uint32 (n : UInt32) : Reads Reader.uint32 (.integer n.toNat) n := by
  intro rest ended
  have fits : (n.toNat : Int).natAbs < Nat.pow 2 63 := by
    rw [Int.natAbs_natCast]
    exact Nat.lt_trans n.toNat_lt (by decide)
  have inside : (0 : Int) ≤ n.toNat ∧ (n.toNat : Int) ≤ 4294967295 := by
    have below := n.toNat_lt
    omega
  have read := reads_integer "u32" fits inside rest ended
  simp only [Reader.uint32, read, Int.toNat_natCast, UInt32.ofNat_toNat]

theorem reads_variant {α : Type} {names : List (String × α)} {name : String} {x : α}
    (named : names.lookup name = some x) : Reads (Reader.variant names) (.string name) x := by
  intro rest ended
  rw [string_bytes, Reader.variant, skipSpace_cons (by decide)]
  simp only [if_true, stringBody_eq, bind, Except.bind, named]

/-- Any value but `null` stands for itself. -/
theorem Reads.some {α : Type} {reader : Reader α} {v : Json} {x : α} (reads : Reads reader v x)
    (present : v ≠ .null) : Reads (Reader.optional reader) v (some x) := by
  intro rest ended
  obtain ⟨b, more, cons, lead⟩ := bytes_lead v
  have noN : b ≠ letter 'n' := fun isN => present (lead.null_of_n isN)
  have read := reads rest ended
  rw [cons, List.cons_append] at read ⊢
  rw [Reader.optional, skipSpace_cons lead.noSpace]
  simp only [if_neg noN, read]
  rfl

/-! ## Lists -/

theorem nextElement_first (v : Json) (rest : Bytes) :
    nextElement true (v.bytes ++ rest) = .ok (true, v.bytes ++ rest) := by
  obtain ⟨b, more, cons, lead⟩ := bytes_lead v
  rw [cons, List.cons_append, nextElement, skipSpace_cons lead.noSpace]
  simp only [if_neg lead.noClosing, if_true]

theorem nextElement_later (v : Json) (rest : Bytes) :
    nextElement false (comma :: (v.bytes ++ rest)) = .ok (true, v.bytes ++ rest) := by
  obtain ⟨b, more, cons, lead⟩ := bytes_lead v
  rw [cons, List.cons_append, nextElement, skipSpace_cons (by decide)]
  simp only [skipSpace_cons lead.noSpace, if_neg lead.noClosing]
  rfl

section
variable {α : Type} {element : Reader α} {write : α → Json}

/-- One element in front of others. -/
theorem elementsWithin_cons {fuel : Nat} {first : Bool} {v : Json} {x : α} {xs : List α}
    {text behind rest : Bytes} (next : nextElement first text = .ok (true, v.bytes ++ behind))
    (reads : Reads element v x) (ended : Ended behind)
    (later : elementsWithin element fuel false behind = .ok (xs, rest)) :
    elementsWithin element (fuel + 1) first text = .ok (x :: xs, rest) := by
  rw [elementsWithin, next]
  simp only [reads behind ended, later]

/-- Fuel for every element and for the closing bracket is enough. -/
theorem elementsWithin_trailing {xs : List α} (each : ∀ x ∈ xs, Reads element (write x) x)
    (rest : Bytes) (more : Nat) :
    elementsWithin element (more + xs.length + 1) false
        (Utf8.bytes (trailing chars (xs.map write)) ++ closeBracket :: rest) =
      .ok (xs, closeBracket :: rest) := by
  induction xs with
  | nil => rfl
  | cons x xs ih =>
    have later := ih fun y mem => each y (List.mem_cons_of_mem x mem)
    have ended := ended_trailing chars (xs.map write) (.inl rfl) rest
    rw [List.map_cons, bytes_trailing_cons]
    exact elementsWithin_cons (nextElement_later (write x) _) (each x List.mem_cons_self) ended
      later

theorem elementsWithin_separated {xs : List α} (each : ∀ x ∈ xs, Reads element (write x) x)
    (rest : Bytes) (more : Nat) :
    elementsWithin element (more + xs.length + 1) true
        (Utf8.bytes (separated chars (xs.map write)) ++ closeBracket :: rest) =
      .ok (xs, closeBracket :: rest) := by
  cases xs with
  | nil => rfl
  | cons x xs =>
    have others : ∀ y ∈ xs, Reads element (write y) y :=
      fun y mem => each y (List.mem_cons_of_mem x mem)
    have later := elementsWithin_trailing others rest more
    have ended := ended_trailing chars (xs.map write) (.inl rfl) rest
    rw [List.map_cons, separated, Utf8.bytes_append, List.append_assoc]
    exact elementsWithin_cons (nextElement_first (write x) _) (each x List.mem_cons_self) ended
      later

theorem Reads.list {xs : List α} (each : ∀ x ∈ xs, Reads element (write x) x) :
    Reads (Reader.list element) (.array (xs.map write)) xs := by
  intro rest ended
  have enough := length_le_separated chars (xs.map write) closeBracket rest
  rw [List.length_map] at enough
  obtain ⟨more, fuel⟩ := Nat.exists_eq_add_of_le' enough
  have read := elementsWithin_separated each rest more
  rw [array_bytes, Reader.list, skipSpace_cons (by decide)]
  simp only [if_true, fuel, read]
  rfl

end

end LinkGate.Json
