import LinkGate.Proofs.Json.Numerals
import LinkGate.Proofs.Json.Quoted

/-!
# A text is one tree

In front of something that cannot belong to a value, a text has one tree at most.  The first byte
tells what kind of tree it is; strings and numbers are unique because functions read them, arrays
and objects because their elements are.
-/

set_option autoImplicit false

namespace LinkGate.Json

/-! ## Blanks -/

section
variable {text rest : Bytes} {b : UInt8}

theorem spaces_skipSpace (text : Bytes) : Spaces text (skipSpace text) := by
  induction text with
  | nil => exact .none []
  | cons b text ih =>
    by_cases space : isSpace b = true
    · rw [skipSpace, List.dropWhile_cons_of_pos space]
      exact .more space ih
    · rw [skipSpace, List.dropWhile_cons_of_neg space]
      exact .none _

theorem Spaces.skipSpace_eq (spaces : Spaces text rest) : skipSpace text = skipSpace rest := by
  induction spaces with
  | none => rfl
  | more space others ih =>
    rw [skipSpace, List.dropWhile_cons_of_pos space]
    exact ih

theorem Spaces.skipSpace_cons (spaces : Spaces text (b :: rest)) (noSpace : isSpace b = false) :
    skipSpace text = b :: rest := by
  rw [spaces.skipSpace_eq, skipSpace, List.dropWhile_cons_of_neg (Bool.not_eq_true _ ▸ noSpace)]

/-- Behind blanks the next byte is one. -/
theorem Spaces.next_unique {b' : UInt8} {rest' : Bytes} (spaces : Spaces text (b :: rest))
    (noSpace : isSpace b = false) (again : Spaces text (b' :: rest'))
    (noSpace' : isSpace b' = false) : b = b' ∧ rest = rest' := by
  have front := spaces.skipSpace_cons noSpace
  rw [again.skipSpace_cons noSpace'] at front
  exact List.cons.inj front.symm

theorem Spaces.shorter (spaces : Spaces text rest) : rest.length ≤ text.length := by
  induction spaces with
  | none => exact Nat.le_refl _
  | more space others ih => exact Nat.le_succ_of_le ih

theorem Spaces.delimited (spaces : Spaces text rest) (delimited : Delimited rest) :
    Delimited text := by
  cases spaces with
  | none => exact delimited
  | more space others =>
    rintro _ ⟨rfl⟩
    exact .inl space

theorem delimited_nil : Delimited [] :=
  nofun

theorem delimited_cons (separates : b = comma ∨ b = closeBracket ∨ b = closeBrace) :
    Delimited (b :: rest) := by
  rintro _ ⟨rfl⟩
  exact .inr separates

end

/-! ## First bytes -/

/-- The bytes with which a tree may begin. -/
def Tree.Opens : Tree → UInt8 → Prop
  | .null, b => b = letter 'n'
  | .bool .true, b => b = letter 't'
  | .bool .false, b => b = letter 'f'
  | .number _, b => b = minus ∨ isDigit b = true
  | .string _, b => b = quote
  | .array _, b => b = openBracket
  | .object _, b => b = openBrace

theorem not_space_of_digit {b : UInt8} (digit : isDigit b = true) : isSpace b = false := by
  obtain ⟨d, small, rfl⟩ := byte_of_isDigit digit
  revert d
  decide

theorem Tree.Opens.noSpace {tree : Tree} {b : UInt8} (opens : tree.Opens b) :
    isSpace b = false := by
  cases tree with
  | null => exact opens ▸ rfl
  | bool value => cases value <;> exact opens ▸ rfl
  | number =>
    rcases opens with rfl | digit
    · rfl
    · exact not_space_of_digit digit
  | string => exact opens ▸ rfl
  | array => exact opens ▸ rfl
  | object => exact opens ▸ rfl

theorem Tree.Opens.noClosing {tree : Tree} {b : UInt8} (opens : tree.Opens b) :
    b ≠ closeBracket := by
  cases tree with
  | null => exact opens ▸ (by decide : letter 'n' ≠ closeBracket)
  | bool value =>
    cases value with
    | true => exact opens ▸ (by decide : letter 't' ≠ closeBracket)
    | false => exact opens ▸ (by decide : letter 'f' ≠ closeBracket)
  | number =>
    rintro rfl
    rcases opens with isMinus | digit
    · exact absurd isMinus (by decide)
    · exact absurd digit (by decide)
  | string => exact opens ▸ (by decide : quote ≠ closeBracket)
  | array => exact opens ▸ (by decide : openBracket ≠ closeBracket)
  | object => exact opens ▸ (by decide : openBrace ≠ closeBracket)

theorem Tree.Opens.eq_null {tree : Tree} {b : UInt8} (opens : tree.Opens b) (isN : b = letter 'n') :
    tree = .null := by
  subst isN
  cases tree with
  | null => rfl
  | bool value => cases value <;> exact absurd opens.symm (by decide)
  | number =>
    rcases opens with isMinus | digit
    · exact absurd isMinus (by decide)
    · exact absurd digit (by decide)
  | string => exact absurd opens.symm (by decide)
  | array => exact absurd opens.symm (by decide)
  | object => exact absurd opens.symm (by decide)

theorem Numeral.opens {text rest : Bytes} {number : NumberText}
    (numeral : Numeral text number rest) :
    ∃ b more, text = b :: more ∧ (b = minus ∨ isDigit b = true) := by
  obtain ⟨sign, whole, -, -⟩ := numeral
  obtain ⟨b, more, rfl, digit⟩ := whole.written.head_digit whole.present
  generalize NumberText.negative _ = negative at sign
  cases sign with
  | none => exact ⟨b, more, rfl, .inr digit⟩
  | minus => exact ⟨minus, b :: more, rfl, .inl rfl⟩

theorem Stands.opens {text rest : Bytes} {tree : Tree} (stands : Stands text tree rest) :
    ∃ b more, text = b :: more ∧ tree.Opens b := by
  cases stands with
  | number numeral => exact numeral.opens
  | _ => exact ⟨_, _, rfl, rfl⟩

theorem Stands.skipSpace_eq {text start rest : Bytes} {tree : Tree}
    (stands : Stands start tree rest) (spaces : Spaces text start) : skipSpace text = start := by
  obtain ⟨b, more, rfl, opens⟩ := stands.opens
  exact spaces.skipSpace_cons opens.noSpace

theorem Stands.start_unique {text start start' rest rest' : Bytes} {tree tree' : Tree}
    (stands : Stands start tree rest) (spaces : Spaces text start)
    (again : Stands start' tree' rest') (spaces' : Spaces text start') : start = start' :=
  (stands.skipSpace_eq spaces).symm.trans (again.skipSpace_eq spaces')

theorem Stands.not_closing {text start rest behind : Bytes} {tree : Tree}
    (stands : Stands start tree rest) (spaces : Spaces text start) :
    ¬Spaces text (closeBracket :: behind) := by
  intro closing
  obtain ⟨b, more, rfl, opens⟩ := stands.opens
  exact opens.noClosing (spaces.next_unique opens.noSpace closing rfl).1

theorem Numeral.not_opens {b : UInt8} {text rest : Bytes} {number : NumberText}
    (noNumber : ¬(b = minus ∨ isDigit b = true)) : ¬Numeral (b :: text) number rest := by
  intro numeral
  obtain ⟨_, _, same, opens⟩ := numeral.opens
  exact noNumber ((List.cons.inj same).1 ▸ opens)

theorem Numeral.unique {text rest rest' : Bytes} {number number' : NumberText}
    (numeral : Numeral text number rest) (delimited : Delimited rest)
    (again : Numeral text number' rest') (delimited' : Delimited rest') :
    number = number' ∧ rest = rest' := by
  have taken := scanNumber_of_numeral numeral delimited
  rw [scanNumber_of_numeral again delimited'] at taken
  exact Prod.mk.inj (Except.ok.inj taken.symm)

theorem Quoted.unique {text rest rest' : Bytes} {s s' : String}
    (quoted : Quoted text s.toList rest) (again : Quoted text s'.toList rest') :
    s = s' ∧ rest = rest' := by
  have taken := stringBody_eq_ok_iff.mpr quoted
  rw [stringBody_eq_ok_iff.mpr again] at taken
  exact Prod.mk.inj (Except.ok.inj taken.symm)

/-! ## Trees -/

theorem Elements.delimited {text rest : Bytes} {trees : List Tree}
    (elements : Elements .false text trees rest) : Delimited text := by
  cases elements with
  | close spaces => exact spaces.delimited (delimited_cons (.inr (.inl rfl)))
  | later before => exact before.delimited (delimited_cons (.inl rfl))

theorem Entries.delimited {text rest : Bytes} {members : List (String × Tree)}
    (entries : Entries .false text members rest) : Delimited text := by
  cases entries with
  | close spaces => exact spaces.delimited (delimited_cons (.inr (.inr rfl)))
  | later before => exact before.delimited (delimited_cons (.inl rfl))

mutual

theorem Stands.unique {text rest rest' : Bytes} {tree tree' : Tree} (stands : Stands text tree rest)
    (delimited : Delimited rest) (again : Stands text tree' rest') (delimited' : Delimited rest') :
    tree = tree' ∧ rest = rest' := by
  cases stands with
  | null =>
    cases again with
    | null => exact ⟨rfl, rfl⟩
    | number numeral => exact absurd numeral (Numeral.not_opens (by decide))
  | true =>
    cases again with
    | true => exact ⟨rfl, rfl⟩
    | number numeral => exact absurd numeral (Numeral.not_opens (by decide))
  | false =>
    cases again with
    | false => exact ⟨rfl, rfl⟩
    | number numeral => exact absurd numeral (Numeral.not_opens (by decide))
  | string quoted =>
    cases again with
    | string other =>
      obtain ⟨rfl, rfl⟩ := quoted.unique other
      exact ⟨rfl, rfl⟩
    | number numeral => exact absurd numeral (Numeral.not_opens (by decide))
  | @array _ _ elements inner =>
    cases again with
    | array other =>
      obtain ⟨rfl, rfl⟩ := inner.unique other
      exact ⟨rfl, rfl⟩
    | number numeral => exact absurd numeral (Numeral.not_opens (by decide))
  | @object _ _ members inner =>
    cases again with
    | object other =>
      obtain ⟨rfl, rfl⟩ := inner.unique other
      exact ⟨rfl, rfl⟩
    | number numeral => exact absurd numeral (Numeral.not_opens (by decide))
  | number numeral =>
    cases again with
    | number other =>
      obtain ⟨rfl, rfl⟩ := numeral.unique delimited other delimited'
      exact ⟨rfl, rfl⟩
    | _ => exact absurd numeral (Numeral.not_opens (by decide))
termination_by sizeOf tree

theorem Elements.unique {first : Bool} {text rest rest' : Bytes} {trees trees' : List Tree}
    (elements : Elements first text trees rest) (again : Elements first text trees' rest') :
    trees = trees' ∧ rest = rest' := by
  cases elements with
  | close spaces =>
    cases again with
    | close spaces' =>
      obtain ⟨-, rfl⟩ := spaces.next_unique rfl spaces' rfl
      exact ⟨rfl, rfl⟩
    | first spaces' stands' => exact absurd spaces (stands'.not_closing spaces')
    | later before' => exact absurd (spaces.next_unique rfl before' rfl).1 (by decide)
  | @first _ _ behind _ tree trees spaces stands others =>
    cases again with
    | close spaces' => exact absurd spaces' (stands.not_closing spaces)
    | first spaces' stands' others' =>
      obtain rfl := stands.start_unique spaces stands' spaces'
      obtain ⟨rfl, rfl⟩ := stands.unique others.delimited stands' others'.delimited
      obtain ⟨rfl, rfl⟩ := others.unique others'
      exact ⟨rfl, rfl⟩
  | @later _ _ _ behind _ tree trees before spaces stands others =>
    cases again with
    | close spaces' => exact absurd (spaces'.next_unique rfl before rfl).1 (by decide)
    | later before' spaces' stands' others' =>
      obtain ⟨-, rfl⟩ := before.next_unique rfl before' rfl
      obtain rfl := stands.start_unique spaces stands' spaces'
      obtain ⟨rfl, rfl⟩ := stands.unique others.delimited stands' others'.delimited
      obtain ⟨rfl, rfl⟩ := others.unique others'
      exact ⟨rfl, rfl⟩
termination_by sizeOf trees

theorem Entries.unique {first : Bool} {text rest rest' : Bytes}
    {members members' : List (String × Tree)} (entries : Entries first text members rest)
    (again : Entries first text members' rest') : members = members' ∧ rest = rest' := by
  cases entries with
  | close spaces =>
    cases again with
    | close spaces' =>
      obtain ⟨-, rfl⟩ := spaces.next_unique rfl spaces' rfl
      exact ⟨rfl, rfl⟩
    | first spaces' => exact absurd (spaces.next_unique rfl spaces' rfl).1 (by decide)
    | later before' => exact absurd (spaces.next_unique rfl before' rfl).1 (by decide)
  | @first _ _ behind _ member members spaces stands others =>
    cases again with
    | close spaces' => exact absurd (spaces'.next_unique rfl spaces rfl).1 (by decide)
    | first spaces' stands' others' =>
      obtain ⟨-, rfl⟩ := spaces.next_unique rfl spaces' rfl
      obtain ⟨rfl, rfl⟩ := stands.unique others.delimited stands' others'.delimited
      obtain ⟨rfl, rfl⟩ := others.unique others'
      exact ⟨rfl, rfl⟩
  | @later _ _ _ behind _ member members before spaces stands others =>
    cases again with
    | close spaces' => exact absurd (spaces'.next_unique rfl before rfl).1 (by decide)
    | later before' spaces' stands' others' =>
      obtain ⟨-, rfl⟩ := before.next_unique rfl before' rfl
      obtain ⟨-, rfl⟩ := spaces.next_unique rfl spaces' rfl
      obtain ⟨rfl, rfl⟩ := stands.unique others.delimited stands' others'.delimited
      obtain ⟨rfl, rfl⟩ := others.unique others'
      exact ⟨rfl, rfl⟩
termination_by sizeOf members

theorem Entry.unique {text rest rest' : Bytes} {member member' : String × Tree}
    (entry : Entry text member rest) (delimited : Delimited rest)
    (again : Entry text member' rest') (delimited' : Delimited rest') :
    member = member' ∧ rest = rest' := by
  cases entry with
  | pair quoted before spaces stands =>
    cases again with
    | pair quoted' before' spaces' stands' =>
      obtain ⟨rfl, rfl⟩ := quoted.unique quoted'
      obtain ⟨-, rfl⟩ := before.next_unique rfl before' rfl
      obtain rfl := stands.start_unique spaces stands' spaces'
      obtain ⟨rfl, rfl⟩ := stands.unique delimited stands' delimited'
      exact ⟨rfl, rfl⟩
termination_by sizeOf member

end

theorem Document.unique {text : Bytes} {tree tree' : Tree} (document : Document text tree)
    (again : Document text tree') : tree = tree' := by
  obtain ⟨start, rest, spaces, stands, blank⟩ := document
  obtain ⟨start', rest', spaces', stands', blank'⟩ := again
  obtain rfl := stands.start_unique spaces stands' spaces'
  exact (stands.unique (blank.delimited delimited_nil) stands' (blank'.delimited delimited_nil)).1

end LinkGate.Json
