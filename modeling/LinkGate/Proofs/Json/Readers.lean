import LinkGate.Json.Reader
import LinkGate.Proofs.Json.Shape
import LinkGate.Proofs.Json.Unambiguous
import LinkGate.Proofs.Lookup
import LinkGate.Proofs.Outcome

/-!
# What typed readers accept

A reader is exact for a shape when it accepts just the trees that are not flawed.  What it accepts
was a tree even where it stops at the first fault, so nothing but well-formed documents is read.
`Reader.Exact` holds of every reader that is built from exact ones.
-/

set_option autoImplicit false

namespace LinkGate.Json

/-! ## Lengths -/

theorem Digits.length_eq {text rest : Bytes} {written : List Nat}
    (run : Digits text written rest) : text.length = written.length + rest.length := by
  induction run with
  | none rest => exact (Nat.zero_add _).symm
  | more small others ih =>
    rw [List.length_cons, List.length_cons, ih]
    omega

theorem Numeral.shorter {text rest : Bytes} {number : NumberText}
    (numeral : Numeral text number rest) : rest.length < text.length := by
  obtain ⟨sign, whole, fraction, exponent⟩ := numeral
  rename_i first second third
  have signed : first.length ≤ text.length := by
    generalize NumberText.negative _ = negative at sign
    cases sign with
    | none => exact Nat.le_refl _
    | minus => exact Nat.le_succ _
  have digits := whole.written.length_eq
  have present := List.length_pos_of_ne_nil whole.present
  have fractional : third.length ≤ second.length := by
    generalize NumberText.fraction _ = digits at fraction
    cases fraction with
    | none => exact Nat.le_refl _
    | point written =>
      rw [List.length_cons, written.length_eq]
      omega
  have powered : rest.length ≤ third.length := by
    generalize NumberText.exponent _ = power at exponent
    cases exponent with
    | none => exact Nat.le_refl _
    | mark isMark sign written =>
      have digits := written.length_eq
      cases sign <;> simp only [List.length_cons] <;> omega
  omega

theorem length_word (chars : List Char) (rest : Bytes) :
    (word chars rest).length = chars.length + rest.length := by
  rw [word, List.length_append, List.length_map]

mutual

theorem Stands.shorter {text rest : Bytes} {tree : Tree} (stands : Stands text tree rest) :
    rest.length < text.length := by
  cases stands with
  | null | true | false =>
    rw [length_word]
    exact Nat.lt_add_of_pos_left (Nat.succ_pos _)
  | number numeral => exact numeral.shorter
  | string quoted => exact Nat.lt_succ_of_lt quoted.shorter
  | array inner =>
    have within := inner.shorter
    rw [List.length_cons]
    omega
  | object inner =>
    have within := inner.shorter
    rw [List.length_cons]
    omega

theorem Elements.shorter {first : Bool} {text rest : Bytes} {trees : List Tree}
    (elements : Elements first text trees rest) : trees.length + rest.length < text.length := by
  cases elements with
  | close spaces =>
    have blank := spaces.shorter
    simp only [List.length_cons, List.length_nil] at blank ⊢
    omega
  | first spaces stands others =>
    have blank := spaces.shorter
    have taken := stands.shorter
    have further := others.shorter
    rw [List.length_cons]
    omega
  | later before spaces stands others =>
    have separated := before.shorter
    have blank := spaces.shorter
    have taken := stands.shorter
    have further := others.shorter
    rw [List.length_cons] at separated ⊢
    omega

theorem Entries.shorter {first : Bool} {text rest : Bytes} {members : List (String × Tree)}
    (entries : Entries first text members rest) :
    members.length + rest.length < text.length := by
  cases entries with
  | close spaces =>
    have blank := spaces.shorter
    simp only [List.length_cons, List.length_nil] at blank ⊢
    omega
  | first spaces stands others =>
    have blank := spaces.shorter
    have taken := stands.shorter
    have further := others.shorter
    rw [List.length_cons] at blank ⊢
    omega
  | later before spaces stands others =>
    have separated := before.shorter
    have blank := spaces.shorter
    have taken := stands.shorter
    have further := others.shorter
    rw [List.length_cons] at separated blank ⊢
    omega

theorem Entry.shorter {text rest : Bytes} {member : String × Tree}
    (entry : Entry text member rest) : rest.length < text.length := by
  cases entry with
  | pair quoted before spaces stands =>
    have key := quoted.shorter
    have separated := before.shorter
    have blank := spaces.shorter
    have taken := stands.shorter
    rw [List.length_cons] at separated
    omega

end

/-! ## Tokens -/

/-- Where a value of another type stands, nothing is read. -/
theorem mismatch_ne_ok {α : Type} {expected : String} {text : Bytes} {result : α × Bytes} :
    mismatch expected text ≠ .ok result := by
  intro taken
  cases text with
  | nil => cases taken
  | cons b text =>
    simp only [mismatch] at taken
    repeat' split at taken
    all_goals cases taken

theorem letters_eq_ok_iff {chars : List Char} {text rest : Bytes} :
    letters chars text = .ok rest ↔ text = word chars rest := by
  induction chars generalizing text with
  | nil => exact ⟨fun taken => Except.ok.inj taken, fun same => same ▸ rfl⟩
  | cons c chars ih =>
    cases text with
    | nil => exact ⟨nofun, nofun⟩
    | cons b text =>
      rw [letters]
      split
      case isTrue isLetter =>
        rw [ih, isLetter]
        exact ⟨fun same => same ▸ rfl, fun same => (List.cons.inj same).2⟩
      case isFalse other =>
        exact ⟨nofun, fun same => absurd (List.cons.inj same).1 other⟩

theorem spaces_of_skipSpace {text rest : Bytes} (front : skipSpace text = rest) :
    Spaces text rest :=
  front ▸ spaces_skipSpace text

theorem number_eq_integer_iff {text rest : Bytes} {n : Int} :
    number text = .ok (.integer n, rest) ↔
      ∃ written, scanNumber text = .ok (written, rest) ∧ written.integer? = some n := by
  constructor
  · intro taken
    rw [number] at taken
    split at taken
    case h_1 => cases taken
    case h_2 written behind scanned =>
      split at taken
      case h_2 => cases taken
      case h_1 value valued =>
        obtain ⟨rfl, rfl⟩ := Prod.mk.inj (Except.ok.inj taken)
        refine ⟨written, scanned, ?_⟩
        rw [NumberText.value] at valued
        split at valued
        case h_1 m found =>
          cases valued
          exact found
        case h_2 =>
          repeat' split at valued
          all_goals cases valued
  · rintro ⟨written, scanned, found⟩
    have valued : written.value = .ok (.integer n) := by
      rw [NumberText.value, found]
    simp only [number, scanned, valued]

theorem unit_eq_ok_iff {text rest : Bytes} :
    Reader.unit text = .ok ((), rest) ↔ Spaces text (word ['n', 'u', 'l', 'l'] rest) := by
  constructor
  · intro taken
    rw [Reader.unit] at taken
    split at taken
    case h_1 => cases taken
    case h_2 b more front =>
      split at taken
      case isFalse => exact absurd taken mismatch_ne_ok
      case isTrue isN =>
        obtain ⟨_, lettersTaken, built⟩ := map_eq_ok_iff.mp taken
        cases built
        obtain rfl := letters_eq_ok_iff.mp lettersTaken
        subst isN
        exact spaces_of_skipSpace front
  · intro spaces
    rw [Reader.unit, spaces.skipSpace_cons rfl]
    rfl

theorem colonAfter_eq_ok_iff {text rest : Bytes} :
    colonAfter text = .ok rest ↔ Spaces text (colon :: rest) := by
  constructor
  · intro taken
    rw [colonAfter] at taken
    split at taken
    case h_1 => cases taken
    case h_2 b more front =>
      split at taken
      case isFalse => cases taken
      case isTrue isColon =>
        cases taken
        exact isColon ▸ spaces_of_skipSpace front
  · intro spaces
    rw [colonAfter, spaces.skipSpace_cons rfl]
    rfl

theorem onlyKey_eq_ok_iff {text rest : Bytes} {key : String} :
    onlyKey text = .ok (key, rest) ↔
      ∃ behind, Spaces text (quote :: behind) ∧ Quoted behind key.toList rest := by
  constructor
  · intro taken
    rw [onlyKey] at taken
    split at taken
    case h_1 => cases taken
    case h_2 b more front =>
      split at taken
      case isTrue isQuote =>
        exact ⟨more, isQuote ▸ spaces_of_skipSpace front, stringBody_eq_ok_iff.mp taken⟩
      case isFalse =>
        repeat' split at taken
        all_goals cases taken
  · rintro ⟨behind, spaces, quoted⟩
    rw [onlyKey, spaces.skipSpace_cons rfl]
    exact stringBody_eq_ok_iff.mpr quoted

theorem Spaces.trans {text middle rest : Bytes} (first : Spaces text middle)
    (second : Spaces middle rest) : Spaces text rest := by
  induction first with
  | none => exact second
  | more space others ih => exact .more space (ih second)

/-! ## Elements -/

/-- What stands in front of an element or a member: nothing but blanks if it is the first, else a
comma too. -/
inductive Gap : Bool → Bytes → Bytes → Prop where
  | first {text start : Bytes} (spaces : Spaces text start) : Gap .true text start
  | later {text separated start : Bytes} (before : Spaces text (comma :: separated))
    (spaces : Spaces separated start) : Gap .false text start

theorem Gap.trans {first : Bool} {text middle start : Bytes} (gap : Gap first text middle)
    (spaces : Spaces middle start) : Gap first text start := by
  cases gap with
  | first blank => exact .first (blank.trans spaces)
  | later before blank => exact .later before (blank.trans spaces)

theorem Gap.shorter {first : Bool} {text start : Bytes} (gap : Gap first text start) :
    start.length ≤ text.length := by
  cases gap with
  | first blank => exact blank.shorter
  | later before blank =>
    have separated := before.shorter
    have further := blank.shorter
    rw [List.length_cons] at separated
    omega

theorem Gap.delimited {text start : Bytes} (gap : Gap false text start) : Delimited text := by
  cases gap with
  | later before => exact before.delimited (delimited_cons (.inl rfl))

section
variable {first : Bool} {text rest : Bytes}

theorem closing_of_nextElement (next : nextElement first text = .ok (false, rest)) :
    ∃ behind, rest = closeBracket :: behind ∧ Spaces text rest := by
  rw [nextElement] at next
  split at next
  case h_1 => cases next
  case h_2 b more front =>
    split at next
    case isTrue isClosing =>
      cases next
      exact ⟨more, isClosing ▸ rfl, spaces_of_skipSpace front⟩
    case isFalse =>
      repeat' split at next
      all_goals cases next

theorem gap_of_nextElement (next : nextElement first text = .ok (true, rest)) :
    Gap first text rest := by
  rw [nextElement] at next
  split at next
  case h_1 => cases next
  case h_2 b more front =>
    have before := spaces_of_skipSpace front
    split at next
    case isTrue => cases next
    case isFalse =>
      cases first with
      | true =>
        cases next
        exact .first before
      | false =>
        split at next
        case isTrue impossible => cases impossible
        case isFalse =>
          split at next
          case isFalse => cases next
          case isTrue isComma =>
            split at next
            case h_1 => cases next
            case h_2 c after gap =>
              split at next
              case isTrue => cases next
              case isFalse =>
                cases next
                subst isComma
                exact .later before (spaces_of_skipSpace gap)

theorem Gap.nextElement_eq {b : UInt8} {more : Bytes} (gap : Gap first text (b :: more))
    (noSpace : isSpace b = false) (noClosing : b ≠ closeBracket) :
    nextElement first text = .ok (true, b :: more) := by
  cases gap with
  | first spaces =>
    rw [nextElement, spaces.skipSpace_cons noSpace]
    simp only [if_neg noClosing, if_true]
  | later before spaces =>
    rw [nextElement, before.skipSpace_cons rfl]
    simp only [spaces.skipSpace_cons noSpace, if_neg noClosing]
    rfl

theorem Elements.of_gap {start behind last : Bytes} {v : Tree} {values : List Tree}
    (gap : Gap first text start) (stands : Stands start v behind)
    (others : Elements .false behind values last) : Elements first text (v :: values) last := by
  cases gap with
  | first spaces => exact .first spaces stands others
  | later before spaces => exact .later before spaces stands others

theorem Elements.cons {start behind last : Bytes} {v : Tree} {values : List Tree}
    (next : nextElement first text = .ok (true, rest)) (spaces : Spaces rest start)
    (stands : Stands start v behind) (others : Elements .false behind values last) :
    Elements first text (v :: values) last :=
  .of_gap ((gap_of_nextElement next).trans spaces) stands others

theorem Elements.closing (elements : Elements first text [] rest) :
    Spaces text (closeBracket :: rest) := by
  cases elements with
  | close spaces => exact spaces

theorem nextElement_closing (spaces : Spaces text (closeBracket :: rest)) :
    nextElement first text = .ok (false, closeBracket :: rest) := by
  rw [nextElement, spaces.skipSpace_cons rfl]
  rfl

theorem Elements.nextElement_nil (elements : Elements first text [] rest) :
    nextElement first text = .ok (false, closeBracket :: rest) :=
  nextElement_closing elements.closing

theorem Elements.nextElement_cons {v : Tree} {values : List Tree}
    (elements : Elements first text (v :: values) rest) :
    ∃ start behind, nextElement first text = .ok (true, start) ∧ Stands start v behind ∧
      Elements .false behind values rest := by
  have next {start behind : Bytes} (gap : Gap first text start) (stands : Stands start v behind) :
      nextElement first text = .ok (true, start) := by
    obtain ⟨b, more, rfl, opens⟩ := stands.opens
    exact gap.nextElement_eq opens.noSpace opens.noClosing
  cases elements with
  | @first _ start behind _ _ _ spaces stands others =>
    exact ⟨start, behind, next (.first spaces) stands, stands, others⟩
  | @later _ _ start behind _ _ _ before spaces stands others =>
    exact ⟨start, behind, next (.later before spaces) stands, stands, others⟩

theorem closeArray_eq_ok_iff : closeArray text = .ok rest ↔ Spaces text (closeBracket :: rest) := by
  constructor
  · intro taken
    rw [closeArray] at taken
    split at taken
    case h_1 => cases taken
    case h_2 b more front =>
      split at taken
      case isTrue isClosing =>
        cases taken
        exact isClosing ▸ spaces_of_skipSpace front
      case isFalse =>
        repeat' split at taken
        all_goals cases taken
  · intro spaces
    rw [closeArray, spaces.skipSpace_cons rfl]
    rfl

end

/-! ## Exact readers -/

/-- A reader reads the values of a kind, and nothing else. -/
structure Reader.Takes {α : Type} (reader : Reader α) (kind : Tree → α → Prop) : Prop where
  sound {text rest : Bytes} {x : α} : reader text = .ok (x, rest) →
    ∃ start v, Spaces text start ∧ Stands start v rest ∧ kind v x
  complete {text start rest : Bytes} {v : Tree} {x : α} : Spaces text start → Stands start v rest →
    Delimited rest → kind v x → reader text = .ok (x, rest)

/-- A reader accepts the trees without a flaw, with the values that they describe. -/
structure Reader.Exact {α : Type} (reader : Reader α) (shape : Shape) (kind : Tree → α → Prop) :
    Prop where
  sound {text rest : Bytes} {x : α} : reader text = .ok (x, rest) →
    ∃ start v, Spaces text start ∧ Stands start v rest ∧ ¬Flawed shape v ∧ kind v x
  complete {text start rest : Bytes} {v : Tree} : Spaces text start → Stands start v rest →
    Delimited rest → ¬Flawed shape v → ∃ x, reader text = .ok (x, rest)

theorem Reader.Exact.imp {α : Type} {reader : Reader α} {shape : Shape}
    {kind other : Tree → α → Prop} (exact : reader.Exact shape kind)
    (weaker : ∀ v x, kind v x → other v x) : reader.Exact shape other where
  sound := by
    intro text rest x taken
    obtain ⟨start, v, spaces, stands, sound, described⟩ := exact.sound taken
    exact ⟨start, v, spaces, stands, sound, weaker v x described⟩
  complete := exact.complete

theorem Reader.run_eq_ok_iff {α : Type} {reader : Reader α} {text : Bytes} {x : α} :
    reader.run text = .ok x ↔ ∃ rest, reader text = .ok (x, rest) ∧ Spaces rest [] := by
  constructor
  · intro taken
    rw [Reader.run] at taken
    split at taken
    case h_1 => cases taken
    case h_2 y rest read =>
      split at taken
      case h_2 => cases taken
      case h_1 ended =>
        cases taken
        exact ⟨rest, read, spaces_of_skipSpace ended⟩
  · rintro ⟨rest, read, blank⟩
    have ended : skipSpace rest = [] := blank.skipSpace_eq
    simp only [Reader.run, read, ended]
    rfl

section
variable {α : Type} {reader : Reader α} {shape : Shape} {kind : Tree → α → Prop}
  (exact : reader.Exact shape kind) {text : Bytes}
include exact

theorem Reader.Exact.document_of_run {x : α} (taken : reader.run text = .ok x) :
    ∃ v, Document text v ∧ ¬Flawed shape v ∧ kind v x := by
  obtain ⟨rest, read, blank⟩ := Reader.run_eq_ok_iff.mp taken
  obtain ⟨start, v, spaces, stands, sound, described⟩ := exact.sound read
  exact ⟨v, ⟨start, rest, spaces, stands, blank⟩, sound, described⟩

theorem Reader.Exact.run_of_document {v : Tree} (document : Document text v)
    (sound : ¬Flawed shape v) : ∃ x, reader.run text = .ok x := by
  obtain ⟨start, rest, spaces, stands, blank⟩ := document
  obtain ⟨x, read⟩ := exact.complete spaces stands (blank.delimited delimited_nil) sound
  exact ⟨x, Reader.run_eq_ok_iff.mpr ⟨rest, read, blank⟩⟩

end

namespace Reader

theorem takes_string : Reader.string.Takes Tree.IsText where
  sound := by
    intro text rest s taken
    rw [Reader.string] at taken
    split at taken
    case h_1 => cases taken
    case h_2 b more front =>
      split at taken
      case isFalse => exact absurd taken mismatch_ne_ok
      case isTrue isQuote =>
        subst isQuote
        exact ⟨_, .string s, spaces_of_skipSpace front,
          .string (stringBody_eq_ok_iff.mp taken), rfl⟩
  complete := by
    rintro text start rest _ s spaces stands delimited rfl
    cases stands with
    | string quoted =>
      rw [Reader.string, spaces.skipSpace_cons rfl]
      exact stringBody_eq_ok_iff.mpr quoted

theorem exact_string : Reader.string.Exact .text Tree.IsText where
  sound := by
    intro text rest s taken
    obtain ⟨start, v, spaces, stands, isText⟩ := takes_string.sound taken
    refine ⟨start, v, spaces, stands, ?_, isText⟩
    intro flawed
    cases flawed with
    | text other => exact other s isText
  complete := by
    intro text start rest v spaces stands delimited sound
    obtain ⟨s, isText⟩ : ∃ s, v.IsText s := by
      by_contra none
      exact sound (.text (not_exists.mp none))
    exact ⟨s, takes_string.complete spaces stands delimited isText⟩

theorem exact_boolean : Reader.boolean.Exact .flag Tree.IsFlag where
  sound := by
    intro text rest value taken
    have present : ∀ value, ¬Flawed .flag (.bool value) := by
      intro value flawed
      cases flawed with
      | flag other => exact other value rfl
    rw [Reader.boolean] at taken
    split at taken
    case h_1 => cases taken
    case h_2 b more front =>
      have spaces := spaces_of_skipSpace front
      split at taken
      case isTrue isT =>
        obtain ⟨_, lettersTaken, built⟩ := map_eq_ok_iff.mp taken
        cases built
        obtain rfl := letters_eq_ok_iff.mp lettersTaken
        subst isT
        exact ⟨_, .bool true, spaces, .true _, present true, rfl⟩
      case isFalse =>
        split at taken
        case isTrue isF =>
          obtain ⟨_, lettersTaken, built⟩ := map_eq_ok_iff.mp taken
          cases built
          obtain rfl := letters_eq_ok_iff.mp lettersTaken
          subst isF
          exact ⟨_, .bool false, spaces, .false _, present false, rfl⟩
        case isFalse => exact absurd taken mismatch_ne_ok
  complete := by
    intro text start rest v spaces stands delimited sound
    obtain ⟨value, rfl⟩ : ∃ value, v.IsFlag value := by
      by_contra none
      exact sound (.flag (not_exists.mp none))
    refine ⟨value, ?_⟩
    cases stands with
    | true =>
      rw [Reader.boolean, spaces.skipSpace_cons rfl]
      rfl
    | false =>
      rw [Reader.boolean, spaces.skipSpace_cons rfl]
      rfl

section
variable {kind : String} {low high n : Int} {text start rest : Bytes} {written : NumberText}

theorem numeral_of_integerWithin (taken : integerWithin kind low high text = .ok (n, rest)) :
    ∃ start written, Spaces text start ∧ Numeral start written rest ∧ written.Integer n ∧
      low ≤ n ∧ n ≤ high := by
  rw [integerWithin] at taken
  split at taken
  case h_1 => cases taken
  case h_2 b more front =>
    split at taken
    case isFalse => exact absurd taken mismatch_ne_ok
    case isTrue =>
      split at taken
      case h_1 => cases taken
      case h_3 => cases taken
      case h_2 m last read =>
        split at taken
        case isFalse => cases taken
        case isTrue range =>
          obtain ⟨rfl, rfl⟩ := Prod.mk.inj (Except.ok.inj taken)
          obtain ⟨written, scanned, found⟩ := number_eq_integer_iff.mp read
          exact ⟨_, written, spaces_of_skipSpace front, numeral_of_scanNumber scanned,
            NumberText.integer_of_integer? found, range⟩

theorem integerWithin_of_numeral (spaces : Spaces text start)
    (numeral : Numeral start written rest) (delimited : Delimited rest)
    (integer : written.Integer n) (range : low ≤ n ∧ n ≤ high)
    (fits : -9223372036854775808 ≤ low ∧ high ≤ 18446744073709551615) :
    integerWithin kind low high text = .ok (n, rest) := by
  have found := integer.integer?_eq (by omega) (by omega)
  have read := number_eq_integer_iff.mpr ⟨written, scanNumber_of_numeral numeral delimited, found⟩
  have front := (Stands.number numeral).skipSpace_eq spaces
  obtain ⟨b, more, rfl, opens⟩ := numeral.opens
  rw [integerWithin, front]
  simp only [if_pos opens, read, if_pos range]

end

theorem takes_int32 : Reader.int32.Takes Tree.IsInt32 where
  sound := by
    intro text rest n taken
    obtain ⟨start, written, spaces, numeral, integer, range⟩ := numeral_of_integerWithin taken
    exact ⟨start, .number written, spaces, .number numeral, written, rfl, integer, range⟩
  complete := by
    rintro text start rest _ n spaces stands delimited ⟨written, rfl, integer, range⟩
    cases stands with
    | number numeral =>
      exact integerWithin_of_numeral spaces numeral delimited integer range (by decide)

theorem exact_uint32 : Reader.uint32.Exact .count Tree.IsCount where
  sound := by
    intro text rest x taken
    rw [Reader.uint32] at taken
    split at taken
    case h_1 => cases taken
    case h_2 n behind within =>
      obtain ⟨rfl, rfl⟩ := Prod.mk.inj (Except.ok.inj taken)
      obtain ⟨start, written, spaces, numeral, integer, natural, small⟩ :=
        numeral_of_integerWithin within
      have below : n.toNat < 2 ^ 32 := by omega
      have value : (UInt32.ofNat n.toNat).toNat = n.toNat := UInt32.toNat_ofNat_of_lt' below
      have isCount : (Tree.number written).IsCount (UInt32.ofNat n.toNat) :=
        ⟨written, rfl, value.symm ▸ integer.counts natural⟩
      refine ⟨start, .number written, spaces, .number numeral, ?_, isCount⟩
      intro flawed
      cases flawed with
      | count other => exact other _ isCount
  complete := by
    intro text start rest v spaces stands delimited sound
    obtain ⟨n, written, rfl, counts⟩ : ∃ n, v.IsCount n := by
      by_contra none
      exact sound (.count (not_exists.mp none))
    cases stands with
    | number numeral =>
      have below := n.toNat_lt
      have within : integerWithin "u32" 0 4294967295 text = .ok ((n.toNat : Int), rest) :=
        integerWithin_of_numeral spaces numeral delimited counts.integer (by omega) (by decide)
      refine ⟨n, ?_⟩
      simp only [Reader.uint32, within, Int.toNat_natCast, UInt32.ofNat_toNat]

theorem exact_variant {α : Type} (names : List (String × α)) :
    (Reader.variant names).Exact (.oneOf (names.map (·.1))) (Tree.IsOneOf names) where
  sound := by
    intro text rest x taken
    have named {name : String} {v : Tree} (found : names.lookup name = some x)
        (spells : v.Spells name) :
        ¬Flawed (.oneOf (names.map (·.1))) v ∧ v.IsOneOf names x := by
      refine ⟨?_, name, found, spells⟩
      intro flawed
      cases flawed with
      | oneOf other => exact other name (List.mem_map_of_mem (mem_of_lookup found)) spells
    simp only [Reader.variant] at taken
    split at taken
    case h_1 => cases taken
    case h_2 b more front =>
      have spaces := spaces_of_skipSpace front
      split at taken
      case isTrue isQuote =>
        subst isQuote
        simp only [bind_eq_ok_iff] at taken
        obtain ⟨⟨name, behind⟩, quoted, lookedUp⟩ := taken
        split at lookedUp
        case h_2 => cases lookedUp
        case h_1 value found =>
          obtain ⟨rfl, rfl⟩ := Prod.mk.inj (Except.ok.inj lookedUp)
          exact ⟨_, .string name, spaces, .string (stringBody_eq_ok_iff.mp quoted),
            named found (.inl rfl)⟩
      case isFalse =>
        split at taken
        case isFalse => cases taken
        case isTrue isBrace =>
          subst isBrace
          simp only [bind_eq_ok_iff] at taken
          obtain ⟨⟨name, afterKey⟩, key, ⟨value, _⟩, lookedUp, afterColon, separated,
            ⟨_, afterNull⟩, absent, closed⟩ := taken
          obtain ⟨keyText, keySpaces, quoted⟩ := onlyKey_eq_ok_iff.mp key
          split at lookedUp
          case h_2 => cases lookedUp
          case h_1 value found =>
            obtain ⟨rfl, rfl⟩ := Prod.mk.inj (Except.ok.inj lookedUp)
            split at closed
            case h_1 => cases closed
            case h_2 c last closing =>
              split at closed
              case isFalse => cases closed
              case isTrue isClosing =>
                obtain ⟨rfl, rfl⟩ := Prod.mk.inj (Except.ok.inj closed)
                subst isClosing
                have before := colonAfter_eq_ok_iff.mp separated
                have ending := spaces_of_skipSpace closing
                have null := unit_eq_ok_iff.mp absent
                exact ⟨_, .object [(name, .null)], spaces,
                  .object (.first keySpaces (.pair quoted before null (.null _)) (.close ending)),
                  named found (.inr rfl)⟩
  complete := by
    intro text start rest v spaces stands delimited sound
    obtain ⟨name, mem, spells⟩ : ∃ name ∈ names.map (·.1), v.Spells name := by
      by_contra none
      simp only [not_exists, not_and] at none
      exact sound (.oneOf none)
    obtain ⟨x, found⟩ := exists_lookup mem
    refine ⟨x, ?_⟩
    rcases spells with rfl | rfl
    · cases stands with
      | string quoted =>
        have read := stringBody_eq_ok_iff.mpr quoted
        simp only [Reader.variant, spaces.skipSpace_cons (b := quote) rfl, if_true, read, bind,
          Except.bind, found]
    · cases stands with
      | object inner =>
        cases inner with
        | first keySpaces entry others =>
          cases entry with
          | pair quoted before nullSpaces null =>
            cases null with
            | null =>
              cases others with
              | close ending =>
                have key := onlyKey_eq_ok_iff.mpr ⟨_, keySpaces, quoted⟩
                have separated := colonAfter_eq_ok_iff.mpr before
                have absent := unit_eq_ok_iff.mpr nullSpaces
                simp only [Reader.variant, spaces.skipSpace_cons (b := openBrace) rfl, key, bind,
                  Except.bind, found, separated, absent,
                  ending.skipSpace_cons (b := closeBrace) rfl]
                rfl

/-- A value that is absent is written as `null`. -/
theorem exact_optional {α : Type} {value : Reader α} {shape : Shape} {kind : Tree → α → Prop}
    (exact : value.Exact shape kind) :
    (Reader.optional value).Exact (.optional shape) (Tree.IsOptional kind) where
  sound := by
    intro text rest x taken
    rw [Reader.optional] at taken
    split at taken
    case h_1 => cases taken
    case h_2 b more front =>
      have spaces := spaces_of_skipSpace front
      split at taken
      case isTrue isN =>
        obtain ⟨_, lettersTaken, built⟩ := map_eq_ok_iff.mp taken
        cases built
        obtain rfl := letters_eq_ok_iff.mp lettersTaken
        subst isN
        refine ⟨_, .null, spaces, .null _, ?_, rfl⟩
        intro flawed
        cases flawed with
        | optional present => exact present rfl
      case isFalse noN =>
        obtain ⟨⟨y, behind⟩, read, built⟩ := map_eq_ok_iff.mp taken
        cases built
        obtain ⟨start, v, blank, stands, sound, described⟩ := exact.sound read
        have opened := stands.skipSpace_eq (spaces.trans blank)
        rw [front] at opened
        subst opened
        have present : v ≠ .null := by
          rintro rfl
          obtain ⟨_, _, same, opens⟩ := stands.opens
          exact noN ((List.cons.inj same).1.trans opens)
        refine ⟨_, v, spaces, stands, ?_, present, described⟩
        intro flawed
        cases flawed with
        | optional _ flawed => exact sound flawed
  complete := by
    intro text start rest v spaces stands delimited sound
    by_cases absent : v = .null
    · subst absent
      cases stands with
      | null =>
        refine ⟨none, ?_⟩
        rw [Reader.optional, spaces.skipSpace_cons rfl]
        rfl
    · have unflawed : ¬Flawed shape v := fun flawed => sound (.optional absent flawed)
      obtain ⟨x, read⟩ := exact.complete (.none start) stands delimited unflawed
      obtain ⟨b, more, rfl, opens⟩ := stands.opens
      have noN : b ≠ letter 'n' := fun isN => absent (opens.eq_null isN)
      refine ⟨some x, ?_⟩
      rw [Reader.optional, stands.skipSpace_eq spaces]
      simp only [if_neg noN, read]
      rfl

section
variable {α : Type} {element : Reader α} {shape : Shape} {kind : Tree → α → Prop}
  (exact : element.Exact shape kind)
include exact

theorem elements_of_elementsWithin {fuel : Nat} {first : Bool} {text behind rest : Bytes}
    {xs : List α} (taken : elementsWithin element fuel first text = .ok (xs, behind))
    (closed : closeArray behind = .ok rest) :
    ∃ values, Elements first text values rest ∧ (∀ v ∈ values, ¬Flawed shape v) ∧
      List.Forall₂ kind values xs := by
  induction fuel generalizing first text xs with
  | zero => cases taken
  | succ fuel ih =>
    rw [elementsWithin] at taken
    split at taken
    case h_1 => cases taken
    case h_2 ended next =>
      cases taken
      obtain ⟨last, rfl, spaces⟩ := closing_of_nextElement next
      have ending := closeArray_eq_ok_iff.mp closed
      exact ⟨[], .close (spaces.trans ending), nofun, .nil⟩
    case h_3 start next =>
      split at taken
      case h_1 => cases taken
      case h_2 x middle read =>
        split at taken
        case h_1 => cases taken
        case h_2 more last further =>
          cases taken
          obtain ⟨front, v, spaces, stands, sound, described⟩ := exact.sound read
          obtain ⟨values, others, unflawed, described'⟩ := ih further
          exact ⟨v :: values, .cons next spaces stands others,
            List.forall_mem_cons.mpr ⟨sound, unflawed⟩, .cons described described'⟩

theorem elementsWithin_of_elements {fuel : Nat} {first : Bool} {text rest : Bytes}
    {values : List Tree} (elements : Elements first text values rest)
    (enough : values.length < fuel) (unflawed : ∀ v ∈ values, ¬Flawed shape v) :
    ∃ xs, elementsWithin element fuel first text = .ok (xs, closeBracket :: rest) := by
  induction values generalizing fuel first text with
  | nil =>
    cases fuel with
    | zero => cases enough
    | succ fuel =>
      refine ⟨[], ?_⟩
      rw [elementsWithin, elements.nextElement_nil]
  | cons v values ih =>
    cases fuel with
    | zero => cases enough
    | succ fuel =>
      obtain ⟨start, behind, next, stands, others⟩ := elements.nextElement_cons
      obtain ⟨sound, later⟩ := List.forall_mem_cons.mp unflawed
      obtain ⟨x, read⟩ := exact.complete (.none start) stands others.delimited sound
      obtain ⟨xs, further⟩ := ih others (Nat.lt_of_succ_lt_succ enough) later
      refine ⟨x :: xs, ?_⟩
      rw [elementsWithin, next]
      simp only [read, further]

theorem exact_list : (Reader.list element).Exact (.list shape) (Tree.IsList kind) where
  sound := by
    intro text rest xs taken
    rw [Reader.list] at taken
    split at taken
    case h_1 => cases taken
    case h_2 b more front =>
      split at taken
      case isFalse => exact absurd taken mismatch_ne_ok
      case isTrue isOpen =>
        subst isOpen
        split at taken
        case h_1 => cases taken
        case h_2 found behind within =>
          obtain ⟨last, closed, built⟩ := map_eq_ok_iff.mp taken
          cases built
          obtain ⟨values, elements, unflawed, described⟩ :=
            elements_of_elementsWithin exact within closed
          refine ⟨_, .array values, spaces_of_skipSpace front, .array elements, ?_, values, rfl,
            described⟩
          intro flawed
          cases flawed with
          | noList other => exact other values rfl
          | element there flawed => exact unflawed _ there flawed
  complete := by
    intro text start rest v spaces stands delimited sound
    obtain ⟨values, rfl⟩ : ∃ values, v = .array values := by
      by_contra none
      exact sound (.noList (not_exists.mp none))
    have unflawed : ∀ v ∈ values, ¬Flawed shape v :=
      fun v there flawed => sound (.element there flawed)
    cases stands with
    | @array more _ _ inner =>
      have shorter := inner.shorter
      have enough : values.length < more.length + 1 := by omega
      obtain ⟨xs, within⟩ := elementsWithin_of_elements exact inner enough unflawed
      refine ⟨xs, ?_⟩
      rw [Reader.list, spaces.skipSpace_cons rfl]
      simp only [if_true, within]
      rfl

end

end Reader

end LinkGate.Json
