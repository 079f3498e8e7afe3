import LinkGate.Config.Resolution
import LinkGate.Proofs.Json.RecordReaders
import LinkGate.Proofs.Text.Trimmed

/-!
# Which texts are link configurations

`Gives text version given` says what a configuration document is: an object that names its schema
and has for each setting a boolean, `null` or nothing, and no other member.  A text that is no array
is read exactly when it gives the settings under the one schema that is known.  Under another schema
the schema is the error, and whatever gives nothing at all is unreadable.
-/

set_option autoImplicit false

namespace LinkGate.LinkConfig

open Json

/-- The members name the schema `version`, and the settings they hold a boolean for are those of
`given`. -/
structure Declares (members : List (String × Tree)) (version : String) (given : Overrides) :
    Prop where
  unique : (members.map (·.1)).Nodup
  schema : ("schema_version", .string version) ∈ members
  others : ∀ member ∈ members, member.1 ≠ "schema_version" → ∃ setting : Setting,
    member.1 = setting.key ∧ (member.2 = .null ∨ ∃ value, member.2 = .bool value)
  given : ∀ (setting : Setting) (value : Bool),
    given.get? setting = some value ↔ (setting.key, .bool value) ∈ members

/-- A text that is such an object and nothing else. -/
def Gives (text : Bytes) (version : String) (given : Overrides) : Prop :=
  ∃ members, Document text (.object members) ∧ Declares members version given

/-! ## The record -/

namespace Slots

def get (slots : Slots) : Setting → Option (Option Bool)
  | .multithreading => slots.multithreading
  | .virtualThreads => slots.virtualThreads
  | .continuations => slots.continuations
  | .checkFeatures => slots.checkFeatures

def set (slots : Slots) (value : Option Bool) : Setting → Slots
  | .multithreading => { slots with multithreading := some value }
  | .virtualThreads => { slots with virtualThreads := some value }
  | .continuations => { slots with continuations := some value }
  | .checkFeatures => { slots with checkFeatures := some value }

theorem get_set (slots : Slots) (value : Option Bool) (setting : Setting) :
    (slots.set value setting).get setting = some value := by
  cases setting <;> rfl

end Slots

def schemaSlot : Slot Slots :=
  .of "schema_version" true Reader.exact_string (·.schemaVersion)
    (fun s x => { s with schemaVersion := some x }) fun _ _ => rfl

def settingSlot (setting : Setting) : Slot Slots :=
  .of setting.key false (Reader.exact_optional Reader.exact_boolean) (·.get setting)
    (fun s x => s.set x setting) fun s x => s.get_set x setting

def layout : List (Slot Slots) :=
  schemaSlot :: Setting.all.map settingSlot

def shape : Shape :=
  .record (("schema_version", true, .text) ::
    Setting.all.map fun setting => (setting.key, false, .optional .flag))

theorem shape_eq : shape = .record (layout.map Slot.expected) :=
  rfl

structure Describes (v : Tree) (said : String × Overrides) : Prop where
  schemaVersion : Tree.Gives (v.parts shape.keys) "schema_version" Tree.IsText said.1
  given : ∀ setting : Setting, Tree.GivesOr (v.parts shape.keys) setting.key
    (Tree.IsOptional Tree.IsFlag) none (said.2.get? setting)

theorem Setting.mem_all (setting : Setting) : setting ∈ Setting.all := by
  cases setting <;> decide

theorem Setting.key_ne_schema (setting : Setting) : setting.key ≠ "schema_version" := by
  cases setting <;> decide

theorem settingSlot_apart {setting other : Setting} (different : setting ≠ other) :
    (settingSlot setting).Apart (settingSlot other) := by
  cases setting <;> cases other <;> first
    | exact absurd rfl different
    | exact ⟨by decide, fun _ _ => rfl, fun _ _ => rfl⟩

theorem schemaSlot_apart (setting : Setting) : schemaSlot.Apart (settingSlot setting) := by
  cases setting <;> exact ⟨by decide, fun _ _ => rfl, fun _ _ => rfl⟩

theorem mem_layout {slot : Slot Slots} :
    slot ∈ layout ↔ slot = schemaSlot ∨ ∃ setting, slot = settingSlot setting := by
  rw [layout, List.mem_cons, List.mem_map]
  constructor
  · rintro (rfl | ⟨setting, -, rfl⟩)
    · exact .inl rfl
    · exact .inr ⟨setting, rfl⟩
  · rintro (rfl | ⟨setting, rfl⟩)
    · exact .inl rfl
    · exact .inr ⟨setting, setting.mem_all, rfl⟩

theorem laid : Layout record layout where
  fields := rfl
  strict := rfl
  apart := by
    rw [layout, List.pairwise_cons, List.forall_mem_map, List.pairwise_map]
    have different : Setting.all.Nodup := by decide
    exact ⟨fun setting _ => schemaSlot_apart setting, different.imp settingSlot_apart⟩
  empty := by
    intro slot member
    rcases mem_layout.mp member with rfl | ⟨setting, rfl⟩
    · rfl
    · cases setting <;> rfl

theorem exact : record.reader.Exact shape Describes :=
  laid.exact_record fun _ slots filled complete => {
    schemaVersion := filled.gives (.head _) (complete _ (.head _) rfl) ""
    given := by
      intro setting
      have held : ((record.build slots).2.get? setting) =
          ((settingSlot setting).get slots).getD none := by
        cases setting <;> rfl
      rw [held]
      exact filled.givesOr (mem_layout.mpr (.inr ⟨setting, rfl⟩)) none }

/-! ## What the members say -/

section
variable {members : List (String × Tree)} {version other : String} {given said : Overrides}

theorem unflawed_setting_iff {v : Tree} :
    ¬Flawed (.optional .flag) v ↔ v = .null ∨ ∃ value, v = .bool value := by
  constructor
  · intro sound
    by_contra neither
    rw [not_or, not_exists] at neither
    exact sound (.optional neither.1 (.flag neither.2))
  · rintro sound flawed
    cases flawed with
    | optional present flawed =>
      cases flawed with
      | flag noFlag =>
        rcases sound with null | ⟨value, flag⟩
        · exact present null
        · exact noFlag value flag

theorem Declares.lookup_schema (declares : Declares members version given) :
    members.lookup "schema_version" = some (.string version) :=
  lookup_of_mem declares.unique declares.schema

theorem Declares.clean (declares : Declares members version given) : Clean layout members where
  declared := by
    rintro ⟨key, v⟩ member
    by_cases isSchema : key = "schema_version"
    · subst isSchema
      have same := (lookup_of_mem declares.unique member).symm.trans declares.lookup_schema
      obtain rfl := Option.some.inj same
      refine ⟨schemaSlot, mem_layout.mpr (.inl rfl), rfl, fun flawed => ?_⟩
      cases flawed with
      | text noText => exact noText version rfl
    · obtain ⟨setting, named, sound⟩ := declares.others _ member isSchema
      exact ⟨settingSlot setting, mem_layout.mpr (.inr ⟨setting, rfl⟩), named.symm,
        unflawed_setting_iff.mpr sound⟩
  unique := declares.unique

theorem Declares.unflawed (declares : Declares members version given) :
    ¬Flawed shape (.object members) := by
  refine unflawed_of_clean declares.clean laid.apart ?_ (.inl ⟨members, rfl⟩)
  intro slot member required
  rcases mem_layout.mp member with rfl | ⟨setting, rfl⟩
  · exact List.mem_map_of_mem declares.schema
  · cases required

theorem Declares.describes (declares : Declares members version given) :
    Describes (.object members) (version, given) where
  schemaVersion := ⟨_, declares.lookup_schema, rfl⟩
  given := by
    intro setting
    rw [Tree.GivesOr, Tree.parts]
    -- The value of a setting is the one found under its key, as no key is there twice.
    have found {value : Bool} (some : given.get? setting = some value) :
        members.lookup setting.key = .some (.bool value) :=
      lookup_of_mem declares.unique ((declares.given setting value).mp some)
    cases held : members.lookup setting.key with
    | none =>
      cases value : given.get? setting with
      | none => rfl
      | some value => cases (found value).symm.trans held
    | some v =>
      have there := mem_of_lookup held
      obtain ⟨-, -, rfl | ⟨value, rfl⟩⟩ := declares.others _ there setting.key_ne_schema
      · cases value : given.get? setting with
        | none => rfl
        | some value => cases (found value).symm.trans held
      · rw [(declares.given setting value).mpr there]
        exact ⟨Tree.noConfusion, rfl⟩

theorem declares_of_describes (sound : ¬Flawed shape (.object members))
    (described : Describes (.object members) (version, given)) :
    Declares members version given := by
  rw [shape_eq] at sound
  obtain ⟨clean, -⟩ := clean_of_unflawed sound
  have distinct : (members.map (·.1)).Nodup := clean.unique
  obtain ⟨v, found, rfl⟩ := described.schemaVersion
  refine ⟨distinct, mem_of_lookup found, ?_, ?_⟩
  · intro member there noSchema
    obtain ⟨slot, listed, named, valued⟩ := clean.declared member there
    rcases mem_layout.mp listed with rfl | ⟨setting, rfl⟩
    · exact absurd named.symm noSchema
    · exact ⟨setting, named.symm, unflawed_setting_iff.mp valued⟩
  · intro setting value
    have held := described.given setting
    rw [Tree.GivesOr, Tree.parts] at held
    constructor
    · intro some
      rw [some] at held
      cases found : members.lookup setting.key with
      | none => simp [found] at held
      | some v =>
        simp only [found] at held
        obtain ⟨-, rfl⟩ := held
        exact mem_of_lookup found
    · intro there
      rw [lookup_of_mem distinct there] at held
      cases some : given.get? setting with
      | none => simp [some, Tree.IsOptional] at held
      | some other =>
        simp only [some] at held
        obtain ⟨-, same⟩ := held
        cases same
        rfl

theorem declares_iff : Declares members version given ↔
    ¬Flawed shape (.object members) ∧ Describes (.object members) (version, given) :=
  ⟨fun declares => ⟨declares.unflawed, declares.describes⟩,
    fun ⟨sound, described⟩ => declares_of_describes sound described⟩

theorem Overrides.eq_of_get? (same : ∀ setting, given.get? setting = said.get? setting) :
    given = said := by
  obtain ⟨multithreading, virtualThreads, continuations, checkFeatures⟩ := given
  obtain ⟨multithreading', virtualThreads', continuations', checkFeatures'⟩ := said
  rw [Overrides.mk.injEq]
  exact ⟨same .multithreading, same .virtualThreads, same .continuations, same .checkFeatures⟩

theorem Declares.eq (declares : Declares members version given)
    (again : Declares members other said) : version = other ∧ given = said := by
  refine ⟨?_, Overrides.eq_of_get? fun setting => Option.ext fun value => ?_⟩
  · have same := declares.lookup_schema.symm.trans again.lookup_schema
    exact Tree.string.inj (Option.some.inj same)
  · rw [declares.given, again.given]

end

/-! ## Whole texts -/

section
variable {text : Bytes} {version other : String} {given said : Overrides}

theorem Gives.eq (gives : Gives text version given) (again : Gives text other said) :
    version = other ∧ given = said := by
  obtain ⟨members, document, declares⟩ := gives
  obtain ⟨members', document', declares'⟩ := again
  obtain rfl := Tree.object.inj (document.unique document')
  exact declares.eq declares'

theorem gives_of_run (noArray : ∀ values, ¬Document text (.array values))
    (taken : record.reader.run text = .ok (version, given)) : Gives text version given := by
  obtain ⟨v, document, sound, described⟩ := exact.document_of_run taken
  cases v with
  | object members => exact ⟨members, document, declares_iff.mpr ⟨sound, described⟩⟩
  | array values => exact absurd document (noArray values)
  | null => exact absurd (.noRecord nofun nofun) sound
  | bool => exact absurd (.noRecord nofun nofun) sound
  | number => exact absurd (.noRecord nofun nofun) sound
  | string => exact absurd (.noRecord nofun nofun) sound

theorem Gives.run_eq (gives : Gives text version given) :
    record.reader.run text = .ok (version, given) := by
  obtain ⟨members, document, declares⟩ := gives
  obtain ⟨result, taken⟩ := exact.run_of_document document declares.unflawed
  have noArray : ∀ values, ¬Document text (.array values) :=
    fun values array => nomatch document.unique array
  obtain ⟨rfl, rfl⟩ := (gives_of_run noArray taken).eq ⟨members, document, declares⟩
  exact taken

variable (path : Path)

theorem Gives.ofDocument_eq (gives : Gives text version given) :
    Overrides.ofDocument path text =
      if trim version = schema then .ok given else .error (.foreignSchema path version) := by
  rw [Overrides.ofDocument, Overrides.read, gives.run_eq]
  by_cases own : trim version = schema
  · simp only [own, if_true]
  · simp only [own, if_false]

theorem unreadable_of_not_gives (noArray : ∀ values, ¬Document text (.array values))
    (none : ∀ version given, ¬Gives text version given) :
    ∃ e, Overrides.ofDocument path text = .error (.unreadable path e) := by
  cases taken : record.reader.run text with
  | ok said => exact absurd (gives_of_run noArray taken) (none said.1 said.2)
  | error e => exact ⟨e, by simp only [Overrides.ofDocument, Overrides.read, taken]⟩

theorem bare_schema : Bare schema := by
  decide +kernel

/-- The three answers tell apart what a text gives: settings under the known schema, settings under
another schema, which is named with the blanks around it, and nothing. -/
theorem ofDocument_exactly (noArray : ∀ values, ¬Document text (.array values)) :
    (∀ given, Overrides.ofDocument path text = .ok given ↔
      ∃ version, Gives text version given ∧ Padded schema version) ∧
    (∀ found, Overrides.ofDocument path text = .error (.foreignSchema path found) ↔
      (∃ given, Gives text found given) ∧ ¬Padded schema found) ∧
    ((∃ e, Overrides.ofDocument path text = .error (.unreadable path e)) ↔
      ∀ version given, ¬Gives text version given) := by
  simp only [bare_schema.padded_iff]
  by_cases readable : ∃ version given, Gives text version given
  · obtain ⟨version, given, gives⟩ := readable
    have only {other : String} {said : Overrides} :
        Gives text other said ↔ other = version ∧ said = given :=
      ⟨fun again => again.eq gives, fun ⟨same, same'⟩ => same ▸ same' ▸ gives⟩
    rw [gives.ofDocument_eq path]
    by_cases own : trim version = schema
    · simp [only, own, eq_comm]
    · have foreign (found : String) : version = found ↔ found = version ∧ trim found ≠ schema := by
        constructor
        · rintro rfl
          exact ⟨rfl, own⟩
        · exact fun same => same.1.symm
      simpa [only, own] using foreign
  · simp only [not_exists] at readable
    obtain ⟨e, failed⟩ := unreadable_of_not_gives path noArray readable
    simp [failed, readable]

end

/-- A text that opens with a brace is no array. -/
theorem no_array_of_brace {text : Bytes} (front : (skipSpace text).head? = some openBrace) :
    ∀ values, ¬Document text (.array values) := by
  rintro values ⟨start, rest, spaces, stands, -⟩
  rw [stands.skipSpace_eq spaces] at front
  cases stands with
  | array => exact absurd (Option.some.inj front) (by decide)

/-- A schema between blanks, a key with an escape in it, and `null`. -/
def paddedText : Bytes :=
  Utf8.encode ("\t\x7b \"check_\\u0066eatures\" : null ,\"schema_version\":" ++
    "\"\\tnbridge.link-config@0.1.0 \",\"multithreading\":true\x7d\n")

def foreignText : Bytes :=
  Utf8.encode "\x7b\"continuations\":false,\"schema_version\":\" nbridge.link-config@9.9.9\"\x7d"

/-- A key that is not known beside a foreign schema. -/
def unknownText : Bytes :=
  Utf8.encode "\x7b\"schema_version\":\"nbridge.link-config@9.9.9\",\"gc\":true\x7d"

theorem ofDocument_exactly_padded :
    (∀ text ∈ [paddedText, foreignText, unknownText], ∀ values, ¬Document text (.array values)) ∧
      (∃ version, Gives paddedText version { multithreading := some true } ∧
        Padded schema version) ∧
      ((∃ given, Gives foreignText " nbridge.link-config@9.9.9" given) ∧
        ¬Padded schema " nbridge.link-config@9.9.9") ∧
      ∀ version given, ¬Gives unknownText version given := by
  have noArray : ∀ text ∈ [paddedText, foreignText, unknownText],
      ∀ values, ¬Document text (.array values) := by
    intro text member
    exact no_array_of_brace ((by decide +kernel : ∀ text ∈ [paddedText, foreignText, unknownText],
      (skipSpace text).head? = some openBrace) text member)
  have padded := ofDocument_exactly ⟨[]⟩ (noArray paddedText (.head _))
  have foreign := ofDocument_exactly ⟨[]⟩ (noArray foreignText (.tail _ (.head _)))
  have unknown := ofDocument_exactly ⟨[]⟩ (noArray unknownText (.tail _ (.tail _ (.head _))))
  refine ⟨noArray, (padded.1 _).mp ?_, (foreign.2.1 _).mp ?_, unknown.2.2.mp ?_⟩
  · decide +kernel
  · decide +kernel
  · exact ⟨⟨.unknownField "gc" record.keys, 1, 50⟩, by decide +kernel⟩

end LinkGate.LinkConfig
