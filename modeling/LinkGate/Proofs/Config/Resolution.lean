import LinkGate.Config.Resolution
import LinkGate.Proofs.Outcome
import LinkGate.Proofs.Text.BooleanWord
import LinkGate.Proofs.Text.WellFormed

/-!
# What a link configuration resolves to

`Resolves` says, without running anything, what comes of a document, an environment and the settings
that were asked for: the first fault in reading order, or the configuration in which each setting
has the value of the last source that gives one.  It has one constructor for each way to end, and
`resolve_exactly` says that a resolution ends in this way and in no other.
-/

set_option autoImplicit false

namespace LinkGate.LinkConfig

/-! ## The environment -/

section
variable (environment : String → Option Bytes)

def Setting.SetTo (setting : Setting) (word : String) : Prop :=
  environment setting.environmentName = some (Utf8.encode word)

/-- What a readable variable says.  One that is set to bytes without a text is as good as unset, one
that is set to the empty text is not. -/
inductive Setting.Says (setting : Setting) : Option Bool → Prop where
  | nothing (unset : ∀ word, ¬setting.SetTo environment word) : Says setting none
  | value {word : String} {value : Bool} (set : setting.SetTo environment word)
    (spelt : Spells (trim word) value) : Says setting (some value)

/-- The variable is set to a text that stands for no value; `shown` is the text without the blanks
around it. -/
def Setting.Misspelt (setting : Setting) (shown : String) : Prop :=
  ∃ word, setting.SetTo environment word ∧ trim word = shown ∧ ∀ value, ¬Spells shown value

/-- The settings that are read before this one. -/
def Setting.before (setting : Setting) : List Setting :=
  Setting.all.takeWhile (· != setting)

structure FirstMisspelt (setting : Setting) (shown : String) : Prop where
  misspelt : setting.Misspelt environment shown
  earlier : ∀ s ∈ setting.before, ∃ said, s.Says environment said

end

section
variable {environment : String → Option Bytes} {setting : Setting} {error : ConfigError}

theorem variable_text_eq_some_iff {word : String} :
    (environment setting.environmentName).bind Utf8.decode? = some word ↔
      setting.SetTo environment word := by
  rw [Option.bind_eq_some_iff, Setting.SetTo]
  constructor
  · rintro ⟨bytes, set, decoded⟩
    rw [set, Utf8.decode?_eq_some_iff.mp decoded]
  · intro set
    exact ⟨_, set, Utf8.decode?_encode word⟩

theorem variable_text_eq_none_iff :
    (environment setting.environmentName).bind Utf8.decode? = none ↔
      ∀ word, ¬setting.SetTo environment word := by
  simp only [Option.eq_none_iff_forall_ne_some, ne_eq, variable_text_eq_some_iff]

theorem Setting.ofEnvironment_iff :
    (∀ said, Setting.ofEnvironment environment setting = .ok said ↔
      setting.Says environment said) ∧
    ∀ error, Setting.ofEnvironment environment setting = .error error ↔
      ∃ shown, setting.Misspelt environment shown ∧ error = .notBoolean setting shown := by
  refine result_iff ?_ ?_ ?_
  · rintro _ (unset | ⟨set, spelt⟩)
    · simp only [Setting.ofEnvironment, variable_text_eq_none_iff.mpr unset]
    · simp only [Setting.ofEnvironment, variable_text_eq_some_iff.mpr set,
        booleanWord?_eq_some_iff.mpr spelt]
  · rintro _ ⟨_, ⟨word, set, rfl, misspelt⟩, rfl⟩
    simp only [Setting.ofEnvironment, variable_text_eq_some_iff.mpr set,
      booleanWord?_eq_none_iff.mpr misspelt]
  · by_cases set : ∃ word, setting.SetTo environment word
    · obtain ⟨word, set⟩ := set
      by_cases spelt : ∃ value, Spells (trim word) value
      · obtain ⟨value, spelt⟩ := spelt
        exact .inl ⟨_, .value set spelt⟩
      · exact .inr ⟨_, _, ⟨word, set, rfl, not_exists.mp spelt⟩, rfl⟩
    · exact .inl ⟨none, .nothing (not_exists.mp set)⟩

theorem Overrides.ofEnvironment_eq_ok_iff {said : Overrides} :
    Overrides.ofEnvironment environment = .ok said ↔
      ∀ s : Setting, s.Says environment (said.get? s) := by
  simp only [Overrides.ofEnvironment, bind_eq_ok_iff, Setting.ofEnvironment_iff.1]
  constructor
  · rintro ⟨_, multithreading, _, virtualThreads, _, continuations, _, checkFeatures, built⟩
    cases built
    rintro (_ | _ | _ | _) <;> assumption
  · intro all
    exact ⟨_, all .multithreading, _, all .virtualThreads, _, all .continuations,
      _, all .checkFeatures, rfl⟩

theorem Overrides.ofEnvironment_eq_error_iff :
    Overrides.ofEnvironment environment = .error error ↔
      ∃ setting shown, FirstMisspelt environment setting shown ∧
        error = .notBoolean setting shown := by
  simp only [Overrides.ofEnvironment, bind_eq_error_iff, Setting.ofEnvironment_iff.1,
    Setting.ofEnvironment_iff.2]
  -- The settings are read in turn, so each fault comes with what those before it said.
  constructor
  · rintro (⟨shown, misspelt, rfl⟩ | ⟨_, first, ⟨shown, misspelt, rfl⟩ |
      ⟨_, second, ⟨shown, misspelt, rfl⟩ | ⟨_, third, ⟨shown, misspelt, rfl⟩ |
      ⟨_, fourth, impossible⟩⟩⟩⟩)
    · refine ⟨.multithreading, shown, ⟨misspelt, ?_⟩, rfl⟩
      simp [Setting.before, Setting.all]
    · refine ⟨.virtualThreads, shown, ⟨misspelt, ?_⟩, rfl⟩
      simpa [Setting.before, Setting.all] using ⟨_, first⟩
    · refine ⟨.continuations, shown, ⟨misspelt, ?_⟩, rfl⟩
      simpa [Setting.before, Setting.all] using ⟨⟨_, first⟩, _, second⟩
    · refine ⟨.checkFeatures, shown, ⟨misspelt, ?_⟩, rfl⟩
      simpa [Setting.before, Setting.all] using ⟨⟨_, first⟩, ⟨_, second⟩, _, third⟩
    · cases impossible
  · rintro ⟨setting, shown, ⟨misspelt, earlier⟩, rfl⟩
    cases setting <;> simp [Setting.before, Setting.all] at earlier
    case multithreading => exact .inl ⟨shown, misspelt, rfl⟩
    case virtualThreads =>
      obtain ⟨_, first⟩ := earlier
      exact .inr ⟨_, first, .inl ⟨shown, misspelt, rfl⟩⟩
    case continuations =>
      obtain ⟨⟨_, first⟩, _, second⟩ := earlier
      exact .inr ⟨_, first, .inr ⟨_, second, .inl ⟨shown, misspelt, rfl⟩⟩⟩
    case checkFeatures =>
      obtain ⟨⟨_, first⟩, ⟨_, second⟩, _, third⟩ := earlier
      exact .inr ⟨_, first, .inr ⟨_, second, .inr ⟨_, third, .inl ⟨shown, misspelt, rfl⟩⟩⟩⟩

end

/-! ## The document -/

section
variable (world : World)

inductive DocumentFails : Option Path → ConfigError → Prop where
  | unread {path : Path} {error : IoError} (read : world.read path = .error error) :
    DocumentFails (some path) (.unread path error)
  | unreadable {path : Path} {text : Bytes} {error : Json.ReadError}
    (read : world.read path = .ok text) (parsed : record.reader.run text = .error error) :
    DocumentFails (some path) (.unreadable path error)
  | foreignSchema {path : Path} {text : Bytes} {found : String} {given : Overrides}
    (read : world.read path = .ok text) (parsed : record.reader.run text = .ok (found, given))
    (foreign : trim found ≠ "nbridge.link-config@0.1.0") :
    DocumentFails (some path) (.foreignSchema path found)

inductive DocumentGives : Option Path → Overrides → Prop where
  | absent : DocumentGives none {}
  | found {path : Path} {text : Bytes} {version : String} {given : Overrides}
    (read : world.read path = .ok text) (parsed : record.reader.run text = .ok (version, given))
    (own : trim version = "nbridge.link-config@0.1.0") : DocumentGives (some path) given

end

section
variable {world : World} {path : Option Path}

theorem Overrides.ofPath_iff :
    (∀ given, Overrides.ofPath world path = .ok given ↔ DocumentGives world path given) ∧
      ∀ error, Overrides.ofPath world path = .error error ↔ DocumentFails world path error := by
  refine result_iff ?_ ?_ ?_
  · rintro _ (_ | ⟨read, parsed, own⟩)
    · rfl
    · have own : trim _ = schema := own
      simp [Overrides.ofPath, Overrides.ofDocument, Overrides.read, read, parsed, own]
  · rintro _ (read | ⟨read, parsed⟩ | ⟨read, parsed, foreign⟩)
    · simp [Overrides.ofPath, read]
    · simp [Overrides.ofPath, Overrides.ofDocument, Overrides.read, read, parsed]
    · have foreign : trim _ ≠ schema := foreign
      simp [Overrides.ofPath, Overrides.ofDocument, Overrides.read, read, parsed, foreign]
  · cases path with
    | none => exact .inl ⟨_, .absent⟩
    | some path =>
      cases read : world.read path with
      | error error => exact .inr ⟨_, .unread read⟩
      | ok text =>
        cases parsed : record.reader.run text with
        | error error => exact .inr ⟨_, .unreadable read parsed⟩
        | ok result =>
          by_cases own : trim result.1 = "nbridge.link-config@0.1.0"
          · exact .inl ⟨_, .found read parsed own⟩
          · exact .inr ⟨_, .foreignSchema read parsed own⟩

end

/-! ## The merged configuration -/

/-- What holds where no source says anything. -/
def Setting.compiled : Setting → Bool
  | .multithreading | .virtualThreads | .continuations => false
  | .checkFeatures => true

/-- Each setting has the value of the last source that gives one. -/
def Layered (file environment given : Overrides) (config : LinkConfig) : Prop :=
  ∀ s, config.get s =
    ((given.get? s).or ((environment.get? s).or (file.get? s))).getD s.compiled

inductive Faulty (config : LinkConfig) : Inconsistency → Prop where
  | withoutContinuations (wanted : config.virtualThreads = true)
    (missing : config.continuations = false) : Faulty config .withoutContinuations
  | withoutThreads (wanted : config.virtualThreads = true) (built : config.continuations = true)
    (missing : config.multithreading = false) : Faulty config .withoutThreads

def Consistent (config : LinkConfig) : Prop :=
  config.virtualThreads = true → config.continuations = true ∧ config.multithreading = true

theorem eq_of_get {config other : LinkConfig} (same : ∀ s, config.get s = other.get s) :
    config = other := by
  obtain ⟨multithreading, virtualThreads, continuations, checkFeatures⟩ := config
  obtain ⟨multithreading', virtualThreads', continuations', checkFeatures'⟩ := other
  rw [LinkConfig.mk.injEq]
  exact ⟨same .multithreading, same .virtualThreads, same .continuations, same .checkFeatures⟩

@[simp] theorem get_override (config : LinkConfig) (given : Overrides) (s : Setting) :
    (config.override given).get s = (given.get? s).getD (config.get s) := by
  cases s <;> rfl

@[simp] theorem get_standard (s : Setting) : standard.get s = s.compiled := by
  cases s <;> rfl

theorem layered_iff {file environment given : Overrides} {config : LinkConfig} :
    Layered file environment given config ↔
      ((standard.override file).override environment).override given = config := by
  have merged : Layered file environment given
      (((standard.override file).override environment).override given) := by
    intro s
    simp only [get_override, get_standard]
    cases given.get? s <;> cases environment.get? s <;> rfl
  constructor
  · intro layered
    exact eq_of_get fun s => (merged s).trans (layered s).symm
  · rintro rfl
    exact merged

theorem checked_iff {config : LinkConfig} :
    (∀ result, checked config = .ok result ↔ config = result ∧ Consistent result) ∧
      ∀ error, checked config = .error error ↔
        ∃ fault, Faulty config fault ∧ error = .inconsistent fault := by
  refine result_iff ?_ ?_ ?_
  · rintro _ ⟨rfl, consistent⟩
    have sound : config.inconsistency? = none := by
      rw [inconsistency?, if_neg fun alone => alone.2 (consistent alone.1).1,
        if_neg fun alone => alone.2 (consistent alone.1).2]
    rw [checked, sound]
  · rintro _ ⟨_, ⟨wanted, missing⟩ | ⟨wanted, built, missing⟩, rfl⟩
    · simp [checked, inconsistency?, wanted, missing]
    · simp [checked, inconsistency?, wanted, built, missing]
  · by_cases consistent : config.Consistent
    · exact .inl ⟨config, rfl, consistent⟩
    · have wanted : config.virtualThreads = true := by
        simp_all [Consistent]
      cases built : config.continuations with
      | false => exact .inr ⟨_, _, .withoutContinuations wanted built, rfl⟩
      | true =>
        have missing : config.multithreading = false := by
          simpa [Consistent, wanted, built] using consistent
        exact .inr ⟨_, _, .withoutThreads wanted built missing, rfl⟩

/-! ## The resolution -/

section
variable (world : World) (path : Option Path) (given : Overrides)

def Merged (config : LinkConfig) : Prop :=
  ∃ file environment : Overrides, DocumentGives world path file ∧
    (∀ s : Setting, s.Says world.environment (environment.get? s)) ∧
    Layered file environment given config

inductive Resolves : Except ConfigError LinkConfig → Prop where
  | noDocument {error : ConfigError} (fails : DocumentFails world path error) :
    Resolves (.error error)
  /-- Whatever was asked for on the command line. -/
  | misspelt {file : Overrides} {setting : Setting} {shown : String}
    (document : DocumentGives world path file)
    (first : FirstMisspelt world.environment setting shown) :
    Resolves (.error (.notBoolean setting shown))
  | inconsistent {config : LinkConfig} {fault : Inconsistency}
    (merged : Merged world path given config) (faulty : Faulty config fault) :
    Resolves (.error (.inconsistent fault))
  | resolved {config : LinkConfig} (merged : Merged world path given config)
    (consistent : Consistent config) : Resolves (.ok config)

end

section
variable {world : World} {path : Option Path} {given : Overrides}

theorem Merged.resolve_eq {config : LinkConfig} (merged : Merged world path given config) :
    resolve world path given = checked config := by
  obtain ⟨file, environment, document, said, layered⟩ := merged
  have files := (Overrides.ofPath_iff.1 file).mpr document
  have settings := Overrides.ofEnvironment_eq_ok_iff.mpr said
  rw [layered_iff] at layered
  simp only [resolve, files, bind, Except.bind, settings, layered]

theorem Resolves.resolve_eq {outcome : Except ConfigError LinkConfig}
    (resolves : Resolves world path given outcome) : resolve world path given = outcome := by
  cases resolves with
  | noDocument fails =>
    have files := (Overrides.ofPath_iff.2 _).mpr fails
    simp only [resolve, files, bind, Except.bind]
  | misspelt document first =>
    have files := (Overrides.ofPath_iff.1 _).mpr document
    have settings := Overrides.ofEnvironment_eq_error_iff.mpr ⟨_, _, first, rfl⟩
    simp only [resolve, files, bind, Except.bind, settings]
  | inconsistent merged faulty =>
    rw [merged.resolve_eq]
    exact (checked_iff.2 _).mpr ⟨_, faulty, rfl⟩
  | resolved merged consistent =>
    rw [merged.resolve_eq]
    exact (checked_iff.1 _).mpr ⟨rfl, consistent⟩

theorem exists_resolves (world : World) (path : Option Path) (given : Overrides) :
    ∃ outcome, Resolves world path given outcome := by
  cases files : Overrides.ofPath world path with
  | error error => exact ⟨_, .noDocument ((Overrides.ofPath_iff.2 error).mp files)⟩
  | ok file =>
    have document := (Overrides.ofPath_iff.1 file).mp files
    cases settings : Overrides.ofEnvironment world.environment with
    | error error =>
      obtain ⟨setting, shown, first, -⟩ := Overrides.ofEnvironment_eq_error_iff.mp settings
      exact ⟨_, .misspelt document first⟩
    | ok environment =>
      have said := Overrides.ofEnvironment_eq_ok_iff.mp settings
      have merged : Merged world path given _ :=
        ⟨file, environment, document, said, layered_iff.mpr rfl⟩
      cases result : checked (((standard.override file).override environment).override given) with
      | error error =>
        obtain ⟨fault, faulty, -⟩ := (checked_iff.2 error).mp result
        exact ⟨_, .inconsistent merged faulty⟩
      | ok config =>
        obtain ⟨rfl, consistent⟩ := (checked_iff.1 config).mp result
        exact ⟨_, .resolved merged consistent⟩

theorem resolve_iff {outcome : Except ConfigError LinkConfig} :
    resolve world path given = outcome ↔ Resolves world path given outcome := by
  refine ⟨?_, Resolves.resolve_eq⟩
  rintro rfl
  obtain ⟨outcome, resolves⟩ := exists_resolves world path given
  exact resolves.resolve_eq ▸ resolves

end

theorem resolve_exactly (world : World) (path : Option Path) (given : Overrides) :
    (∀ outcome, resolve world path given = outcome ↔ Resolves world path given outcome) ∧
      ∀ config, resolve world path given = .ok config → config.Consistent := by
  refine ⟨fun _ => resolve_iff, fun config resolved => ?_⟩
  cases resolve_iff.mp resolved with
  | resolved _ consistent => exact consistent

/-- A misspelt variable counts even where its setting is asked for outright. -/
example :
    resolve ⟨fun _ => .error .missing, fun name =>
        if name = "NBRIDGE_CHECK_FEATURES" then some (Utf8.encode " Maybe\t") else none⟩
      none { checkFeatures := some true } = .error (.notBoolean .checkFeatures "Maybe") :=
  rfl

end LinkGate.LinkConfig
