import LinkGate.Main
import LinkGate.Proofs.Config.Resolution

/-!
# Settings by variable and by option

A setting can be given by its environment variable or by its option.  Each has its own table of
words; where the tables hold the same ones, a command line with the option ends as one without it
ends where the variable is set instead.  What is left is a word that is no boolean in front of a
request for help: arguments are read from the first to the last, and the environment is asked after
them, if at all.

Options are read one after the other (`Subcommand.Turn`).  What is read behind an option knows of it
only that it is there, so leaving the option out changes one setting of what is read and nothing
else (`read_assign`).
-/

set_option autoImplicit false

namespace LinkGate

open LinkConfig (Overrides Setting)

/-- The exit code of a command line that runs nothing, and what it prints. -/
def Stop.result : Stop → Nat × String
  | help => (0, helpText)
  | usage => (2, "")

/-- The exit code of a command line, and what it prints. -/
def commandResult (boolish : String → Option Bool) (world : World) (arguments : List Bytes) :
    Nat × String :=
  match Invocation.readWith boolish arguments with
  | .error stop => stop.result
  | .ok invocation => ((invocation.run world).exitCode, (invocation.run world).stdout)

/-- A world in which only the variable of one setting may differ. -/
def World.withVariable (world : World) (s : Setting) (value : Option Bytes) : World where
  read := world.read
  environment name := if name = s.environmentName then value else world.environment name

/-- The option of a setting, with the value in the same argument. -/
def LinkConfig.Setting.argument (s : Setting) (word : String) : Bytes :=
  Argument.dash :: Argument.dash ::
    (Utf8.encode s.optionName ++ Argument.equals :: Utf8.encode word)

/-- No argument is the option of the setting. -/
def LinkConfig.Setting.AbsentFrom (s : Setting) (arguments : List Bytes) : Prop :=
  ∀ text ∈ arguments, ∀ value, Argument.ofBytes text ≠ .long (Utf8.encode s.optionName) value

/-! ## One setting of many -/

/-- What is given, with another word on one setting. -/
def LinkConfig.Overrides.assign (given : Overrides) (s : Setting) (value : Option Bool) :
    Overrides :=
  .ofSettings fun t => if t = s then value else given.get? t

/-- What has been read, with another word on one setting. -/
def Given.assign (given : Given) (s : Setting) (value : Option Bool) : Given :=
  { given with settings := given.settings.assign s value }

section
variable (given : Overrides) (s : Setting)

theorem get?_assign (value : Option Bool) (t : Setting) :
    (given.assign s value).get? t = if t = s then value else given.get? t := by
  cases t <;> rfl

theorem setSetting_eq_assign (value : Bool) :
    Given.setSetting given value s = given.assign s (some value) := by
  cases s <;> rfl

theorem setSetting_assign {t : Setting} (other : t ≠ s) (value : Option Bool) (b : Bool) :
    Given.setSetting (given.assign s value) b t = (Given.setSetting given b t).assign s value := by
  cases s <;> cases t <;> first | rfl | exact absurd rfl other

variable {given s}

/-- Saying nothing on a setting is to leave it open. -/
theorem assign_none_iff : given.assign s none = given ↔ given.get? s = none := by
  constructor
  · intro same
    rw [← same, get?_assign, if_pos rfl]
  · intro silent
    obtain ⟨multithreading, virtualThreads, continuations, checkFeatures⟩ := given
    cases s <;> cases silent <;> rfl

end

/-! ## The environment -/

namespace LinkConfig
variable {s : Setting} {word : String} (world : World) (path : Option Path)

/-- A word that is not blank at its ends is read as it is. -/
theorem setting_of_variable {value : Bool} (spelt : Spells (trim word) value) (t : Setting) :
    Setting.ofEnvironment (world.withVariable s (some (Utf8.encode word))).environment t =
      (Setting.ofEnvironment (world.withVariable s none).environment t).map
        fun said => if t = s then some value else said := by
  by_cases here : t = s
  · subst here
    have set : t.SetTo (world.withVariable t (some (Utf8.encode word))).environment word :=
      if_pos rfl
    have unset (other : String) : ¬t.SetTo (world.withVariable t none).environment other := by
      simp [Setting.SetTo, World.withVariable]
    rw [(Setting.ofEnvironment_iff.1 _).mpr (.value set spelt),
      (Setting.ofEnvironment_iff.1 _).mpr (.nothing unset)]
    simp [Except.map]
  · have apart : t.environmentName ≠ s.environmentName := by
      cases s <;> cases t <;> first | decide | exact absurd rfl here
    simp only [Setting.ofEnvironment, World.withVariable, if_neg apart, if_neg here]
    split
    · rfl
    · split <;> rfl

theorem ofEnvironment_of_variable {value : Bool} (spelt : Spells (trim word) value) :
    Overrides.ofEnvironment (world.withVariable s (some (Utf8.encode word))).environment =
      (Overrides.ofEnvironment (world.withVariable s none).environment).map
        (·.assign s (some value)) := by
  simp only [Overrides.ofEnvironment, setting_of_variable world spelt]
  generalize Setting.ofEnvironment (world.withVariable s none).environment = said
  cases said .multithreading <;> cases said .virtualThreads <;> cases said .continuations <;>
    cases said .checkFeatures <;> rfl

theorem ofPath_withVariable (value : Option Bytes) :
    Overrides.ofPath (world.withVariable s value) path = Overrides.ofPath world path := by
  cases path <;> rfl

/-- A variable is as good as being asked for outright, where nothing else is. -/
theorem resolve_of_variable {value : Bool} (spelt : Spells (trim word) value) {given : Overrides}
    (silent : given.get? s = none) :
    resolve (world.withVariable s (some (Utf8.encode word))) path given =
      resolve (world.withVariable s none) path (given.assign s (some value)) := by
  simp only [resolve, ofPath_withVariable, ofEnvironment_of_variable world spelt]
  cases Overrides.ofPath world path with
  | error error => rfl
  | ok document =>
    cases Overrides.ofEnvironment (world.withVariable s none).environment with
    | error error => rfl
    | ok environment =>
      let base := standard.override document
      have same : (base.override (environment.assign s (some value))).override given =
          (base.override environment).override (given.assign s (some value)) := by
        refine eq_of_get fun t => ?_
        simp only [get_override, get?_assign]
        by_cases here : t = s
        · simp [here, silent]
        · simp [here]
      simp only [bind, Except.bind, Except.map, base, same]

/-- A misspelt variable is an error, whatever is asked for. -/
theorem resolve_of_misspelt (s : Setting) (world : World) (path : Option Path)
    (misspelt : ∀ value, ¬Spells (trim word) value) (given : Overrides) :
    ∃ error, resolve (world.withVariable s (some (Utf8.encode word))) path given =
      .error error := by
  cases outcome : resolve (world.withVariable s (some (Utf8.encode word))) path given with
  | error error => exact ⟨error, rfl⟩
  | ok config =>
    have set : s.SetTo (world.withVariable s (some (Utf8.encode word))).environment word :=
      if_pos rfl
    cases resolve_iff.mp outcome with
    | resolved merged consistent =>
      obtain ⟨file, environment, document, said, layered⟩ := merged
      have failed := (Setting.ofEnvironment_iff.2 _).mpr ⟨_, ⟨word, set, rfl, misspelt⟩, rfl⟩
      have passed := (Setting.ofEnvironment_iff.1 _).mpr (said s)
      cases failed.symm.trans passed

end LinkConfig

/-! ## The options -/

/-- What an argument asks for. -/
inductive Order where
  | letters (letters : Bytes)
  | named (name : Bytes) (value : Option Bytes)
  | set (option : ValueOption) (value : Bytes)

namespace Subcommand
variable (subcommand : Subcommand)

def option? (name : Bytes) : Option ValueOption :=
  (ValueOption.ofSubcommand subcommand).find? fun o => Utf8.encode o.name = name

/-- One turn of the reading: what stands in front, and what is read after it. -/
inductive Turn : List Bytes → Order → List Bytes → Prop where
  | letters {text letters : Bytes} (rest : List Bytes)
    (read : Argument.ofBytes text = .letters letters) : Turn (text :: rest) (.letters letters) rest
  | named {text name : Bytes} {value : Option Bytes} (rest : List Bytes)
    (read : Argument.ofBytes text = .long name value) (noOption : subcommand.option? name = none) :
    Turn (text :: rest) (.named name value) rest
  | joined {text name value : Bytes} {option : ValueOption} (rest : List Bytes)
    (read : Argument.ofBytes text = .long name (some value))
    (found : subcommand.option? name = some option) : Turn (text :: rest) (.set option value) rest
  | apart {text name value : Bytes} {option : ValueOption} (rest : List Bytes)
    (read : Argument.ofBytes text = .long name none)
    (found : subcommand.option? name = some option)
    (plain : (Argument.ofBytes value).isPlain = true) :
    Turn (text :: value :: rest) (.set option value) rest

/-- Arguments in which nothing is cut off: no option is the last that has its value in the next
argument, and nothing ends the options. -/
inductive Whole : List Bytes → Prop where
  | nil : Whole []
  | turn {arguments rest : List Bytes} {order : Order} (turn : Turn subcommand arguments order rest)
    (whole : Whole rest) : Whole arguments

/-- Does what is asked for. -/
def obey (boolish : String → Option Bool) (given : Given) : Order → Except Stop Given
  | .letters letters => given.raiseLetters letters
  | .named name value => given.raiseNamed (Flag.ofSubcommand subcommand) name value
  | .set option value => given.set boolish option value

variable {boolish : String → Option Bool} {subcommand} {arguments rest : List Bytes}
  {order : Order}

theorem Turn.read_eq (turn : Turn subcommand arguments order rest) (given : Given) :
    subcommand.read boolish given arguments =
      (subcommand.obey boolish given order).bind fun next => subcommand.read boolish next rest := by
  cases turn with
  | letters rest read =>
    simp only [Subcommand.read, read, obey]
    cases given.raiseLetters _ <;> rfl
  | named rest read noOption =>
    rw [option?] at noOption
    simp only [Subcommand.read, read, noOption, obey]
    cases given.raiseNamed _ _ _ <;> rfl
  | joined rest read found =>
    rw [option?] at found
    simp only [Subcommand.read, read, found, obey]
    cases given.set boolish _ _ <;> rfl
  | apart rest read found plain =>
    rw [option?] at found
    simp only [Subcommand.read, read, found, plain, if_true, obey]
    cases given.set boolish _ _ <;> rfl

theorem Turn.length_lt (turn : Turn subcommand arguments order rest) :
    rest.length < arguments.length := by
  cases turn <;> simp only [List.length_cons] <;> omega

theorem Turn.append (turn : Turn subcommand arguments order rest) (more : List Bytes) :
    Turn subcommand (arguments ++ more) order (rest ++ more) := by
  cases turn with
  | letters rest read => exact .letters _ read
  | named rest read noOption => exact .named _ read noOption
  | joined rest read found => exact .joined _ read found
  | apart rest read found plain => exact .apart _ read found plain

/-- Where there is no turn, all is read, or something is amiss; what has been given plays no part
in this. -/
theorem turn_cases (subcommand : Subcommand) (arguments : List Bytes) :
    (∃ order rest, Turn subcommand arguments order rest) ∨
      (∀ given, subcommand.read boolish given arguments = .ok given) ∨
      ∀ given, subcommand.read boolish given arguments = .error .usage := by
  cases arguments with
  | nil => exact .inr (.inl fun _ => rfl)
  | cons text rest =>
    cases read : Argument.ofBytes text with
    | plain text => exact .inr (.inr fun given => by simp only [Subcommand.read, read])
    | endOfOptions =>
      by_cases last : rest = []
      · exact .inr (.inl fun given => by simp only [Subcommand.read, read, if_pos last])
      · exact .inr (.inr fun given => by simp only [Subcommand.read, read, if_neg last])
    | letters letters => exact .inl ⟨_, _, .letters rest read⟩
    | long name value =>
      cases found : subcommand.option? name with
      | none => exact .inl ⟨_, _, .named rest read found⟩
      | some option =>
        cases value with
        | some value => exact .inl ⟨_, _, .joined rest read found⟩
        | none =>
          have option := found
          rw [option?] at option
          cases rest with
          | nil => exact .inr (.inr fun given => by simp only [Subcommand.read, read, option])
          | cons value rest =>
            by_cases plain : (Argument.ofBytes value).isPlain = true
            · exact .inl ⟨_, _, .apart rest read found plain⟩
            · refine .inr (.inr fun given => ?_)
              simp only [Subcommand.read, read, option, if_neg plain]

theorem Whole.read_append {front : List Bytes} (whole : Whole subcommand front)
    (more : List Bytes) (given : Given) :
    subcommand.read boolish given (front ++ more) =
      (subcommand.read boolish given front).bind fun next => subcommand.read boolish next more := by
  induction whole generalizing given with
  | nil => rfl
  | turn turn whole ih =>
    rw [(turn.append more).read_eq, turn.read_eq]
    cases subcommand.obey boolish given _ with
    | error stop => rfl
    | ok next => exact ih next

end Subcommand

/-! ## A setting that is left out -/

section
variable {boolish : String → Option Bool} {s : Setting} (value : Option Bool) (given : Given)

theorem raise_assign (flag : Flag) :
    (given.assign s value).raise flag = (given.raise flag).map (·.assign s value) := by
  cases flag with
  | help => rfl
  | verbose =>
    cases already : given.verbose <;> simp [Given.raise, Given.assign, already, Except.map]
  | reportJson =>
    cases already : given.reportJson <;> simp [Given.raise, Given.assign, already, Except.map]

theorem raiseLetters_assign (letters : Bytes) :
    (given.assign s value).raiseLetters letters =
      (given.raiseLetters letters).map (·.assign s value) := by
  induction letters generalizing given with
  | nil => rfl
  | cons letter rest ih =>
    simp only [Given.raiseLetters, raise_assign]
    split
    · cases given.raise .verbose with
      | error stop => rfl
      | ok next => exact ih next
    · split <;> rfl

theorem raiseNamed_assign (flags : List Flag) (name : Bytes) (text : Option Bytes) :
    (given.assign s value).raiseNamed flags name text =
      (given.raiseNamed flags name text).map (·.assign s value) := by
  simp only [Given.raiseNamed]
  split
  · exact raise_assign value given _
  · rfl

theorem set_assign {option : ValueOption} (other : option ≠ .setting s) (text : Bytes) :
    (given.assign s value).set boolish option text =
      (given.set boolish option text).map (·.assign s value) := by
  have isSet : (given.assign s value).isSet option = given.isSet option := by
    cases option with
    | setting t =>
      have apart : t ≠ s := fun same => other (congrArg _ same)
      simp only [Given.isSet, Given.assign, get?_assign, if_neg apart]
    | config | capability | graph => rfl
  have put : (given.assign s value).put? boolish text option =
      (given.put? boolish text option).map (·.assign s value) := by
    cases option with
    | setting t =>
      have apart : t ≠ s := fun same => other (congrArg _ same)
      simp only [Given.put?, Given.assign, Option.map_map, Function.comp_def,
        setSetting_assign _ _ apart]
    | config | capability | graph =>
      simp only [Given.put?, Option.map_map]
      rfl
  simp only [Given.set, isSet, put]
  split
  · rfl
  · cases given.put? boolish text option <;> rfl

theorem option_ne_setting {subcommand : Subcommand} {name : Bytes} {option : ValueOption}
    (found : subcommand.option? name = some option) (other : name ≠ Utf8.encode s.optionName) :
    option ≠ .setting s := by
  rintro rfl
  have named := List.find?_some found
  exact other (of_decide_eq_true named).symm

theorem Subcommand.Turn.obey_assign {subcommand : Subcommand} {arguments rest : List Bytes}
    {order : Order} (turn : Turn subcommand arguments order rest)
    (absent : s.AbsentFrom arguments) :
    subcommand.obey boolish (given.assign s value) order =
      (subcommand.obey boolish given order).map (·.assign s value) := by
  have front {text : Bytes} {more : List Bytes} {name : Bytes} {value : Option Bytes}
      (absent : s.AbsentFrom (text :: more)) (read : Argument.ofBytes text = .long name value) :
      name ≠ Utf8.encode s.optionName := by
    rintro rfl
    exact absent text List.mem_cons_self value read
  cases turn with
  | letters rest read => exact raiseLetters_assign value given _
  | named rest read noOption => exact raiseNamed_assign value given _ _ _
  | joined rest read found =>
    exact set_assign value given (option_ne_setting found (front absent read)) _
  | apart rest read found plain =>
    exact set_assign value given (option_ne_setting found (front absent read)) _

theorem Subcommand.Turn.absentFrom {subcommand : Subcommand} {arguments rest : List Bytes}
    {order : Order} (turn : Turn subcommand arguments order rest)
    (absent : s.AbsentFrom arguments) :
    s.AbsentFrom rest := by
  intro text mem
  cases turn with
  | letters | named | joined => exact absent text (List.mem_cons_of_mem _ mem)
  | apart => exact absent text (List.mem_cons_of_mem _ (List.mem_cons_of_mem _ mem))

/-- Reading on is the same whatever stands for a setting that does not come up. -/
theorem read_assign {subcommand : Subcommand} {arguments : List Bytes}
    (absent : s.AbsentFrom arguments) :
    subcommand.read boolish (given.assign s value) arguments =
      (subcommand.read boolish given arguments).map (·.assign s value) := by
  induction long : arguments.length using Nat.strongRecOn generalizing arguments given with
  | ind length ih =>
    rcases Subcommand.turn_cases subcommand arguments with ⟨order, rest, turn⟩ | all | amiss
    · rw [turn.read_eq, turn.read_eq, turn.obey_assign value given absent]
      cases subcommand.obey boolish given order with
      | error stop => rfl
      | ok next =>
        have shorter := turn.length_lt
        exact ih rest.length (by omega) next (turn.absentFrom absent) rfl
    · rw [all, all]
      rfl
    · rw [amiss, amiss]
      rfl

/-- A setting that does not come up stays open. -/
theorem silent_of_read {subcommand : Subcommand} {arguments : List Bytes}
    (absent : s.AbsentFrom arguments) {given next : Given}
    (silent : given.settings.get? s = none)
    (success : subcommand.read boolish given arguments = .ok next) :
    next.settings.get? s = none := by
  have start : given.assign s none = given := by
    rw [Given.assign, assign_none_iff.mpr silent]
  have same : subcommand.read boolish (given.assign s none) arguments =
      (subcommand.read boolish given arguments).map (·.assign s none) :=
    read_assign none given absent
  rw [start, success] at same
  exact assign_none_iff.mp (congrArg Given.settings (Except.ok.inj same)).symm

end

/-! ## The command -/

def configName : Bytes :=
  Utf8.encode Subcommand.config.name

/-- Only options stand in front of a subcommand; they are read alike whatever follows. -/
theorem readFrom_options {boolish : String → Option Bool} {front : List Bytes}
    (options : ∀ text ∈ front, (Argument.ofBytes text).isPlain = false) (given : Given) :
    (∃ stop, ∀ more, Invocation.readFrom boolish given (front ++ more) = .error stop) ∨
      ∃ next, ∀ more, Invocation.readFrom boolish given (front ++ more) =
        Invocation.readFrom boolish next more := by
  induction front generalizing given with
  | nil => exact .inr ⟨given, fun _ => rfl⟩
  | cons text front ih =>
    have others : ∀ text ∈ front, (Argument.ofBytes text).isPlain = false :=
      fun other mem => options other (List.mem_cons_of_mem text mem)
    cases read : Argument.ofBytes text with
    | plain =>
      have noPlain := options text List.mem_cons_self
      rw [read] at noPlain
      cases noPlain
    | endOfOptions =>
      refine .inl ⟨.usage, fun more => ?_⟩
      simp only [List.cons_append, Invocation.readFrom, read]
    | letters letters =>
      cases raised : given.raiseLetters letters with
      | error stop =>
        refine .inl ⟨stop, fun more => ?_⟩
        simp only [List.cons_append, Invocation.readFrom, read, raised]
      | ok next =>
        simp only [List.cons_append, Invocation.readFrom, read, raised]
        exact ih others next
    | long name value =>
      cases raised : given.raiseNamed Flag.common name value with
      | error stop =>
        refine .inl ⟨stop, fun more => ?_⟩
        simp only [List.cons_append, Invocation.readFrom, read, raised]
      | ok next =>
        simp only [List.cons_append, Invocation.readFrom, read, raised]
        exact ih others next

/-- The configuration that some options ask for, as it is printed. -/
def configResult (world : World) (read : Except Stop Given) : Nat × String :=
  match read with
  | .error stop => stop.result
  | .ok given =>
    match LinkConfig.resolve world given.config given.settings with
    | .error _ => (2, "")
    | .ok config => (0, config.json.text ++ "\n")

section
variable {boolish : String → Option Bool} {front : List Bytes} {next : Given}
  (read : ∀ more, Invocation.readFrom boolish {} (front ++ more) =
    Invocation.readFrom boolish next more) (arguments : List Bytes)
include read

theorem readWith_config :
    Invocation.readWith boolish (front ++ configName :: arguments) =
      (Subcommand.config.read boolish {} arguments).map fun below =>
        ⟨next.verbose || below.verbose, .config ⟨below.config, below.settings⟩⟩ := by
  have plain : Argument.ofBytes configName = .plain configName := rfl
  have named : Subcommand.named? configName = some .config := rfl
  rw [Invocation.readWith, read]
  simp only [Invocation.readFrom, plain, named]
  cases Subcommand.config.read boolish {} arguments <;> rfl

theorem commandResult_config (world : World) :
    commandResult boolish world (front ++ configName :: arguments) =
      configResult world (Subcommand.config.read boolish {} arguments) := by
  rw [commandResult, readWith_config read]
  cases Subcommand.config.read boolish {} arguments with
  | error stop => rfl
  | ok given =>
    simp only [Except.map, configResult, Invocation.run, Command.run, Command.link]
    cases LinkConfig.resolve world given.config given.settings <;> rfl

end

/-- A command line for `config`, cut at a place where an option can be put in. -/
structure ConfigLine where
  front : List Bytes
  before : List Bytes
  behind : List Bytes
  options : ∀ text ∈ front, (Argument.ofBytes text).isPlain = false
  whole : Subcommand.Whole .config before

namespace ConfigLine
variable (line : ConfigLine)

/-- The line as far as the cut, and then others. -/
def upTo (more : List Bytes) : List Bytes :=
  line.front ++ configName :: (line.before ++ more)

def arguments : List Bytes :=
  line.upTo line.behind

def withOption (text : Bytes) : List Bytes :=
  line.upTo (text :: line.behind)

/-- Help is asked for behind the cut, and not before it. -/
def HelpBehind (boolish : String → Option Bool) : Prop :=
  Invocation.readWith boolish line.arguments = .error .help ∧
    Invocation.readWith boolish (line.upTo []) ≠ .error .help

/-- At the cut the reading has come to an end, or goes on with what has been given.  A setting that
did not come up is open then. -/
theorem read_upTo (boolish : String → Option Bool) {s : Setting}
    (absent : s.AbsentFrom line.before) :
    (∃ stop, ∀ more, Invocation.readWith boolish (line.upTo more) = .error stop) ∨
      ∃ given, given.settings.get? s = none ∧ ∀ more,
        (Invocation.readWith boolish (line.upTo more) = .error .help ↔
          Subcommand.config.read boolish given more = .error .help) ∧
        ∀ world, commandResult boolish world (line.upTo more) =
          configResult world (Subcommand.config.read boolish given more) := by
  rcases readFrom_options line.options {} with ⟨stop, stopped⟩ | ⟨next, read⟩
  · exact .inl ⟨stop, fun more => stopped _⟩
  cases reached : Subcommand.config.read boolish {} line.before with
  | error stop =>
    refine .inl ⟨stop, fun more => ?_⟩
    rw [upTo, readWith_config read, line.whole.read_append, reached]
    rfl
  | ok given =>
    have onward (more : List Bytes) : Subcommand.config.read boolish {} (line.before ++ more) =
        Subcommand.config.read boolish given more := by
      rw [line.whole.read_append, reached]
      rfl
    refine .inr ⟨given, silent_of_read absent (by cases s <;> rfl) reached, fun more => ⟨?_, ?_⟩⟩
    · rw [upTo, readWith_config read, onward]
      cases Subcommand.config.read boolish given more <;> simp [Except.map]
    · intro world
      rw [upTo, commandResult_config read, onward]

end ConfigLine

section
variable {boolish : String → Option Bool} {s : Setting} {word : String}

theorem ofBytes_argument :
    Argument.ofBytes (s.argument word) =
      .long (Utf8.encode s.optionName) (some (Utf8.encode word)) := by
  cases s <;> rfl

theorem option?_setting : Subcommand.config.option? (Utf8.encode s.optionName) =
    some (.setting s) := by
  cases s <;> rfl

/-- The option counts if its word is a boolean, and is a fault if it is none. -/
theorem read_argument {given : Given} (silent : given.settings.get? s = none)
    (more : List Bytes) :
    Subcommand.config.read boolish given (s.argument word :: more) =
      match boolish word with
      | none => .error .usage
      | some value => Subcommand.config.read boolish (given.assign s (some value)) more := by
  have unset : given.isSet (.setting s) = false := by
    rw [Given.isSet, silent]
    rfl
  have turn : Subcommand.Turn .config (s.argument word :: more)
      (.set (.setting s) (Utf8.encode word)) more :=
    .joined more ofBytes_argument option?_setting
  simp only [turn.read_eq, Subcommand.obey, Given.set, unset, Given.put?, Utf8.decode?_encode,
    Option.bind_some]
  cases boolish word with
  | none => rfl
  | some value =>
    simp only [Option.map_some, setSetting_eq_assign]
    rfl

theorem read_argument_of_misspelt
    (accepts : ∀ word value, boolish word = some value ↔ Spells word value)
    (misspelt : ∀ value, ¬Spells word value) {given : Given}
    (silent : given.settings.get? s = none) (more : List Bytes) :
    Subcommand.config.read boolish given (s.argument word :: more) = .error .usage := by
  have none : boolish word = none :=
    Option.eq_none_iff_forall_ne_some.mpr fun value =>
      (not_congr (accepts word value)).mpr (misspelt value)
  rw [read_argument silent, none]

theorem configResult_usage_of_misspelt (world : World) (trimmed : trim word = word)
    (misspelt : ∀ value, ¬Spells word value) {read : Except Stop Given}
    (noHelp : read ≠ .error .help) :
    configResult (world.withVariable s (some (Utf8.encode word))) read = (2, "") := by
  rw [← trimmed] at misspelt
  match read with
  | .error .help => exact absurd rfl noHelp
  | .error .usage => rfl
  | .ok given =>
    obtain ⟨error, failed⟩ :=
      LinkConfig.resolve_of_misspelt s world given.config misspelt given.settings
    simp only [configResult, failed]

theorem configResult_of_variable (world : World) (trimmed : trim word = word) {value : Bool}
    (spelt : Spells word value) {read : Except Stop Given}
    (silent : ∀ given, read = .ok given → given.settings.get? s = none) :
    configResult (world.withVariable s (some (Utf8.encode word))) read =
      configResult (world.withVariable s none) (read.map (·.assign s (some value))) := by
  rw [← trimmed] at spelt
  match read with
  | .error _ => rfl
  | .ok given =>
    have same := LinkConfig.resolve_of_variable world given.config spelt (silent given rfl)
    simp only [configResult, Except.map, Given.assign, same]

/-- From where the option stands. -/
theorem configResult_of_option (world : World) (trimmed : trim word = word) {value : Bool}
    (spelt : Spells word value) (accepted : boolish word = some value) {behind : List Bytes}
    {given : Given} (silent : given.settings.get? s = none) (absent : s.AbsentFrom behind) :
    configResult (world.withVariable s (some (Utf8.encode word)))
        (Subcommand.config.read boolish given behind) =
      configResult (world.withVariable s none)
        (Subcommand.config.read boolish given (s.argument word :: behind)) := by
  have silentLater (next : Given) (read : Subcommand.config.read boolish given behind = .ok next) :
      next.settings.get? s = none :=
    silent_of_read absent silent read
  rw [read_argument silent, accepted, configResult_of_variable world trimmed spelt silentLater]
  simp only [read_assign _ given absent]

end

/-! ## Words that options take -/

/-- The two tables have the same words. -/
theorem optionWord?_eq_some_iff (word : String) (value : Bool) :
    optionWord? word = some value ↔ Spells word value := by
  have yes : truthyWords.Perm trueWords := by decide
  have no : falsyWords.Perm falseWords := by decide
  have same : optionWord? word = booleanWord? word := by
    simp only [optionWord?, booleanWord?, yes.mem_iff, no.mem_iff]
  rw [same]
  exact booleanWord?_eq_some_iff

/-- A document and a variable that speak of other settings, and of the one in question too. -/
def layeredWorld : World where
  read _ := .ok (Utf8.encode
    ("\x7b\"schema_version\": \"nbridge.link-config@0.1.0\", " ++
      "\"virtual_threads\": true, \"continuations\": false\x7d"))
  environment name :=
    if name = "NBRIDGE_MULTITHREADING" then some (Utf8.encode " oN\t") else none

/-- Options in front of the subcommand and on both sides of the cut. -/
def layeredLine : ConfigLine where
  front := [Utf8.encode "-v"]
  before := [Utf8.encode "--config", Utf8.encode "c.json"]
  behind := [Utf8.encode "--check-features=0"]
  options := by decide
  whole := .turn (.apart [] rfl rfl rfl) .nil

end LinkGate
