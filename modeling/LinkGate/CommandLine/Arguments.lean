import LinkGate.Config.Resolution

/-!
# Arguments

The command line is read from left to right: flags, options with a value in the same argument or in
the next one, and a subcommand with flags and options of its own.  The first request for help and
the first fault stop the reading, so the earlier of the two wins.  No option may be given twice, and
no value in an argument of its own may look like an option.  Which words are booleans for an option
is a parameter of the reading (`boolish`).
-/

set_option autoImplicit false

namespace LinkGate

open LinkConfig (Overrides Setting)

/-- What a subcommand is told about the link configuration. -/
structure LinkRequest where
  config : Option Path := none
  given : Overrides := {}
  deriving DecidableEq, Repr

inductive Command where
  | features (link : LinkRequest) (capability : Option Capability)
  | check (link : LinkRequest) (graph : Path) (reportJson : Bool)
  | config (link : LinkRequest)
  deriving DecidableEq, Repr

structure Invocation where
  verbose : Bool
  command : Command
  deriving DecidableEq, Repr

inductive Stop where
  | usage
  | help
  deriving DecidableEq, Repr

/-- An argument as it is written. -/
inductive Argument where
  | plain (text : Bytes)
  /-- Two dashes: no option follows. -/
  | endOfOptions
  | long (name : Bytes) (value : Option Bytes)
  | letters (letters : Bytes)
  deriving DecidableEq, Repr

namespace Argument

def dash : UInt8 := 0x2D

def equals : UInt8 := 0x3D

def letterV : UInt8 := 0x76

def letterH : UInt8 := 0x68

/-- A name, and the value behind the first equals sign. -/
def ofLong (text : Bytes) : Argument :=
  let name := text.takeWhile (· != equals)
  match text.drop name.length with
  | [] => long name none
  | _ :: value => long name (some value)

/-- A dash alone is a plain text. -/
def ofBytes (text : Bytes) : Argument :=
  match text with
  | first :: second :: rest =>
    if first ≠ dash then plain text
    else if second ≠ dash then letters (second :: rest)
    else if rest = [] then endOfOptions
    else ofLong rest
  | _ => plain text

def isPlain : Argument → Bool
  | plain _ => true
  | _ => false

end Argument

inductive Subcommand where
  | features
  | check
  | config
  deriving DecidableEq, Repr

namespace Subcommand

def all : List Subcommand :=
  [features, check, config]

def name : Subcommand → String
  | features => "features"
  | check => "check"
  | config => "config"

def named? (text : Bytes) : Option Subcommand :=
  all.find? fun subcommand => Utf8.encode subcommand.name = text

end Subcommand

inductive ValueOption where
  | config
  | setting (setting : Setting)
  | capability
  | graph
  deriving DecidableEq, Repr

def LinkConfig.Setting.optionName : Setting → String
  | .multithreading => "multithreading"
  | .virtualThreads => "virtual-threads"
  | .continuations => "continuations"
  | .checkFeatures => "check-features"

namespace ValueOption

def name : ValueOption → String
  | config => "config"
  | setting s => s.optionName
  | capability => "capability"
  | graph => "graph"

def link : List ValueOption :=
  config :: Setting.all.map setting

def ofSubcommand : Subcommand → List ValueOption
  | .features => link ++ [capability]
  | .check => link ++ [graph]
  | .config => link

end ValueOption

inductive Flag where
  | verbose
  | help
  | reportJson
  deriving DecidableEq, Repr

namespace Flag

def name : Flag → String
  | verbose => "verbose"
  | help => "help"
  | reportJson => "report-json"

def common : List Flag :=
  [verbose, help]

def ofSubcommand : Subcommand → List Flag
  | .check => common ++ [reportJson]
  | .features | .config => common

end Flag

/-- What has been read of one level of the command line. -/
structure Given where
  verbose : Bool := false
  reportJson : Bool := false
  config : Option Path := none
  settings : Overrides := {}
  capability : Option Capability := none
  graph : Option Path := none
  deriving DecidableEq, Repr

namespace Given

def raise (given : Given) : Flag → Except Stop Given
  | .help => .error .help
  | .verbose => if given.verbose then .error .usage else .ok { given with verbose := true }
  | .reportJson => if given.reportJson then .error .usage else .ok { given with reportJson := true }

/-- A path is any bytes but none. -/
def path? (value : Bytes) : Option Path :=
  if value = [] then none else some ⟨value⟩

def setSetting (settings : Overrides) (value : Bool) : Setting → Overrides
  | .multithreading => { settings with multithreading := some value }
  | .virtualThreads => { settings with virtualThreads := some value }
  | .continuations => { settings with continuations := some value }
  | .checkFeatures => { settings with checkFeatures := some value }

def isSet (given : Given) : ValueOption → Bool
  | .config => given.config.isSome
  | .setting setting => (given.settings.get? setting).isSome
  | .capability => given.capability.isSome
  | .graph => given.graph.isSome

/-- Sets an option, if the value is one of its kind. -/
def put? (boolish : String → Option Bool) (given : Given) (value : Bytes) :
    ValueOption → Option Given
  | .config => (path? value).map fun path => { given with config := some path }
  | .graph => (path? value).map fun path => { given with graph := some path }
  | .setting setting =>
    ((Utf8.decode? value).bind boolish).map fun b =>
      { given with settings := setSetting given.settings b setting }
  | .capability =>
    ((Utf8.decode? value).bind Capability.named?).map fun c => { given with capability := some c }

def set (boolish : String → Option Bool) (given : Given) (option : ValueOption) (value : Bytes) :
    Except Stop Given :=
  if given.isSet option then .error .usage
  else
    match given.put? boolish value option with
    | none => .error .usage
    | some given => .ok given

/-- Raises the flags of single letters in turn. -/
def raiseLetters (given : Given) : Bytes → Except Stop Given
  | [] => .ok given
  | letter :: rest =>
    if letter = Argument.letterV then do
      let given ← given.raise .verbose
      given.raiseLetters rest
    else if letter = Argument.letterH then .error .help
    else .error .usage

def raiseNamed (given : Given) (flags : List Flag) (name : Bytes) (value : Option Bytes) :
    Except Stop Given :=
  match flags.find? fun flag => Utf8.encode flag.name = name, value with
  | some flag, none => given.raise flag
  | _, _ => .error .usage

end Given

namespace Subcommand

def read (boolish : String → Option Bool) (subcommand : Subcommand) :
    Given → List Bytes → Except Stop Given
  | given, [] => .ok given
  | given, text :: rest =>
    match Argument.ofBytes text with
    | .plain _ => .error .usage
    | .endOfOptions => if rest = [] then .ok given else .error .usage
    | .letters letters =>
      match given.raiseLetters letters with
      | .error stop => .error stop
      | .ok given => subcommand.read boolish given rest
    | .long name value =>
      let options := ValueOption.ofSubcommand subcommand
      match options.find? fun o => Utf8.encode o.name = name, value with
      | none, value =>
        match given.raiseNamed (Flag.ofSubcommand subcommand) name value with
        | .error stop => .error stop
        | .ok given => subcommand.read boolish given rest
      | some option, some value =>
        match given.set boolish option value with
        | .error stop => .error stop
        | .ok given => subcommand.read boolish given rest
      | some option, none =>
        match rest with
        | [] => .error .usage
        | value :: rest =>
          if (Argument.ofBytes value).isPlain then
            match given.set boolish option value with
            | .error stop => .error stop
            | .ok given => subcommand.read boolish given rest
          else .error .usage

def command (subcommand : Subcommand) (given : Given) : Except Stop Command :=
  let link : LinkRequest := ⟨given.config, given.settings⟩
  match subcommand with
  | features => .ok (.features link given.capability)
  | config => .ok (.config link)
  | check =>
    match given.graph with
    | none => .error .usage
    | some graph => .ok (.check link graph given.reportJson)

end Subcommand

def truthyWords : List String :=
  ["y", "yes", "t", "true", "on", "1"]

def falsyWords : List String :=
  ["n", "no", "f", "false", "off", "0"]

/-- What the options of the settings take for a boolean.  Nothing is trimmed. -/
def optionWord? (word : String) : Option Bool :=
  let lower := String.ofList (word.toList.map Char.toLower)
  if lower ∈ truthyWords then some true
  else if lower ∈ falsyWords then some false
  else none

namespace Invocation

def helpName : String := "help"

/-- Help is had for a subcommand, for help itself, or for everything. -/
def helpOn (topics : List Bytes) : Stop :=
  match topics with
  | [] => .help
  | [topic] =>
    if (Subcommand.named? topic).isSome ∨ topic = Utf8.encode helpName then .help else .usage
  | _ => .usage

def readFrom (boolish : String → Option Bool) : Given → List Bytes → Except Stop Invocation
  | _, [] => .error .usage
  | given, text :: rest =>
    match Argument.ofBytes text with
    | .endOfOptions => .error .usage
    | .letters letters =>
      match given.raiseLetters letters with
      | .error stop => .error stop
      | .ok given => readFrom boolish given rest
    | .long name value =>
      match given.raiseNamed Flag.common name value with
      | .error stop => .error stop
      | .ok given => readFrom boolish given rest
    | .plain name =>
      match Subcommand.named? name with
      | none => .error (if name = Utf8.encode helpName then helpOn rest else .usage)
      | some subcommand =>
        match subcommand.read boolish {} rest with
        | .error stop => .error stop
        | .ok below =>
          match subcommand.command below with
          | .error stop => .error stop
          | .ok command => .ok ⟨given.verbose || below.verbose, command⟩

/-- The invocation that arguments ask for, where the options take the words that are `boolish`. -/
def readWith (boolish : String → Option Bool) (arguments : List Bytes) : Except Stop Invocation :=
  readFrom boolish {} arguments

def read : List Bytes → Except Stop Invocation :=
  readWith optionWord?

end Invocation

end LinkGate
