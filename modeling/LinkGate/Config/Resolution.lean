import LinkGate.Config.Document
import LinkGate.Text.BooleanWord
import LinkGate.World

/-!
# Resolving a link configuration

The standard configuration is changed by a document, then by environment variables, then by what was
asked for outright; what comes later replaces what came before.  The sources are read in this order
and the first fault is the error.  Only the configuration that results has to be consistent.
-/

set_option autoImplicit false

namespace LinkGate

namespace LinkConfig

/-- Virtual threads are built on the two other capabilities. -/
inductive Inconsistency where
  | withoutContinuations
  | withoutThreads
  deriving DecidableEq, Repr

def Inconsistency.text : Inconsistency → String
  | withoutContinuations => "virtual threads require continuations"
  | withoutThreads => "virtual threads require multithreading"

/-- The first thing that is wrong with a configuration. -/
def inconsistency? (config : LinkConfig) : Option Inconsistency :=
  if config.virtualThreads ∧ ¬config.continuations then some .withoutContinuations
  else if config.virtualThreads ∧ ¬config.multithreading then some .withoutThreads
  else none

end LinkConfig

open LinkConfig (Inconsistency Overrides Setting)

inductive ConfigError where
  | unread (path : Path) (error : IoError)
  | unreadable (path : Path) (error : Json.ReadError)
  | foreignSchema (path : Path) (found : String)
  | notBoolean (setting : Setting) (value : String)
  | inconsistent (fault : Inconsistency)
  deriving DecidableEq, Repr

namespace ConfigError

def message : ConfigError → String
  | unread path error => s!"read config {path.text}: {error.message}"
  | unreadable path error => s!"parse config {path.text}: {error.message}"
  | foreignSchema path found =>
    s!"config {path.text}: schema_version {quoted found} (expected {quoted LinkConfig.schema})"
  | notBoolean setting value =>
    s!"invalid environment variable {setting.environmentName}={quoted value} " ++
      "(expected a boolean: 1/0, true/false, yes/no, on/off)"
  | inconsistent fault => s!"inconsistent link config: {fault.text}"

/-- The errors below this one, outermost first. -/
def sources : ConfigError → List String
  | unread _ error => [error.message]
  | unreadable _ error => [error.message]
  | foreignSchema _ _ | notBoolean _ _ | inconsistent _ => []

end ConfigError

namespace LinkConfig

def Overrides.ofDocument (path : Path) (text : Bytes) : Except ConfigError Overrides :=
  match Overrides.read text with
  | .ok given => .ok given
  | .error (.unreadable error) => .error (.unreadable path error)
  | .error (.foreignSchema found) => .error (.foreignSchema path found)

/-- What the environment says about a setting.  A variable that is no text says nothing. -/
def Setting.ofEnvironment (environment : String → Option Bytes) (setting : Setting) :
    Except ConfigError (Option Bool) :=
  match (environment setting.environmentName).bind Utf8.decode? with
  | none => .ok none
  | some word =>
    match booleanWord? (trim word) with
    | some value => .ok (some value)
    | none => .error (.notBoolean setting (trim word))

def Overrides.ofEnvironment (environment : String → Option Bytes) :
    Except ConfigError Overrides := do
  let multithreading ← Setting.ofEnvironment environment .multithreading
  let virtualThreads ← Setting.ofEnvironment environment .virtualThreads
  let continuations ← Setting.ofEnvironment environment .continuations
  let checkFeatures ← Setting.ofEnvironment environment .checkFeatures
  return ⟨multithreading, virtualThreads, continuations, checkFeatures⟩

/-- The settings of the document at a path; without a path there are none. -/
def Overrides.ofPath (world : World) : Option Path → Except ConfigError Overrides
  | none => .ok {}
  | some path =>
    match world.read path with
    | .error error => .error (.unread path error)
    | .ok text => Overrides.ofDocument path text

def checked (config : LinkConfig) : Except ConfigError LinkConfig :=
  match config.inconsistency? with
  | some fault => .error (.inconsistent fault)
  | none => .ok config

def resolve (world : World) (path : Option Path) (given : Overrides) :
    Except ConfigError LinkConfig := do
  let document ← Overrides.ofPath world path
  let environment ← Overrides.ofEnvironment world.environment
  checked (((standard.override document).override environment).override given)

end LinkConfig

end LinkGate
