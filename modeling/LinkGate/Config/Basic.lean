import LinkGate.Capability.Basic

/-!
# Link configuration

Which capabilities a build provides, and whether the gate is checked at all.  A guard is a test of
the configuration that folds to a constant at link time; `Overrides` are the settings one source
(a file, the environment, a command line) gives, each of which may be missing.
-/

set_option autoImplicit false

namespace LinkGate

structure LinkConfig where
  multithreading : Bool := false
  virtualThreads : Bool := false
  continuations : Bool := false
  checkFeatures : Bool := true
  deriving DecidableEq, Repr

namespace LinkConfig

/-- A build that asks for nothing: no capability, and the gate checked. -/
def standard : LinkConfig := {}

def supports (config : LinkConfig) : Capability → Bool
  | .threads => config.multithreading
  | .virtualThreads => config.virtualThreads
  | .continuations => config.continuations

def enabled (config : LinkConfig) : List Capability :=
  Capability.all.filter config.supports

/-- The four settings in the order in which every source is read. -/
inductive Setting where
  | multithreading
  | virtualThreads
  | continuations
  | checkFeatures
  deriving DecidableEq, Repr

namespace Setting

def all : List Setting :=
  [multithreading, virtualThreads, continuations, checkFeatures]

def environmentName : Setting → String
  | multithreading => "NBRIDGE_MULTITHREADING"
  | virtualThreads => "NBRIDGE_VIRTUAL_THREADS"
  | continuations => "NBRIDGE_CONTINUATIONS"
  | checkFeatures => "NBRIDGE_CHECK_FEATURES"

/-- The key of the setting in files and in output. -/
def key : Setting → String
  | multithreading => "multithreading"
  | virtualThreads => "virtual_threads"
  | continuations => "continuations"
  | checkFeatures => "check_features"

end Setting

def get (config : LinkConfig) : Setting → Bool
  | .multithreading => config.multithreading
  | .virtualThreads => config.virtualThreads
  | .continuations => config.continuations
  | .checkFeatures => config.checkFeatures

structure Overrides where
  multithreading : Option Bool := none
  virtualThreads : Option Bool := none
  continuations : Option Bool := none
  checkFeatures : Option Bool := none
  deriving DecidableEq, Repr

namespace Overrides

def get? (given : Overrides) : Setting → Option Bool
  | .multithreading => given.multithreading
  | .virtualThreads => given.virtualThreads
  | .continuations => given.continuations
  | .checkFeatures => given.checkFeatures

def ofSettings (f : Setting → Option Bool) : Overrides :=
  ⟨f .multithreading, f .virtualThreads, f .continuations, f .checkFeatures⟩

end Overrides

/-- What is given replaces what was set before. -/
def override (config : LinkConfig) (given : Overrides) : LinkConfig where
  multithreading := given.multithreading.getD config.multithreading
  virtualThreads := given.virtualThreads.getD config.virtualThreads
  continuations := given.continuations.getD config.continuations
  checkFeatures := given.checkFeatures.getD config.checkFeatures

end LinkConfig

/-- A link-time test around a call: the call is kept where the configuration's support for
`capability` equals `enabled`. -/
structure LinkGuard where
  capability : Capability
  enabled : Bool
  deriving DecidableEq, Repr

def LinkGuard.Holds (guard : LinkGuard) (config : LinkConfig) : Prop :=
  config.supports guard.capability = guard.enabled

instance (guard : LinkGuard) (config : LinkConfig) : Decidable (guard.Holds config) :=
  inferInstanceAs (Decidable (_ = _))

/-- The test that code makes before it uses a capability; where it fails, the code touches the
marker instead. -/
def LinkConfig.admits (config : LinkConfig) (c : Capability) : Bool :=
  config.supports c

end LinkGate
