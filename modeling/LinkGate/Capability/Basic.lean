import LinkGate.Text.Blank
import LinkGate.Text.Quoted

/-!
# Capabilities and their markers

A capability is a runtime feature that a build may or may not provide.  Each has a name for people
and files, and two spellings of its marker: the symbol and the path that a call graph shows wherever
code relies on the capability.  `ofName?` and `ofMarker?` read the two kinds of text back.
-/

set_option autoImplicit false

namespace LinkGate

inductive Capability where
  | threads
  | virtualThreads
  | continuations
  deriving DecidableEq, Repr

namespace Capability

/-- In the order in which every listing shows them. -/
def all : List Capability :=
  [threads, virtualThreads, continuations]

def name : Capability → String
  | threads => "threads"
  | virtualThreads => "virtual-threads"
  | continuations => "continuations"

def description : Capability → String
  | threads => "multithreading"
  | virtualThreads => "virtual threads"
  | continuations => "continuations"

def symbolPrefix : String :=
  "nbridge_unsupported_"

def pathPrefix : String :=
  "nbridge_caps::unsupported::"

def markerSymbol : Capability → String
  | threads => "nbridge_unsupported_threads"
  | virtualThreads => "nbridge_unsupported_virtual_threads"
  | continuations => "nbridge_unsupported_continuations"

def markerPath : Capability → String
  | threads => "nbridge_caps::unsupported::threads"
  | virtualThreads => "nbridge_caps::unsupported::virtual_threads"
  | continuations => "nbridge_caps::unsupported::continuations"

/-- The capability with exactly this name. -/
def named? (text : String) : Option Capability :=
  all.find? fun c => c.name == text

/-- A name as people type it, blanks around it allowed. -/
def ofName? (text : String) : Option Capability :=
  named? (trim text)

structure UnknownName where
  text : String
  deriving DecidableEq, Repr

def UnknownName.message (e : UnknownName) : String :=
  s!"unknown capability {quoted e.text} (expected one of: threads, virtual-threads, continuations)"

def ofName (text : String) : Except UnknownName Capability :=
  match ofName? text with
  | some c => .ok c
  | none => .error ⟨text⟩

/-- Both spellings of `c` are its marker. -/
def IsMarker (c : Capability) (text : String) : Prop :=
  c.markerSymbol = text ∨ c.markerPath = text

instance (c : Capability) (text : String) : Decidable (c.IsMarker text) :=
  inferInstanceAs (Decidable (_ ∨ _))

/-- Only a text that starts like a marker is looked up. -/
def startsLikeMarker (text : String) : Bool :=
  symbolPrefix.toList.isPrefixOf text.toList || pathPrefix.toList.isPrefixOf text.toList

/-- The capability whose marker a call target names, blanks around it allowed. -/
def ofMarker? (target : String) : Option Capability :=
  let text := trim target
  if startsLikeMarker text then all.find? fun c => c.IsMarker text else none

end Capability

end LinkGate
