import LinkGate.Compile.Program
import LinkGate.Proofs.Files.System

/-!
# Programs that keep to their output directory

A confined program makes no file but below its output directory, and what stands elsewhere stays.
It may make directories anywhere: a program that makes the way to its output directory is confined
too.  Scripts are confined when what they leave lies below.
-/

set_option autoImplicit false

namespace LinkGate

open FileSystem (ChangesIn)

/-- `names` leads to somewhere below `place`. -/
def Below (place names : List Bytes) : Prop :=
  place <+: names ∧ names ≠ place

def Confined (program : Program) : Prop :=
  ∀ arguments files out, outDirectory? arguments = some out →
    ChangesIn files (program arguments files).files (Below (files.target out))

theorem launch_eq_ok {commands : Commands} {files : FileSystem} {program : Path}
    {arguments : List Bytes} {completion : Completion}
    (launched : launch commands files program arguments = .ok completion) :
    ∃ command ∈ commands, completion = command.2 arguments files := by
  rw [launch] at launched
  split at launched
  case isTrue => cases launched
  case isFalse =>
    split at launched
    case h_1 run found => exact ⟨_, mem_of_lookup found, (Except.ok.inj launched).symm⟩
    case h_2 =>
      split at launched
      case isTrue => split at launched <;> cases launched
      case isFalse => cases launched

/-! ## The output directory among the arguments -/

theorem outDirectory?_eq_none {arguments : List Bytes}
    (plain : ∀ argument ∈ arguments.dropLast, argument ≠ outFlag) :
    outDirectory? arguments = none := by
  induction arguments with
  | nil => rfl
  | cons flag rest ih =>
    cases rest with
    | nil => rfl
    | cons value rest =>
      rw [List.dropLast_cons_cons, List.forall_mem_cons] at plain
      rw [outDirectory?, ih plain.2]
      exact if_neg plain.1

/-- Only the arguments behind the last flag could be in the way. -/
theorem outDirectory?_flag {front back : List Bytes} {value : Bytes}
    (plain : ∀ argument ∈ (value :: back).dropLast, argument ≠ outFlag) :
    outDirectory? (front ++ outFlag :: value :: back) = some ⟨value⟩ := by
  induction front with
  | nil => rw [List.nil_append, outDirectory?, outDirectory?_eq_none plain, if_pos rfl]
  | cons first front ih =>
    obtain ⟨next, rest, cons⟩ := List.exists_cons_of_ne_nil
      (List.append_ne_nil_of_right_ne_nil front (List.cons_ne_nil outFlag (value :: back)))
    rw [cons] at ih
    rw [List.cons_append, cons, outDirectory?, ih]

/-! ## Scripts -/

/-- A path that leads on from wherever it begins. -/
structure Path.Inner (path : Path) : Prop where
  relative : path.isAbsolute = false
  noDots : Path.dots ∉ path.segments
  leads : path.walk [] ≠ []

theorem Path.Inner.below {path : Path} (inner : path.Inner) (files : FileSystem) (out : Path) :
    Below (files.target out) (files.target (out.join path)) := by
  have onward : files.target (out.join path) = files.target out ++ path.walk [] := by
    rw [FileSystem.target_join files out inner.relative, Path.walk,
      Path.foldl_advance_eq_append inner.noDots]
    rfl
  rw [onward]
  refine ⟨List.prefix_append _ _, fun same => inner.leads ?_⟩
  exact List.append_right_eq_self.mp same

namespace Script
variable (out : Path) (files : FileSystem)

theorem leave_changes {output : Path × Option Bytes} (inner : output.2 ≠ none → output.1.Inner) :
    ChangesIn files (leave out files output) (Below (files.target out)) := by
  rw [leave]
  split
  case h_1 => exact .refl files _
  case h_2 made added =>
    refine (FileSystem.add_changes added).mono ?_
    rintro names ⟨some, rfl⟩
    exact (inner some).below files out

theorem leaveAll_changes {outputs : List (Path × Option Bytes)}
    (inner : ∀ output ∈ outputs, output.2 ≠ none → output.1.Inner) :
    ChangesIn files (outputs.foldl (leave out) files) (Below (files.target out)) := by
  induction outputs generalizing files with
  | nil => exact .refl files _
  | cons output rest ih =>
    obtain ⟨first, later⟩ := List.forall_mem_cons.mp inner
    have leaving := leave_changes out files first
    have further := ih (leave out files output) later
    rw [FileSystem.target_congr leaving.working] at further
    exact leaving.trans further

/-- A script whose files all lie below its output directory is confined to it. -/
theorem confined {script : Script}
    (inner : ∀ output ∈ script.outputs, output.2 ≠ none → output.1.Inner) :
    Confined script.program := by
  intro arguments files out given
  simp only [program, given]
  exact leaveAll_changes out files inner

end Script

end LinkGate
