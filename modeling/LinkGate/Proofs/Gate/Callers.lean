import LinkGate.Proofs.Gate.Index
import Mathlib.Data.List.Perm.Subperm

/-!
# What a walk notes

A walk notes names one after the other, each with the function that led to it.  `Grown` says how the
notes come about, and `Back` follows them from a name to an entry point.  On grown notes every name
has exactly one way back, no name occurs on it twice, and what is noted later does not change it, so
that a trail can be read off at any time.
-/

set_option autoImplicit false

namespace LinkGate.Callers

def names (callers : Callers) : List String :=
  callers.map Prod.fst

/-- How notes come about: an entry point is noted without a caller, the target of a live call with
a caller noted before it, and nothing is noted twice. -/
inductive Grown (graph : CallGraph) (config : LinkConfig) : Callers → Prop where
  | start : Grown graph config []
  | entry {callers : Callers} {name : String} (grown : Grown graph config callers)
      (fresh : ¬callers.reached name) (listed : name ∈ graph.entryPoints)
      (plain : Capability.ofMarker? name = none) :
      Grown graph config (callers ++ [(name, none)])
  | call {callers : Callers} {caller target : String} (grown : Grown graph config callers)
      (fresh : ¬callers.reached target) (known : callers.reached caller)
      (calls : graph.Calls config caller target)
      (plain : Capability.ofMarker? target = none) :
      Grown graph config (callers ++ [(target, some caller)])

/-- The names from `name` back to an entry point, one note after the other. -/
inductive Back (callers : Callers) : String → List String → Prop where
  | entry {name : String} (noted : callers.lookup name = some none) : Back callers name [name]
  | call {name caller : String} {rest : List String}
      (noted : callers.lookup name = some (some caller)) (back : Back callers caller rest) :
      Back callers name (name :: rest)

theorem reached_iff {callers : Callers} {name : String} :
    callers.reached name ↔ name ∈ callers.names := by
  rw [reached, List.lookup_isSome_iff, names, List.mem_map]
  constructor
  · rintro ⟨note, member, same⟩
    exact ⟨note, member, (beq_iff_eq.mp same).symm⟩
  · rintro ⟨note, member, rfl⟩
    exact ⟨note, member, beq_iff_eq.mpr rfl⟩

theorem names_append (callers more : Callers) :
    names (callers ++ more) = callers.names ++ more.names :=
  List.map_append

theorem lookup_append {callers : Callers} {name : String} {caller : Option String}
    (more : Callers) (noted : callers.lookup name = some caller) :
    List.lookup name (callers ++ more) = some caller := by
  rw [List.lookup_append, noted, Option.some_or]

theorem reached_append {callers : Callers} {name : String} (more : Callers)
    (known : callers.reached name) : reached (callers ++ more) name := by
  rw [reached_iff, names_append, List.mem_append]
  exact Or.inl (reached_iff.mp known)

theorem reached_concat {callers : Callers} {note : String × Option String} {name : String} :
    reached (callers ++ [note]) name ↔ callers.reached name ∨ name = note.1 := by
  rw [reached_iff, names_append, List.mem_append, ← reached_iff, names, List.map_singleton,
    List.mem_singleton]

theorem lookup_last {callers : Callers} {name : String} {caller : Option String}
    (fresh : ¬callers.reached name) :
    List.lookup name (callers ++ [(name, caller)]) = some caller := by
  have missing : callers.lookup name = none := by
    rw [reached, Option.not_isSome_iff_eq_none] at fresh
    exact fresh
  rw [List.lookup_append, missing, Option.none_or, List.lookup_cons_self]

namespace Back
variable {callers : Callers} {name : String} {names other : List String}

theorem append (more : Callers) (back : Back callers name names) :
    Back (callers ++ more) name names := by
  induction back with
  | entry noted => exact .entry (lookup_append more noted)
  | call noted _ ih => exact .call (lookup_append more noted) ih

theorem unique (first : Back callers name names) (second : Back callers name other) :
    names = other := by
  induction first generalizing other with
  | entry noted =>
    cases second with
    | entry => rfl
    | call noted' _ => simp [noted] at noted'
  | call noted back ih =>
    cases second with
    | entry noted' => simp [noted] at noted'
    | call noted' back' =>
      rw [noted, Option.some.injEq, Option.some.injEq] at noted'
      subst noted'
      rw [ih back']

theorem head (back : Back callers name names) : names.head? = some name := by
  cases back <;> rfl

theorem reached (back : Back callers name names) : ∀ n ∈ names, callers.reached n := by
  induction back with
  | entry noted =>
    intro n member
    rw [List.mem_singleton] at member
    rw [Callers.reached, member, noted, Option.isSome_some]
  | call noted _ ih =>
    intro n member
    rcases List.mem_cons.mp member with rfl | member
    · rw [Callers.reached, noted, Option.isSome_some]
    · exact ih n member

/-- From a name on the way back, the rest of the way is that name's own way. -/
theorem part (back : Back callers name names) :
    ∀ n ∈ names, ∃ rest, Back callers n rest ∧ rest.length ≤ names.length := by
  induction back with
  | entry noted =>
    intro n member
    rw [List.mem_singleton] at member
    subst member
    exact ⟨[n], .entry noted, Nat.le_refl _⟩
  | call noted back ih =>
    intro n member
    rcases List.mem_cons.mp member with rfl | member
    · exact ⟨_, .call noted back, Nat.le_refl _⟩
    · obtain ⟨rest, partBack, shorter⟩ := ih n member
      exact ⟨rest, partBack, Nat.le_succ_of_le shorter⟩

theorem nodup (back : Back callers name names) : names.Nodup := by
  induction back with
  | entry => exact List.nodup_singleton _
  | @call name caller rest noted back ih =>
    refine List.nodup_cons.mpr ⟨?_, ih⟩
    intro again
    obtain ⟨part, partBack, shorter⟩ := back.part name again
    have whole : part = name :: rest := partBack.unique (.call noted back)
    rw [whole, List.length_cons] at shorter
    omega

theorem length_le (back : Back callers name names) : names.length ≤ callers.length := by
  have inside : names ⊆ callers.names := by
    intro n member
    exact reached_iff.mp (back.reached n member)
  have bound := (List.subperm_of_subset back.nodup inside).length_le
  rwa [Callers.names, List.length_map] at bound

/-- The fuel of a trail is enough. -/
theorem backWithin_eq (back : Back callers name names) {fuel : Nat}
    (enough : names.length ≤ fuel + 1) : callers.backWithin fuel name = names := by
  induction back generalizing fuel with
  | entry noted =>
    cases fuel with
    | zero => rfl
    | succ fuel => simp only [backWithin, noted]
  | @call name caller rest noted back ih =>
    cases fuel with
    | zero =>
      have some : rest ≠ [] := by
        intro empty
        have first := back.head
        simp [empty] at first
      have positive := List.length_pos_iff.mpr some
      rw [List.length_cons] at enough
      omega
    | succ fuel =>
      rw [List.length_cons] at enough
      simp only [backWithin, noted, ih (Nat.le_of_succ_le_succ enough)]

theorem trail_eq (back : Back callers name names) : callers.trail name = names.reverse := by
  rw [trail, back.backWithin_eq (Nat.le_succ_of_le back.length_le)]

end Back

/-- What a note says is so. -/
def Fits (graph : CallGraph) (config : LinkConfig) (name : String) : Option String → Prop
  | none => name ∈ graph.entryPoints
  | some caller => graph.Calls config caller name

namespace Grown
variable {graph : CallGraph} {config : LinkConfig} {callers : Callers} {name : String}

theorem nodup (grown : Grown graph config callers) : callers.names.Nodup := by
  have extend {callers : Callers} {note : String × Option String}
      (distinct : callers.names.Nodup) (fresh : ¬callers.reached note.1) :
      (names (callers ++ [note])).Nodup := by
    rw [names_append, names, names, List.map_singleton, ← List.concat_eq_append]
    exact List.Nodup.concat (fun member => fresh (reached_iff.mpr member)) distinct
  induction grown with
  | start => exact List.nodup_nil
  | entry _ fresh _ _ ih => exact extend ih fresh
  | call _ fresh _ _ _ ih => exact extend ih fresh

theorem reachable (grown : Grown graph config callers) (known : callers.reached name) :
    graph.Reachable config name := by
  induction grown generalizing name with
  | start => contradiction
  | entry _ _ listed plain ih =>
    rcases reached_concat.mp known with old | rfl
    · exact ih old
    · exact .entry listed plain
  | call _ _ knownCaller calls plain ih =>
    rcases reached_concat.mp known with old | rfl
    · exact ih old
    · exact .call (ih knownCaller) calls plain

theorem fits (grown : Grown graph config callers) {caller : Option String}
    (noted : callers.lookup name = some caller) : Fits graph config name caller := by
  have last {callers : Callers} {note : String × Option String}
      (noted : List.lookup name (callers ++ [note]) = some caller) :
      callers.lookup name = some caller ∨ name = note.1 ∧ caller = note.2 := by
    obtain ⟨newest, itsCaller⟩ := note
    rw [List.lookup_append, Option.or_eq_some_iff] at noted
    rcases noted with old | ⟨_, new⟩
    · exact Or.inl old
    · by_cases same : name = newest
      · rw [same, List.lookup_cons_self, Option.some.injEq] at new
        exact Or.inr ⟨same, new.symm⟩
      · rw [List.lookup_cons, beq_false_of_ne same] at new
        contradiction
  induction grown with
  | start => simp at noted
  | entry _ _ listed _ ih =>
    rcases last noted with old | ⟨rfl, rfl⟩
    · exact ih old
    · exact listed
  | call _ _ _ calls _ ih =>
    rcases last noted with old | ⟨rfl, rfl⟩
    · exact ih old
    · exact calls

theorem back (grown : Grown graph config callers) (known : callers.reached name) :
    ∃ names, Back callers name names := by
  induction grown generalizing name with
  | start => contradiction
  | entry _ fresh _ _ ih =>
    rcases reached_concat.mp known with old | rfl
    · obtain ⟨names, back⟩ := ih old
      exact ⟨names, back.append _⟩
    · exact ⟨_, .entry (lookup_last fresh)⟩
  | call _ fresh knownCaller _ _ ih =>
    rcases reached_concat.mp known with old | rfl
    · obtain ⟨names, back⟩ := ih old
      exact ⟨names, back.append _⟩
    · obtain ⟨names, back⟩ := ih knownCaller
      exact ⟨_, .call (lookup_last fresh) (back.append _)⟩

/-- A trail is as good as final as soon as its name is noted. -/
theorem trail_append (grown : Grown graph config callers) (more : Callers)
    (known : callers.reached name) : trail (callers ++ more) name = callers.trail name := by
  obtain ⟨names, back⟩ := grown.back known
  rw [back.trail_eq, (back.append more).trail_eq]

theorem trail_entry (fresh : ¬callers.reached name) :
    trail (callers ++ [(name, none)]) name = [name] :=
  (Back.entry (lookup_last fresh)).trail_eq

theorem trail_call (grown : Grown graph config callers) {caller : String}
    (fresh : ¬callers.reached name) (known : callers.reached caller) :
    trail (callers ++ [(name, some caller)]) name = callers.trail caller ++ [name] := by
  obtain ⟨names, back⟩ := grown.back known
  have longer := Back.call (lookup_last fresh) (back.append [(name, some caller)])
  rw [longer.trail_eq, back.trail_eq, List.reverse_cons]

end Grown

end LinkGate.Callers
