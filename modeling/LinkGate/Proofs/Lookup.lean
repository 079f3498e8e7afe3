/-!
# Looking names up

Named values stand in a list, of which `List.lookup` takes the first with the name.
-/

set_option autoImplicit false

namespace LinkGate
variable {κ α : Type} [BEq κ] [LawfulBEq κ]

theorem mem_of_lookup {name : κ} {value : α} {entries : List (κ × α)}
    (found : entries.lookup name = some value) : (name, value) ∈ entries := by
  obtain ⟨front, back, rfl, -⟩ := List.lookup_eq_some_iff.mp found
  exact List.mem_append_right front List.mem_cons_self

theorem lookup_eq_none_iff {name : κ} {entries : List (κ × α)} :
    entries.lookup name = none ↔ name ∉ entries.map (·.1) := by
  rw [List.lookup_eq_none_iff]
  simp only [bne_iff_ne, List.mem_map, not_exists, not_and]
  exact ⟨fun other entry mem same => other entry mem same.symm,
    fun other entry mem same => other entry mem same.symm⟩

theorem exists_lookup {name : κ} {entries : List (κ × α)}
    (present : name ∈ entries.map (·.1)) : ∃ value, entries.lookup name = some value := by
  cases found : entries.lookup name with
  | none => exact absurd present (lookup_eq_none_iff.mp found)
  | some value => exact ⟨value, rfl⟩

variable [DecidableEq κ]

theorem lookup_cons_eq (first other : κ) (value : α) (rest : List (κ × α)) :
    ((first, value) :: rest).lookup other =
      if other = first then some value else rest.lookup other := by
  rw [List.lookup_cons]
  by_cases same : other = first
  · rw [if_pos same, beq_iff_eq.mpr same]
  · rw [if_neg same, beq_false_of_ne same]

/-- Where no name stands twice, each value is the one that is found. -/
theorem lookup_of_mem {name : κ} {value : α} {entries : List (κ × α)}
    (distinct : (entries.map (·.1)).Nodup) (mem : (name, value) ∈ entries) :
    entries.lookup name = some value := by
  induction entries with
  | nil => cases mem
  | cons entry rest ih =>
    obtain ⟨first, held⟩ := entry
    rw [List.map_cons, List.nodup_cons] at distinct
    rw [lookup_cons_eq]
    rcases List.mem_cons.mp mem with same | later
    · obtain ⟨rfl, rfl⟩ := Prod.mk.inj same
      rw [if_pos rfl]
    · have other : name ≠ first := by
        rintro rfl
        exact distinct.1 (List.mem_map.mpr ⟨_, later, rfl⟩)
      rw [if_neg other]
      exact ih distinct.2 later

theorem lookup_filter_ne (name other : κ) (entries : List (κ × α)) :
    (entries.filter fun entry => entry.1 != name).lookup other =
      if other = name then none else entries.lookup other := by
  induction entries with
  | nil => rw [List.filter_nil, List.lookup_nil, ite_self]
  | cons entry rest ih =>
    obtain ⟨first, value⟩ := entry
    rw [List.filter_cons, lookup_cons_eq]
    by_cases dropped : first = name
    · rw [if_neg (by simpa using dropped), ih, dropped]
      by_cases same : other = name
      · rw [if_pos same, if_pos same]
      · rw [if_neg same, if_neg same, if_neg same]
    · rw [if_pos (by simpa using dropped), lookup_cons_eq, ih]
      by_cases same : other = first
      · have apart : other ≠ name := fun equal => dropped (same.symm.trans equal)
        rw [if_pos same, if_pos same, if_neg apart]
      · rw [if_neg same, if_neg same]

end LinkGate
