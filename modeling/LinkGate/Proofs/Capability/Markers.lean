import LinkGate.Capability.Basic
import LinkGate.Proofs.Text.Trimmed

/-!
# Which texts name a marker

A text names a marker when it is one of the known spellings with nothing but white space around it.
Only a text that starts like a marker is looked up, but every spelling does, so that no marker is
missed; and every spelling belongs to one capability.
-/

set_option autoImplicit false

namespace LinkGate.Capability

variable {c d : Capability} {text : String}

theorem mem_all (c : Capability) : c ∈ all := by
  cases c <;> decide

/-- The test that comes before the search lets every spelling through. -/
theorem IsMarker.startsLikeMarker (marker : c.IsMarker text) : startsLikeMarker text = true := by
  rcases marker with rfl | rfl <;> cases c <;> decide +kernel

theorem IsMarker.bare (marker : c.IsMarker text) : Bare text := by
  rcases marker with rfl | rfl <;> cases c <;> decide +kernel

/-- A text is a spelling of the marker of at most one capability. -/
theorem IsMarker.unique (first : c.IsMarker text) (second : d.IsMarker text) : c = d := by
  revert second
  rcases first with rfl | rfl <;> cases c <;> cases d <;> decide +kernel

theorem find?_isMarker_eq_some_iff :
    (all.find? fun c => c.IsMarker text) = some c ↔ c.IsMarker text := by
  have sound {d : Capability} (found : (all.find? fun c => c.IsMarker text) = some d) :
      d.IsMarker text := by
    simpa only [decide_eq_true_eq] using List.find?_some found
  refine ⟨sound, fun marker => ?_⟩
  obtain ⟨d, found⟩ : ∃ d, (all.find? fun c => c.IsMarker text) = some d := by
    rw [← Option.isSome_iff_exists, List.find?_isSome]
    exact ⟨c, mem_all c, decide_eq_true marker⟩
  rw [found, (sound found).unique marker]

theorem ofMarker?_eq_find? (target : String) :
    ofMarker? target = all.find? fun c => c.IsMarker (trim target) := by
  rw [ofMarker?]
  split
  case isTrue => rfl
  case isFalse other =>
    refine (List.find?_eq_none.mpr fun c _ marker => ?_).symm
    exact other (of_decide_eq_true marker : c.IsMarker _).startsLikeMarker

theorem ofMarker?_eq_some_iff {target : String} :
    ofMarker? target = some c ↔ ∃ spelling, c.IsMarker spelling ∧ Padded spelling target := by
  rw [ofMarker?_eq_find?, find?_isMarker_eq_some_iff]
  constructor
  · intro marker
    exact ⟨_, marker, padded_trim target⟩
  · rintro ⟨spelling, marker, padded⟩
    rwa [marker.bare.trim_eq padded]

/-- The search needs no test in front of it, it cannot find two capabilities, and it finds one where
a spelling of its marker stands between blanks. -/
theorem marker_found_exactly (target : String) :
    (∃ core, Bare core ∧ Padded core target ∧
      ofMarker? target = all.find? fun c => c.IsMarker core) ∧
      (∀ core c d, IsMarker c core → IsMarker d core → c = d) ∧
      (∀ c : Capability, ofMarker? target = some c ↔
        ∃ spelling, c.IsMarker spelling ∧ Padded spelling target) ∧
      (ofMarker? target = none ↔
        ∀ c : Capability, ∀ spelling, c.IsMarker spelling → ¬Padded spelling target) := by
  refine ⟨?_, fun _ _ _ first second => first.unique second, fun _ => ofMarker?_eq_some_iff, ?_⟩
  · exact ⟨trim target, bare_trim target, padded_trim target, ofMarker?_eq_find? target⟩
  · simp only [Option.eq_none_iff_forall_ne_some, ne_eq, ofMarker?_eq_some_iff, not_exists, not_and]

/-- It is not enough to start like a marker. -/
example : ofMarker? "\u3000nbridge_caps::unsupported::threads\x0B" = some .threads ∧
    ofMarker? "nbridge_unsupported_threads_pool" = none := by
  decide +kernel

end LinkGate.Capability
