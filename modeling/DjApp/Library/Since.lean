import Mathlib.Data.List.Basic
import Mathlib.Tactic.Common

/-! Something has happened and has not been undone since: a property of histories that one
more event settles. -/

set_option autoImplicit false

namespace DjApp.Library

section Since

variable {Event : Type} (happens undoes : Event → Prop)

def Since (history : List Event) : Prop :=
  ∃ earlier event later, history = earlier ++ event :: later ∧ happens event ∧
    ∀ next ∈ later, ¬ undoes next

theorem not_since_nil : ¬ Since happens undoes [] := by
  rintro ⟨earlier, event, later, shape, _⟩
  simp at shape

theorem since_concat {history : List Event} {event : Event} :
    Since happens undoes (history ++ [event]) ↔
      happens event ∨ Since happens undoes history ∧ ¬ undoes event := by
  constructor
  · rintro ⟨earlier, first, later, shape, happened, kept⟩
    rcases List.eq_nil_or_concat later with rfl | ⟨initial, last, rfl⟩
    · obtain ⟨_, same⟩ := List.append_inj' shape rfl
      obtain rfl := List.singleton_inj.mp same
      exact .inl happened
    · rw [List.concat_eq_append, ← List.cons_append, ← List.append_assoc] at shape
      obtain ⟨rfl, same⟩ := List.append_inj' shape rfl
      obtain rfl := List.singleton_inj.mp same
      refine .inr ⟨⟨earlier, first, initial, rfl, happened, fun next member => ?_⟩, ?_⟩
      · exact kept next (by simp [member])
      · exact kept event (by simp)
  · rintro (happened | ⟨⟨earlier, first, later, rfl, happened, kept⟩, stays⟩)
    · exact ⟨history, event, [], rfl, happened, by simp⟩
    · refine ⟨earlier, first, later ++ [event], by simp, happened, ?_⟩
      intro next member
      rcases List.mem_append.mp member with before | last
      · exact kept next before
      · obtain rfl := List.mem_singleton.mp last
        exact stays

end Since

end DjApp.Library
