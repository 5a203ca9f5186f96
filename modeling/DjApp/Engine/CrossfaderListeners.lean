import DjApp.Client.Reentrancy
import DjApp.Engine.Mixer

/-! The listeners of the crossfader, which may move it from inside their callbacks. -/

set_option autoImplicit false

namespace DjApp.Engine

open Client

namespace CrossfaderState

/-- `setPosition` tells its listeners of a change, until the position is another one than it has
set. -/
def announcer : Announcer CrossfaderState Single Single where
  update crossfader position :=
    let (moved, changed) := crossfader.setPosition position
    (moved, if changed then some moved.position else none)
  superseded targetPosition crossfader := crossfader.position ≠ targetPosition

theorem announcer_tells :
    Observed.Announcer.Tells announcer CrossfaderState.position fun _ => true where
  silent before position after updated := by
    by_cases same : position.clamp (.ofDouble 0) (.ofDouble 1) = before.position
    · simp only [announcer, setPosition, if_pos same] at updated
      cases updated
      rfl
    · simp [announcer, setPosition, if_neg same] at updated
  untold _ _ _ _ _ quiet := by cases quiet
  superseded before position after targetPosition updated _ state gone := by
    by_cases same : position.clamp (.ofDouble 0) (.ofDouble 1) = before.position
    · simp [announcer, setPosition, if_pos same] at updated
    · simp only [announcer, setPosition, if_neg same, ↓reduceIte, Prod.mk.injEq,
        Option.some.injEq] at updated
      obtain ⟨rfl, rfl⟩ := updated
      simpa [announcer] using gone

/-- Whatever the listeners do in their callbacks, when a call of `setPosition` that moves the
crossfader returns, each listener that was registered before it and has not been removed was
last called with the position that the crossfader has now. -/
theorem listeners_converge (callbacks : Observed.Callbacks CrossfaderState Single Single)
    (fuel : ℕ) (before after : Observed CrossfaderState Single) (position : Single)
    (moves : position.clamp (.ofDouble 0) (.ofDouble 1) ≠ before.state.position)
    (returned : Observed.perform announcer callbacks fuel before (.update position) =
      some after) :
    ∀ token ∈ before.list.listeners, token ∈ after.list.listeners →
      ∃ call, Observed.lastCall (fun _ => true) token (before.since after) = some call ∧
        call.state.position = after.state.position := by
  have told : announcer.update before.state position =
      ((before.state.setPosition position).1,
        some (before.state.setPosition position).1.position) := by
    simp only [announcer, setPosition, if_neg moves, ↓reduceIte]
  intro token earlier later
  exact announcer_tells.allTold told rfl returned earlier later

/-- Three listeners, of which the first moves the crossfader back from the right half. -/
def threeListeners : Observed CrossfaderState Single where
  state := {}
  list := (default : TokenListenerList).addListener.addListener.addListener

def movesBack : Observed.Callbacks CrossfaderState Single Single := fun calls =>
  match calls.getLast? with
  | some call =>
      if call.token = 0 ∧ 1 / 2 < call.state.position.value then [.update (.ofDouble (1 / 4))]
      else []
  | none => []

theorem listeners_converge_movesBack :
    ∃ after, Observed.perform announcer movesBack 5 threeListeners (.update (.ofDouble 1)) =
        some after ∧
      ∀ token ∈ threeListeners.list.listeners, token ∈ after.list.listeners →
        ∃ call, Observed.lastCall (fun _ => true) token (threeListeners.since after) = some call ∧
          call.state.position = after.state.position := by
  have returns : (Observed.perform announcer movesBack 5 threeListeners
      (.update (.ofDouble 1))).isSome = true := by decide +kernel
  obtain ⟨after, returned⟩ := Option.isSome_iff_exists.mp returns
  refine ⟨after, returned, listeners_converge movesBack 5 threeListeners after (.ofDouble 1) ?_
    returned⟩
  decide +kernel

end CrossfaderState

end DjApp.Engine
