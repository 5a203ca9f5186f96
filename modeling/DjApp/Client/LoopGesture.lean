import DjApp.Client.DeckComponent
import DjApp.Client.StateHistory

/-! A loop gesture that is cancelled, beside the run in which it was never started: the two
runs differ in the loop of the deck alone, and the stash puts back the loop of the start. -/

set_option autoImplicit false

namespace DjApp.Client

open Library

/-!
## Decks up to their loop
-/

/-- The same state, but for the loop. -/
def PlaybackState.withLoop (state : PlaybackState) (loop : Option LoopPoints) : PlaybackState :=
  { state with loop := loop }

@[simp] theorem PlaybackState.withLoop_self (state : PlaybackState) :
    state.withLoop state.loop = state := rfl

theorem PlaybackState.merge_withLoop (state : PlaybackState) (loop : Option LoopPoints)
    (delta : StateDelta) : (state.withLoop loop).merge delta =
      (state.merge delta).withLoop (delta.loop.getD loop) := rfl

namespace StateManager

def withLoop (manager : StateManager) (deck : DeckId) (loop : Option LoopPoints) : StateManager :=
  ⟨Function.update manager.states deck ((manager.getState deck).withLoop loop)⟩

variable {manager : StateManager} {deck : DeckId} {loop : Option LoopPoints}

theorem ext_getState {left right : StateManager}
    (same : ∀ name, left.getState name = right.getState name) : left = right := by
  cases left
  cases right
  exact congrArg StateManager.mk (funext same)

@[simp] theorem getState_withLoop_self :
    (manager.withLoop deck loop).getState deck = (manager.getState deck).withLoop loop :=
  Function.update_self ..

theorem getState_withLoop_of_ne {other : DeckId} (different : other ≠ deck) :
    (manager.withLoop deck loop).getState other = manager.getState other :=
  Function.update_of_ne different ..

theorem withLoop_loop : manager.withLoop deck (manager.getState deck).loop = manager := by
  apply ext_getState
  intro name
  by_cases named : name = deck
  · subst named
    rw [getState_withLoop_self, PlaybackState.withLoop_self]
  · exact getState_withLoop_of_ne named

theorem getState_applyDelta {delta : StateDelta} (present : delta.empty = false)
    (source : DeltaSource) (name : DeckId) :
    (manager.applyDelta delta source).1.getState name =
      if name = delta.deck then (manager.getState name).merge (manager.prepare delta source)
      else manager.getState name := by
  rw [getState, states_applyDelta present, StateDelta.onto, deck_prepare]
  split
  · rename_i named
    subst named
    exact Function.update_self ..
  · rename_i other
    exact Function.update_of_ne other ..

theorem prepare_loop (delta : StateDelta) (source : DeltaSource) :
    (manager.prepare delta source).loop = delta.loop.map clampLoop := by
  unfold prepare StateDelta.withPosition
  split <;> rfl

theorem prepare_trackId (delta : StateDelta) (source : DeltaSource) :
    (manager.prepare delta source).trackId = delta.trackId := by
  unfold prepare StateDelta.withPosition
  split <;> rfl

theorem prepare_withLoop (delta : StateDelta) (source : DeltaSource) :
    (manager.withLoop deck loop).prepare delta source = manager.prepare delta source := by
  by_cases named : delta.deck = deck
  · subst named
    rw [prepare, getState_withLoop_self]
    rfl
  · rw [prepare, getState_withLoop_of_ne named]
    rfl

def loopAfter (deck : DeckId) (delta : StateDelta) (loop : Option LoopPoints) : Option LoopPoints :=
  if delta.deck = deck then (delta.loop.map clampLoop).getD loop else loop

theorem loopAfter_of_empty {delta : StateDelta} (empty : delta.empty = true) :
    loopAfter deck delta loop = loop := by
  have absent : delta.loop = none := by
    simp only [StateDelta.empty, Bool.and_eq_true, Option.isNone_iff_eq_none] at empty
    exact empty.1.2
  rw [loopAfter, absent, Option.map_none, Option.getD_none, ite_self]

theorem loop_applyDelta (delta : StateDelta) (source : DeltaSource) :
    ((manager.applyDelta delta source).1.getState deck).loop =
      loopAfter deck delta (manager.getState deck).loop := by
  cases present : delta.empty with
  | true => rw [applyDelta_of_empty manager source present, loopAfter_of_empty present]
  | false =>
      rw [getState_applyDelta present, loopAfter]
      by_cases named : delta.deck = deck
      · rw [if_pos named.symm, if_pos named, ← @prepare_loop manager delta source]
        rfl
      · rw [if_neg (Ne.symm named), if_neg named]

theorem applyDelta_withLoop (delta : StateDelta) (source : DeltaSource) :
    ((manager.withLoop deck loop).applyDelta delta source).1 =
      (manager.applyDelta delta source).1.withLoop deck (loopAfter deck delta loop) := by
  cases present : delta.empty with
  | true =>
      rw [applyDelta_of_empty _ source present, applyDelta_of_empty _ source present,
        loopAfter_of_empty present]
  | false =>
      apply ext_getState
      intro name
      rw [getState_applyDelta present, prepare_withLoop]
      by_cases named : name = deck
      · subst named
        rw [getState_withLoop_self, getState_withLoop_self, getState_applyDelta present, loopAfter]
        by_cases given : delta.deck = name
        · rw [if_pos given.symm, if_pos given.symm, if_pos given, PlaybackState.merge_withLoop,
            prepare_loop]
        · rw [if_neg (Ne.symm given), if_neg (Ne.symm given), if_neg given]
      · rw [getState_withLoop_of_ne named, getState_withLoop_of_ne named,
          getState_applyDelta present]

end StateManager

theorem StateManager.applyDelta_loop (manager : StateManager) (deck : DeckId)
    (loop : Option LoopPoints) (source : DeltaSource) :
    (manager.applyDelta { deck, loop := some loop } source).1 =
      manager.withLoop deck (clampLoop loop) := by
  apply ext_getState
  intro name
  rw [getState_applyDelta rfl]
  by_cases named : name = deck
  · subst named
    rw [if_pos rfl, getState_withLoop_self, prepare, StateDelta.withPosition,
      if_neg fun starts => Option.some_ne_none true starts.2.1.symm]
    rfl
  · rw [if_neg named, getState_withLoop_of_ne named]

/-!
## The controls of a deck
-/

namespace DeckComponent

variable {fl : ℚ → ℚ} {getTrackMetadata : String → Option TrackMetadata}

theorem applyDelta_cases (component : DeckComponent) (nowMs : ℚ) (delta : StateDelta)
    (source : DeltaSource) :
    let stateManager := (component.stateManager.applyDelta delta source).1
    (delta.empty = true ∨ delta.deck ≠ component.deck) ∧
        component.applyDelta fl getTrackMetadata nowMs delta source =
          { component with stateManager } ∨
      (delta.empty = false ∧ delta.deck = component.deck) ∧
        component.applyDelta fl getTrackMetadata nowMs delta source =
          { component with stateManager }.rebaseAnchorAndRefresh fl getTrackMetadata nowMs
            (component.stateManager.prepare delta source)
            (stateManager.getState component.deck) := by
  intro stateManager
  cases present : delta.empty with
  | true =>
      refine .inl ⟨.inl rfl, ?_⟩
      simp only [applyDelta, stateManager, StateManager.applyDelta_of_empty _ source present]
  | false =>
      by_cases named : delta.deck = component.deck
      · have stored := @StateManager.getState_applyDelta component.stateManager delta present source
          component.deck
        rw [if_pos named.symm] at stored
        refine .inr ⟨⟨rfl, named⟩, ?_⟩
        simp only [stateManager, stored]
        simp only [applyDelta, StateManager.applyDelta, present, Bool.false_eq_true, ↓reduceIte,
          deck_prepare, named]
      · refine .inl ⟨.inr named, ?_⟩
        simp only [stateManager, applyDelta, StateManager.applyDelta, present, Bool.false_eq_true,
          ↓reduceIte, deck_prepare, if_neg named]

section Fields

variable (component : DeckComponent) (nowMs : ℚ) (delta : StateDelta) (source : DeltaSource)

/-- The listener leaves what the component is about, and who may control it. -/
theorem applyDelta_kept :
    (component.applyDelta fl getTrackMetadata nowMs delta source).stateManager =
        (component.stateManager.applyDelta delta source).1 ∧
      (component.applyDelta fl getTrackMetadata nowMs delta source).deck = component.deck ∧
      (component.applyDelta fl getTrackMetadata nowMs delta source).rolePermitsControl =
        component.rolePermitsControl := by
  rcases component.applyDelta_cases nowMs delta source with ⟨_, same⟩ | ⟨_, same⟩
  · rw [same]
    exact ⟨rfl, rfl, rfl⟩
  · rw [same, rebaseAnchorAndRefresh]
    split
    · exact ⟨rfl, rfl, rfl⟩
    · exact ⟨rfl, rfl, rfl⟩

@[simp] theorem applyDelta_stateManager :
    (component.applyDelta fl getTrackMetadata nowMs delta source).stateManager =
      (component.stateManager.applyDelta delta source).1 :=
  (component.applyDelta_kept nowMs delta source).1

@[simp] theorem applyDelta_deck :
    (component.applyDelta fl getTrackMetadata nowMs delta source).deck = component.deck :=
  (component.applyDelta_kept nowMs delta source).2.1

@[simp] theorem applyDelta_rolePermitsControl :
    (component.applyDelta fl getTrackMetadata nowMs delta source).rolePermitsControl =
      component.rolePermitsControl :=
  (component.applyDelta_kept nowMs delta source).2.2

/-- A change that brings no new track lets a gesture go on. -/
theorem applyDelta_gesture (sameTrack : delta.deck = component.deck → delta.trackId = none) :
    (component.applyDelta fl getTrackMetadata nowMs delta source).pendingLoopInSeconds =
        component.pendingLoopInSeconds ∧
      (component.applyDelta fl getTrackMetadata nowMs delta source).stashedLoopOnArm =
        component.stashedLoopOnArm := by
  rcases component.applyDelta_cases nowMs delta source with ⟨_, same⟩ | ⟨⟨_, named⟩, same⟩
  · rw [same]
    exact ⟨rfl, rfl⟩
  · have kept : (component.stateManager.prepare delta source).trackId.isSome = false := by
      rw [StateManager.prepare_trackId, sameTrack named, Option.isSome_none]
    rw [same, rebaseAnchorAndRefresh, if_neg (Bool.eq_false_iff.mp kept)]
    exact ⟨rfl, rfl⟩

theorem applyDelta_controlEnabled :
    (component.applyDelta fl getTrackMetadata nowMs delta source).controlEnabled =
      if delta.empty = false ∧ delta.deck = component.deck then
        deckControlEnabled
          (((component.stateManager.applyDelta delta source).1.getState component.deck).trackId ≠ "")
          component.rolePermitsControl
      else component.controlEnabled := by
  rcases component.applyDelta_cases nowMs delta source with ⟨unheard, same⟩ | ⟨heard, same⟩
  · have silent : ¬ (delta.empty = false ∧ delta.deck = component.deck) := by
      rintro ⟨present, named⟩
      rcases unheard with empty | other
      · exact absurd present (by simp [empty])
      · exact other named
    rw [same, if_neg silent]
  · rw [same, if_pos heard, rebaseAnchorAndRefresh]
    split <;> rfl

theorem handle_deck (input : Input) :
    (component.handle fl getTrackMetadata nowMs input).deck = component.deck := by
  have cancelled : (component.cancelPendingLoopIn fl getTrackMetadata nowMs).deck =
      component.deck := by
    unfold cancelPendingLoopIn
    cases component.stashedLoopOnArm with
    | none => rfl
    | some loop => exact applyDelta_deck ..
  cases input with
  | applyDelta delta source => exact applyDelta_deck ..
  | setControlsEnabled enabled => rfl
  | playPause resumePosition => exact applyDelta_deck ..
  | repeatToggle => exact applyDelta_deck ..
  | loopIn =>
      simp only [handle, onLoopInClicked]
      split
      · exact cancelled
      · split
        · exact applyDelta_deck ..
        · rfl
  | loopOut =>
      simp only [handle, onLoopOutClicked]
      split
      · rfl
      · split
        · exact applyDelta_deck ..
        · exact cancelled
  | loopClear => exact applyDelta_deck ..

theorem run_deck (events : List (ℚ × Input)) :
    (component.run fl getTrackMetadata events).deck = component.deck := by
  induction events generalizing component with
  | nil => rfl
  | cons event events ih =>
      apply (ih (component.step fl getTrackMetadata event)).trans
      unfold step
      split
      · exact handle_deck ..
      · rfl

end Fields

/-!
## Pending gestures
-/

/-- What holds of a component between two inputs. -/
structure Settled (component : DeckComponent) : Prop where
  inRange : component.stateManager.InRange
  controlEnabled : component.controlEnabled =
    deckControlEnabled ((component.stateManager.getState component.deck).trackId ≠ "")
      component.rolePermitsControl

section Settled

variable {component : DeckComponent}

theorem settled_create {manager : StateManager} (inRange : manager.InRange) (deck : DeckId)
    (nowMs : ℚ) : (create getTrackMetadata manager deck nowMs).Settled :=
  ⟨inRange, rfl⟩

theorem Settled.resetPendingLoopIn (settled : component.Settled) :
    component.resetPendingLoopIn.Settled :=
  ⟨settled.inRange, settled.controlEnabled⟩

theorem Settled.setControlsEnabled (settled : component.Settled) (enabled : Bool) :
    (component.setControlsEnabled getTrackMetadata enabled).Settled :=
  ⟨settled.inRange, rfl⟩

theorem Settled.applyDelta (settled : component.Settled) (nowMs : ℚ) (delta : StateDelta)
    (source : DeltaSource) :
    (component.applyDelta fl getTrackMetadata nowMs delta source).Settled where
  inRange := by
    rw [applyDelta_stateManager]
    exact settled.inRange.call (delta, source)
  controlEnabled := by
    rw [applyDelta_controlEnabled, applyDelta_stateManager, applyDelta_deck,
      applyDelta_rolePermitsControl]
    split
    · rfl
    · rename_i unheard
      rw [settled.controlEnabled]
      cases present : delta.empty with
      | true => rw [StateManager.applyDelta_of_empty _ source present]
      | false =>
          have other : component.deck ≠ delta.deck := fun named => unheard ⟨present, named.symm⟩
          rw [StateManager.getState_applyDelta present, if_neg other]

theorem Settled.cancelPendingLoopIn (settled : component.Settled) (nowMs : ℚ) :
    (component.cancelPendingLoopIn fl getTrackMetadata nowMs).Settled := by
  unfold DeckComponent.cancelPendingLoopIn
  cases component.stashedLoopOnArm with
  | none => exact settled.resetPendingLoopIn
  | some loop => exact (settled.applyDelta nowMs _ _).resetPendingLoopIn

theorem Settled.handle (settled : component.Settled) (nowMs : ℚ) (input : Input) :
    (component.handle fl getTrackMetadata nowMs input).Settled := by
  cases input with
  | applyDelta delta source => exact settled.applyDelta nowMs delta source
  | setControlsEnabled enabled => exact settled.setControlsEnabled enabled
  | playPause resumePosition => exact settled.applyDelta nowMs _ _
  | repeatToggle =>
      simp only [DeckComponent.handle, onRepeatToggled]
      exact settled.applyDelta nowMs _ _
  | loopIn =>
      simp only [DeckComponent.handle, onLoopInClicked]
      split
      · exact settled.cancelPendingLoopIn nowMs
      · split
        · have armed : Settled { component with
              pendingLoopInSeconds := some (component.currentDisplayPositionSeconds fl nowMs)
              stashedLoopOnArm := component.loop } := ⟨settled.inRange, settled.controlEnabled⟩
          have cleared := @Settled.applyDelta fl getTrackMetadata _ armed nowMs
            { deck := component.deck, loop := some none } .own
          exact ⟨cleared.inRange, cleared.controlEnabled⟩
        · exact ⟨settled.inRange, settled.controlEnabled⟩
  | loopOut =>
      simp only [DeckComponent.handle, onLoopOutClicked]
      split
      · exact settled
      · split
        · exact (settled.applyDelta nowMs _ _).resetPendingLoopIn
        · exact settled.cancelPendingLoopIn nowMs
  | loopClear =>
      simp only [DeckComponent.handle, onLoopClearClicked]
      exact settled.resetPendingLoopIn.applyDelta nowMs _ _

theorem Settled.step (settled : component.Settled) (event : ℚ × Input) :
    (component.step fl getTrackMetadata event).Settled := by
  unfold DeckComponent.step
  split
  · exact settled.handle event.1 event.2
  · exact settled

theorem Settled.run (settled : component.Settled) (events : List (ℚ × Input)) :
    (component.run fl getTrackMetadata events).Settled := by
  induction events generalizing component with
  | nil => exact settled
  | cons event events ih => exact ih (settled.step event)

end Settled

/-!
## A run beside its shadow
-/

/-- What may reach the component while a gesture stays armed. -/
def Input.Continues (deck : DeckId) : Input → Prop
  | .applyDelta delta _ => delta.deck = deck → delta.trackId = none
  | .setControlsEnabled _ => True
  | .playPause _ => True
  | .repeatToggle => True
  | .loopIn => False
  | .loopOut => False
  | .loopClear => False

/-- The loop that an input brings to a deck, as the state takes it. -/
def Input.carriedLoop (deck : DeckId) : Input → Option (Option LoopPoints)
  | .applyDelta delta _ => if delta.deck = deck then delta.loop.map clampLoop else none
  | _ => none

def lastCarriedLoop (deck : DeckId) (events : List (ℚ × Input)) : Option (Option LoopPoints) :=
  (events.filterMap fun event => event.2.carriedLoop deck).getLast?

theorem lastCarriedLoop_concat (deck : DeckId) (events : List (ℚ × Input)) (event : ℚ × Input) :
    lastCarriedLoop deck (events ++ [event]) =
      (event.2.carriedLoop deck).or (lastCarriedLoop deck events) := by
  rw [lastCarriedLoop, List.filterMap_append]
  cases carried : event.2.carriedLoop deck with
  | none => simp [carried, lastCarriedLoop]
  | some loop => simp [carried]

theorem loopAfter_carried (deck : DeckId) (delta : StateDelta) (source : DeltaSource)
    (carried : Option (Option LoopPoints)) (loop : Option LoopPoints) :
    StateManager.loopAfter deck delta (carried.getD loop) =
      (((Input.applyDelta delta source).carriedLoop deck).or carried).getD loop := by
  by_cases named : delta.deck = deck
  · rw [StateManager.loopAfter, if_pos named, Input.carriedLoop, if_pos named]
    cases delta.loop <;> rfl
  · rw [StateManager.loopAfter, if_neg named, Input.carriedLoop, if_neg named, Option.none_or]

/-- A Loop In click here arms a gesture. -/
def Arms (component : DeckComponent) : Prop :=
  component.controlEnabled = true ∧ component.pendingLoopInSeconds = none

/-- A click that ends a gesture without a new loop. -/
def Cancels (fl : ℚ → ℚ) (component : DeckComponent) (nowMs : ℚ) : Input → Prop
  | .loopIn => component.controlEnabled = true
  | .loopOut => component.loopOutEnabled = true ∧
      ∀ inPosition, component.pendingLoopInSeconds = some inPosition →
        component.currentDisplayPositionSeconds fl nowMs ≤ inPosition
  | _ => False

/-- A component with an armed gesture, beside the same component without the gesture, after
inputs that brought at most the loop `carried`. -/
structure Shadows (stash : Option LoopPoints) (carried : Option (Option LoopPoints))
    (armed plain : DeckComponent) : Prop where
  armedSettled : armed.Settled
  plainSettled : plain.Settled
  deck : armed.deck = plain.deck
  rolePermitsControl : armed.rolePermitsControl = plain.rolePermitsControl
  pending : armed.pendingLoopInSeconds.isSome = true
  stashed : armed.stashedLoopOnArm = stash
  stateManager : armed.stateManager = plain.stateManager.withLoop plain.deck (carried.getD none)
  loop : plain.loop = carried.getD stash

section Gesture

variable {stash : Option LoopPoints} {carried : Option (Option LoopPoints)}
  {armed plain component : DeckComponent}

/-- The click that arms stashes the loop of the deck and clears it. -/
theorem shadows_step_loopIn (settled : component.Settled) (arms : component.Arms) (nowMs : ℚ) :
    Shadows component.loop none (component.step fl getTrackMetadata (nowMs, .loopIn))
      component := by
  obtain ⟨enabled, idle⟩ := arms
  have settledArmed := @Settled.step fl getTrackMetadata _ settled (nowMs, .loopIn)
  have taken : component.step fl getTrackMetadata (nowMs, .loopIn) =
      component.onLoopInClicked fl getTrackMetadata nowMs := if_pos enabled
  rw [taken] at settledArmed ⊢
  simp only [onLoopInClicked, idle] at settledArmed ⊢
  cases stash : (component.stateManager.getState component.deck).loop with
  | none =>
      simp only [stash] at settledArmed ⊢
      have kept : component.stateManager.withLoop component.deck none = component.stateManager := by
        rw [← stash, StateManager.withLoop_loop]
      exact ⟨settledArmed, settled, rfl, rfl, rfl, stash.symm, kept.symm, rfl⟩
  | some loop =>
      simp only [stash] at settledArmed ⊢
      obtain ⟨pendingKept, stashKept⟩ := @applyDelta_gesture fl getTrackMetadata
        { component with
          pendingLoopInSeconds := some (component.currentDisplayPositionSeconds fl nowMs)
          stashedLoopOnArm := some loop } nowMs
        { deck := component.deck, loop := some none } .own (fun _ => rfl)
      refine ⟨settledArmed, settled, applyDelta_deck .., applyDelta_rolePermitsControl .., ?_, ?_,
        ?_, rfl⟩
      · exact congrArg Option.isSome pendingKept
      · exact stashKept.trans stash.symm
      · exact (applyDelta_stateManager ..).trans (StateManager.applyDelta_loop ..)

theorem Shadows.controlEnabled (shadows : Shadows stash carried armed plain) :
    armed.controlEnabled = plain.controlEnabled := by
  rw [shadows.armedSettled.controlEnabled, shadows.plainSettled.controlEnabled,
    shadows.rolePermitsControl, shadows.deck, shadows.stateManager,
    StateManager.getState_withLoop_self]
  rfl

theorem Shadows.applyDelta (shadows : Shadows stash carried armed plain) (nowMs : ℚ)
    {delta : StateDelta} (sameTrack : delta.deck = plain.deck → delta.trackId = none)
    (source : DeltaSource) :
    Shadows stash (((Input.applyDelta delta source).carriedLoop plain.deck).or carried)
      (armed.applyDelta fl getTrackMetadata nowMs delta source)
      (plain.applyDelta fl getTrackMetadata nowMs delta source) := by
  obtain ⟨pending, stashed⟩ := @applyDelta_gesture fl getTrackMetadata armed nowMs delta source
    (by rwa [shadows.deck])
  constructor
  · exact shadows.armedSettled.applyDelta nowMs delta source
  · exact shadows.plainSettled.applyDelta nowMs delta source
  · rw [applyDelta_deck, applyDelta_deck, shadows.deck]
  · rw [applyDelta_rolePermitsControl, applyDelta_rolePermitsControl, shadows.rolePermitsControl]
  · rw [pending, shadows.pending]
  · rw [stashed, shadows.stashed]
  · rw [applyDelta_stateManager, applyDelta_stateManager, applyDelta_deck, shadows.stateManager,
      StateManager.applyDelta_withLoop, loopAfter_carried plain.deck delta source]
  · have carriedOn := @StateManager.loop_applyDelta plain.stateManager plain.deck delta source
    rw [DeckComponent.loop, applyDelta_stateManager, applyDelta_deck, carriedOn,
      ← loopAfter_carried plain.deck delta source, ← shadows.loop]
    rfl

/-- Both components change their own playback or repeat alike. -/
theorem Shadows.applyDelta_own (shadows : Shadows stash carried armed plain) (nowMs : ℚ)
    {delta : StateDelta} (sameTrack : delta.trackId = none) (loopless : delta.loop = none) :
    Shadows stash carried (armed.applyDelta fl getTrackMetadata nowMs delta .own)
      (plain.applyDelta fl getTrackMetadata nowMs delta .own) := by
  have changed := @Shadows.applyDelta fl getTrackMetadata _ _ _ _ shadows nowMs delta
    (fun _ => sameTrack) .own
  rwa [Input.carriedLoop, loopless, Option.map_none, ite_self, Option.none_or] at changed

theorem Shadows.setControlsEnabled (shadows : Shadows stash carried armed plain) (enabled : Bool) :
    Shadows stash carried (armed.setControlsEnabled getTrackMetadata enabled)
      (plain.setControlsEnabled getTrackMetadata enabled) where
  armedSettled := shadows.armedSettled.setControlsEnabled enabled
  plainSettled := shadows.plainSettled.setControlsEnabled enabled
  deck := shadows.deck
  rolePermitsControl := rfl
  pending := shadows.pending
  stashed := shadows.stashed
  stateManager := shadows.stateManager
  loop := shadows.loop

theorem Shadows.handle (shadows : Shadows stash carried armed plain) (nowMs : ℚ) {input : Input}
    (continues : input.Continues plain.deck) :
    Shadows stash ((input.carriedLoop plain.deck).or carried)
      (armed.handle fl getTrackMetadata nowMs input)
      (plain.handle fl getTrackMetadata nowMs input) := by
  have state : armed.stateManager.getState armed.deck =
      (plain.stateManager.getState plain.deck).withLoop (carried.getD none) := by
    rw [shadows.deck, shadows.stateManager, StateManager.getState_withLoop_self]
  cases input with
  | applyDelta delta source => exact shadows.applyDelta nowMs continues source
  | setControlsEnabled enabled => exact shadows.setControlsEnabled enabled
  | playPause resumePosition =>
      have playing : (armed.stateManager.getState armed.deck).playing =
          (plain.stateManager.getState plain.deck).playing := by
        rw [state]
        rfl
      simp only [DeckComponent.handle, togglePlayPause]
      rw [playing, shadows.deck]
      change Shadows stash carried _ _
      split
      · exact shadows.applyDelta_own nowMs rfl rfl
      · exact shadows.applyDelta_own nowMs rfl rfl
  | repeatToggle =>
      have repeats : (armed.stateManager.getState armed.deck).repeats =
          (plain.stateManager.getState plain.deck).repeats := by
        rw [state]
        rfl
      simp only [DeckComponent.handle, onRepeatToggled]
      rw [repeats, shadows.deck]
      exact shadows.applyDelta_own nowMs rfl rfl
  | loopIn => exact continues.elim
  | loopOut => exact continues.elim
  | loopClear => exact continues.elim

theorem carriedLoop_of_not_accepts {input : Input} (refused : component.accepts input = false)
    (deck : DeckId) : input.carriedLoop deck = none := by
  cases input with
  | applyDelta delta source => cases refused
  | _ => rfl

theorem Shadows.step (shadows : Shadows stash carried armed plain) {event : ℚ × Input}
    (continues : event.2.Continues plain.deck) :
    Shadows stash ((event.2.carriedLoop plain.deck).or carried)
      (armed.step fl getTrackMetadata event) (plain.step fl getTrackMetadata event) := by
  have accepted : armed.accepts event.2 = plain.accepts event.2 := by
    cases input : event.2 with
    | loopOut =>
        rw [input] at continues
        exact continues.elim
    | applyDelta delta source => rfl
    | setControlsEnabled enabled => rfl
    | playPause resumePosition => exact shadows.controlEnabled
    | repeatToggle => exact shadows.controlEnabled
    | loopIn => exact shadows.controlEnabled
    | loopClear => exact shadows.controlEnabled
  unfold DeckComponent.step
  rw [accepted]
  cases taken : plain.accepts event.2 with
  | true => exact shadows.handle event.1 continues
  | false =>
      rw [carriedLoop_of_not_accepts taken, Option.none_or]
      exact shadows

theorem Shadows.run {events : List (ℚ × Input)} (shadows : Shadows stash none armed plain)
    (continues : ∀ event ∈ events, event.2.Continues plain.deck) :
    Shadows stash (lastCarriedLoop plain.deck events) (armed.run fl getTrackMetadata events)
      (plain.run fl getTrackMetadata events) := by
  induction events using List.reverseRecOn with
  | nil => exact shadows
  | append_singleton events event ih =>
      have earlier := ih fun other member => continues other (List.mem_append_left _ member)
      have deck : (plain.run fl getTrackMetadata events).deck = plain.deck := run_deck ..
      have last := continues event (List.mem_append_right _ (List.mem_singleton_self event))
      rw [← deck] at last
      have next := @Shadows.step fl getTrackMetadata _ _ _ _ earlier event last
      rw [deck, ← lastCarriedLoop_concat] at next
      rw [DeckComponent.run, DeckComponent.run, List.foldl_append, List.foldl_append]
      exact next

theorem Shadows.loop_cancelPendingLoopIn (shadows : Shadows stash carried armed plain)
    (sound : ∀ points, stash = some points → points.InRange) (nowMs : ℚ) :
    (armed.cancelPendingLoopIn fl getTrackMetadata nowMs).loop =
      if stash = none then carried.getD none else stash := by
  unfold cancelPendingLoopIn
  rw [shadows.stashed]
  cases stash with
  | none =>
      change (armed.stateManager.getState armed.deck).loop = _
      rw [shadows.deck, shadows.stateManager, StateManager.getState_withLoop_self]
      rfl
  | some points =>
      change (StateManager.getState (DeckComponent.applyDelta ..).stateManager
        (DeckComponent.applyDelta ..).deck).loop = _
      rw [applyDelta_stateManager, applyDelta_deck, StateManager.applyDelta_loop,
        StateManager.getState_withLoop_self, if_neg (Option.some_ne_none points)]
      exact (sound points rfl).clampLoop

theorem Shadows.loop_step_cancels (shadows : Shadows stash carried armed plain)
    (sound : ∀ points, stash = some points → points.InRange) {nowMs : ℚ} {input : Input}
    (cancels : armed.Cancels fl nowMs input) :
    (armed.step fl getTrackMetadata (nowMs, input)).loop =
      if stash = none then carried.getD none else stash := by
  obtain ⟨inPosition, pending⟩ := Option.isSome_iff_exists.mp shadows.pending
  have cancelled := @Shadows.loop_cancelPendingLoopIn fl getTrackMetadata _ _ _ _ shadows sound nowMs
  cases input with
  | loopIn =>
      have enabled : armed.controlEnabled = true := cancels
      simpa only [DeckComponent.step, accepts, enabled, ↓reduceIte, DeckComponent.handle,
        onLoopInClicked, pending] using cancelled
  | loopOut =>
      obtain ⟨enabled, behind⟩ := cancels
      have before := not_lt.mpr (behind inPosition pending)
      simpa only [DeckComponent.step, accepts, enabled, ↓reduceIte, DeckComponent.handle,
        onLoopOutClicked, pending, if_neg before] using cancelled
  | applyDelta delta source => exact cancels.elim
  | setControlsEnabled enabled => exact cancels.elim
  | playPause resumePosition => exact cancels.elim
  | repeatToggle => exact cancels.elim
  | loopClear => exact cancels.elim

end Gesture

/-!
## Cancelled gestures
-/

/-- A component of a running application. -/
def Reachable (fl : ℚ → ℚ) (getTrackMetadata : String → Option TrackMetadata)
    (component : DeckComponent) : Prop :=
  ∃ calls deck nowMs events, component =
    (create getTrackMetadata (Machine.run StateManager.call .initial calls) deck nowMs).run fl
      getTrackMetadata events

theorem Reachable.settled {component : DeckComponent}
    (reachable : component.Reachable fl getTrackMetadata) : component.Settled := by
  obtain ⟨calls, deck, nowMs, events, rfl⟩ := reachable
  have start : StateManager.initial.InRange := fun _ => inRange_default
  have inRange := Machine.run_invariant StateManager.call StateManager.InRange
    (fun _ call within => within.call call) start calls
  exact (settled_create inRange deck nowMs).run events

/-- A gesture that is cancelled leaves the loop that the same inputs leave without it, exactly
if the deck had no loop to stash, or no input brought it a loop, or the last one it was brought
is the one it had. -/
theorem cancelled_gesture_iff {component : DeckComponent}
    (reachable : component.Reachable fl getTrackMetadata) (arms : component.Arms)
    (armedAt endedAt : ℚ) {between : List (ℚ × Input)} {last : Input}
    (continues : ∀ event ∈ between, event.2.Continues component.deck)
    (cancels : (component.run fl getTrackMetadata ((armedAt, .loopIn) :: between)).Cancels fl
      endedAt last) :
    (component.run fl getTrackMetadata ((armedAt, .loopIn) :: between ++ [(endedAt, last)])).loop =
        (component.run fl getTrackMetadata between).loop ↔
      component.loop = none ∨ lastCarriedLoop component.deck between = none ∨
        lastCarriedLoop component.deck between = some component.loop := by
  have settled := reachable.settled
  have start := @shadows_step_loopIn fl getTrackMetadata _ settled arms armedAt
  have shadows := @Shadows.run fl getTrackMetadata _ _ _ between start continues
  have ended := @Shadows.loop_step_cancels fl getTrackMetadata _ _ _ _ shadows
    (settled.inRange component.deck).loop _ _ cancels
  have split : component.run fl getTrackMetadata
      ((armedAt, .loopIn) :: between ++ [(endedAt, last)]) =
        (component.run fl getTrackMetadata ((armedAt, .loopIn) :: between)).step fl
          getTrackMetadata (endedAt, last) := by
    rw [DeckComponent.run, List.foldl_append]
    rfl
  rw [split, shadows.loop]
  apply (Eq.congr_left ended).trans
  generalize component.loop = stash
  generalize lastCarriedLoop component.deck between = carried
  cases stash with
  | none => simp
  | some points =>
      rw [if_neg (Option.some_ne_none points)]
      cases carried with
      | none => simp
      | some loop => simp [eq_comm]

def looping : DeckComponent :=
  create (fun _ => none) (Machine.run StateManager.call .initial
    [({ deck := .A, trackId := some "song", loop := some (some ⟨1, 2⟩) }, .own)]) .A 0

theorem looping_reachable (fl : ℚ → ℚ) : looping.Reachable fl fun _ => none :=
  ⟨_, .A, 0, [], rfl⟩

def louder : List (ℚ × Input) :=
  [(1000, .applyDelta { deck := .A, gain := some (.ofDouble 2) } .remote)]

theorem cancelled_gesture_iff_louder :
    looping.loop = some ⟨1, 2⟩ ∧
      (looping.run BinaryRounding.double (fun _ => none)
        ((0, .loopIn) :: louder ++ [(2000, .loopOut)])).loop =
        (looping.run BinaryRounding.double (fun _ => none) louder).loop := by
  have continues : ∀ event ∈ louder, event.2.Continues looping.deck := by
    intro event member
    cases List.mem_singleton.mp member
    exact fun _ => rfl
  have cancels : (looping.run BinaryRounding.double (fun _ => none)
      ((0, .loopIn) :: louder)).Cancels BinaryRounding.double 2000 .loopOut := by
    have start : (looping.run BinaryRounding.double (fun _ => none)
        ((0, .loopIn) :: louder)).pendingLoopInSeconds = some 0 := by decide +kernel
    refine ⟨by decide +kernel, fun inPosition pending => ?_⟩
    cases start.symm.trans pending
    decide +kernel
  refine ⟨by decide +kernel, ?_⟩
  exact (cancelled_gesture_iff (looping_reachable _) ⟨rfl, rfl⟩ 0 2000 continues cancels).mpr
    (.inr (.inl rfl))

/-- While the gesture is armed, another peer takes over, loops elsewhere and lets go. -/
def takeover : List (ℚ × Input) :=
  [(1000, .setControlsEnabled false),
    (2000, .applyDelta { deck := .A, loop := some (some ⟨5, 6⟩) } .remote),
    (3000, .setControlsEnabled true)]

/-- The cancelled gesture puts the loop of before over the controller's. -/
theorem stash_overwrites_loop :
    (looping.Reachable BinaryRounding.double (fun _ => none) ∧ looping.Arms ∧
      (∀ event ∈ takeover, event.2.Continues looping.deck) ∧
      (looping.run BinaryRounding.double (fun _ => none) ((0, .loopIn) :: takeover)).Cancels
        BinaryRounding.double 4000 .loopIn) ∧
    (looping.run BinaryRounding.double (fun _ => none)
      ((0, .loopIn) :: takeover ++ [(4000, .loopIn)])).loop = some ⟨1, 2⟩ ∧
    (looping.run BinaryRounding.double (fun _ => none) takeover).loop = some ⟨5, 6⟩ := by
  refine ⟨⟨looping_reachable _, ⟨rfl, rfl⟩, ?_, ?_⟩, by decide +kernel, by decide +kernel⟩
  · intro event member
    simp only [takeover, List.mem_cons, List.not_mem_nil, or_false] at member
    rcases member with rfl | rfl | rfl
    · trivial
    · exact fun _ => rfl
    · trivial
  · change (looping.run BinaryRounding.double (fun _ => none)
      ((0, .loopIn) :: takeover)).controlEnabled = true
    decide +kernel

end DeckComponent

end DjApp.Client
