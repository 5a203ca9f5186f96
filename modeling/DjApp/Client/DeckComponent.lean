import DjApp.Client.LocalFileRepository
import DjApp.Client.StateManager
import DjApp.Engine.Rendering

/-! One deck's controls: the playhead they extrapolate between two changes of the state, and
the gesture by which Loop In and Loop Out mark a loop. -/

set_option autoImplicit false

namespace DjApp.Client

open Engine (wrapPositionWithinRange)

/-- The shared state manager stands beside the component that listens to it. -/
structure DeckComponent where
  stateManager : StateManager
  deck : DeckId
  anchorPositionSeconds : ℚ := 0
  anchorTimestampMs : ℚ := 0
  anchorRate : Single := .ofDouble 1
  anchorPlaying : Bool := false
  anchorLoop : Option LoopPoints := none
  anchorRepeat : Bool := false
  pendingLoopInSeconds : Option ℚ := none
  stashedLoopOnArm : Option LoopPoints := none
  rolePermitsControl : Bool := true
  -- The end of the position slider's range.
  positionSliderMaximum : ℚ := 0
  -- The buttons share one switch, apart from Loop Out.
  controlEnabled : Bool := false
  loopOutEnabled : Bool := false

def deckControlEnabled (hasTrack rolePermitsControl : Bool) : Bool := hasTrack && rolePermitsControl

namespace DeckComponent

section Handlers

variable (fl : ℚ → ℚ) (getTrackMetadata : String → Option TrackMetadata)

/-- A loop confines the playhead; without one, repeat wraps it around the whole track. -/
def currentDisplayPositionSeconds (component : DeckComponent) (nowMs : ℚ) : ℚ :=
  let position :=
    if component.anchorPlaying then
      let elapsedSeconds := fl (fl (nowMs - component.anchorTimestampMs) / 1000)
      fl (component.anchorPositionSeconds + fl (elapsedSeconds * component.anchorRate.value))
    else component.anchorPositionSeconds
  match component.anchorLoop with
  | some loop =>
      let duration := component.positionSliderMaximum
      let clampedIn :=
        if 0 < duration ∧ duration < loop.inSeconds then duration else loop.inSeconds
      let clampedOut :=
        if 0 < duration ∧ duration < loop.outSeconds then duration else loop.outSeconds
      wrapPositionWithinRange fl position clampedIn clampedOut
  | none =>
      if component.anchorRepeat then
        wrapPositionWithinRange fl position 0 component.positionSliderMaximum
      else position

def refreshWidgets (component : DeckComponent) (state : PlaybackState) : DeckComponent :=
  let duration :=
    if state.trackId = "" then 0
    else ((getTrackMetadata state.trackId).map (·.durationSeconds)).getD 0
  let controlEnabled := deckControlEnabled (state.trackId ≠ "") component.rolePermitsControl
  { component with
    positionSliderMaximum := duration
    controlEnabled
    loopOutEnabled := controlEnabled && component.pendingLoopInSeconds.isSome }

def resetPendingLoopIn (component : DeckComponent) : DeckComponent :=
  { component with
    pendingLoopInSeconds := none
    stashedLoopOnArm := none
    loopOutEnabled := false }

def create (stateManager : StateManager) (deck : DeckId) (nowMs : ℚ) : DeckComponent :=
  let state := stateManager.getState deck
  refreshWidgets getTrackMetadata
    { stateManager, deck
      anchorPositionSeconds := state.positionSeconds
      anchorTimestampMs := nowMs
      anchorRate := state.playbackRate
      anchorPlaying := state.playing
      anchorLoop := state.loop
      anchorRepeat := state.repeats }
    state

def setControlsEnabled (component : DeckComponent) (enabled : Bool) : DeckComponent :=
  { component with rolePermitsControl := enabled }.refreshWidgets getTrackMetadata
    (component.stateManager.getState component.deck)

/-- A new track or position moves the anchor there; any other change keeps the playhead where
it was. Only a new track ends a gesture. -/
def rebaseAnchorAndRefresh (component : DeckComponent) (nowMs : ℚ) (applied : StateDelta)
    (newState : PlaybackState) : DeckComponent :=
  let anchorPositionSeconds :=
    if applied.trackId.isSome || applied.positionSeconds.isSome then newState.positionSeconds
    else component.currentDisplayPositionSeconds fl nowMs
  let component := { component with
    anchorPositionSeconds
    anchorTimestampMs := nowMs
    anchorRate := newState.playbackRate
    anchorPlaying := newState.playing
    anchorLoop := newState.loop
    anchorRepeat := newState.repeats }
  let component := if applied.trackId.isSome then component.resetPendingLoopIn else component
  component.refreshWidgets getTrackMetadata newState

/-- A change of the state, with the call of this component's listener. -/
def applyDelta (component : DeckComponent) (nowMs : ℚ) (delta : StateDelta)
    (source : DeltaSource) : DeckComponent :=
  match component.stateManager.applyDelta delta source with
  | (stateManager, none) => { component with stateManager }
  | (stateManager, some notification) =>
      let component := { component with stateManager }
      if notification.applied.deck = component.deck then
        component.rebaseAnchorAndRefresh fl getTrackMetadata nowMs notification.applied
          notification.newState
      else component

def togglePlayPause (component : DeckComponent) (nowMs resumePosition : ℚ) : DeckComponent :=
  let delta : StateDelta :=
    if (component.stateManager.getState component.deck).playing then
      { deck := component.deck, playing := some false }
    else { deck := component.deck, positionSeconds := some resumePosition, playing := some true }
  component.applyDelta fl getTrackMetadata nowMs delta .own

def onRepeatToggled (component : DeckComponent) (nowMs : ℚ) : DeckComponent :=
  component.applyDelta fl getTrackMetadata nowMs
    { deck := component.deck
      repeats := some !(component.stateManager.getState component.deck).repeats } .own

/-- The stash goes back to the state, over whatever loop is there. -/
def cancelPendingLoopIn (component : DeckComponent) (nowMs : ℚ) : DeckComponent :=
  let component := match component.stashedLoopOnArm with
    | some loop =>
        component.applyDelta fl getTrackMetadata nowMs
          { deck := component.deck, loop := some (some loop) } .own
    | none => component
  component.resetPendingLoopIn

/-- Arms the gesture, with the active loop stashed and cleared; or cancels an armed one. -/
def onLoopInClicked (component : DeckComponent) (nowMs : ℚ) : DeckComponent :=
  match component.pendingLoopInSeconds with
  | some _ => component.cancelPendingLoopIn fl getTrackMetadata nowMs
  | none =>
      let loop := (component.stateManager.getState component.deck).loop
      let component := { component with
        pendingLoopInSeconds := some (component.currentDisplayPositionSeconds fl nowMs)
        stashedLoopOnArm := loop }
      let component := match loop with
        | some _ =>
            component.applyDelta fl getTrackMetadata nowMs
              { deck := component.deck, loop := some none } .own
        | none => component
      { component with
        loopOutEnabled := (component.stateManager.getState component.deck).trackId ≠ "" &&
          component.rolePermitsControl }

/-- Completes the gesture, unless the playhead has not passed the in-point. -/
def onLoopOutClicked (component : DeckComponent) (nowMs : ℚ) : DeckComponent :=
  match component.pendingLoopInSeconds with
  | none => component
  | some inPosition =>
      let outPosition := component.currentDisplayPositionSeconds fl nowMs
      if inPosition < outPosition then
        (component.applyDelta fl getTrackMetadata nowMs
          { deck := component.deck, loop := some (some ⟨inPosition, outPosition⟩) }
          .own).resetPendingLoopIn
      else component.cancelPendingLoopIn fl getTrackMetadata nowMs

def onLoopClearClicked (component : DeckComponent) (nowMs : ℚ) : DeckComponent :=
  component.resetPendingLoopIn.applyDelta fl getTrackMetadata nowMs
    { deck := component.deck, loop := some none } .own

/-- What reaches the component. The sliders and the sync button send changes of their own. -/
inductive Input where
  | applyDelta (delta : StateDelta) (source : DeltaSource)
  | setControlsEnabled (enabled : Bool)
  | playPause (resumePosition : ℚ)
  | repeatToggle
  | loopIn
  | loopOut
  | loopClear

/-- A disabled button takes no click. -/
def accepts (component : DeckComponent) : Input → Bool
  | .applyDelta _ _ => true
  | .setControlsEnabled _ => true
  | .loopOut => component.loopOutEnabled
  | .playPause _ | .repeatToggle | .loopIn | .loopClear => component.controlEnabled

def handle (component : DeckComponent) (nowMs : ℚ) : Input → DeckComponent
  | .applyDelta delta source => component.applyDelta fl getTrackMetadata nowMs delta source
  | .setControlsEnabled enabled => component.setControlsEnabled getTrackMetadata enabled
  | .playPause resumePosition =>
      component.togglePlayPause fl getTrackMetadata nowMs resumePosition
  | .repeatToggle => component.onRepeatToggled fl getTrackMetadata nowMs
  | .loopIn => component.onLoopInClicked fl getTrackMetadata nowMs
  | .loopOut => component.onLoopOutClicked fl getTrackMetadata nowMs
  | .loopClear => component.onLoopClearClicked fl getTrackMetadata nowMs

def step (component : DeckComponent) (event : ℚ × Input) : DeckComponent :=
  if component.accepts event.2 then component.handle fl getTrackMetadata event.1 event.2
  else component

def run (component : DeckComponent) (events : List (ℚ × Input)) : DeckComponent :=
  events.foldl (step fl getTrackMetadata) component

end Handlers

def loop (component : DeckComponent) : Option LoopPoints :=
  (component.stateManager.getState component.deck).loop

end DeckComponent

end DjApp.Client
