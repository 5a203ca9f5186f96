import DjApp.Client.Ranges

/-! The canonical local state, one per deck: every change is clamped, merged and then
announced to the listeners with its source. -/

set_option autoImplicit false

namespace DjApp.Client

/-- `local` is spelled `own` here. -/
inductive DeltaSource where
  | own
  | remote
  deriving DecidableEq

def PlaybackState.merge (state : PlaybackState) (delta : StateDelta) : PlaybackState where
  trackId := delta.trackId.getD state.trackId
  playing := delta.playing.getD state.playing
  positionSeconds := delta.positionSeconds.getD state.positionSeconds
  gain := delta.gain.getD state.gain
  playbackRate := delta.playbackRate.getD state.playbackRate
  pitchOffsetSemitones := delta.pitchOffsetSemitones.getD state.pitchOffsetSemitones
  loop := delta.loop.getD state.loop
  repeats := delta.repeats.getD state.repeats

/-- A delta that starts playback carries a position: an own one gets the stored one. -/
def StateDelta.withPosition (delta : StateDelta) (source : DeltaSource) (state : PlaybackState) :
    StateDelta :=
  if source = .own ∧ delta.playing = some true ∧ delta.positionSeconds = none then
    { delta with positionSeconds := some state.positionSeconds }
  else delta

structure StateManager where
  states : DeckId → PlaybackState

/-- What a listener is called with. -/
structure Notification where
  applied : StateDelta
  newState : PlaybackState
  source : DeltaSource
  deriving DecidableEq

namespace StateManager

def initial : StateManager := ⟨fun _ => {}⟩

def getState (manager : StateManager) (deck : DeckId) : PlaybackState := manager.states deck

/-- The delta that reaches the state and the listeners. -/
def prepare (manager : StateManager) (delta : StateDelta) (source : DeltaSource) : StateDelta :=
  delta.clamp.withPosition source (manager.getState delta.deck)

/-- The state after a delta, with the call of each listener; an empty delta is dropped. -/
def applyDelta (manager : StateManager) (delta : StateDelta) (source : DeltaSource) :
    StateManager × Option Notification :=
  if delta.empty then (manager, none)
  else
    let applied := manager.prepare delta source
    let newState := (manager.getState delta.deck).merge applied
    (⟨Function.update manager.states delta.deck newState⟩, some ⟨applied, newState, source⟩)

end StateManager

end DjApp.Client
