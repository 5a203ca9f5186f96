import DjApp.Client.StateManager
import DjApp.Engine.BufferPlaybackSource
import DjApp.Library.Machine

/-! The adapter that drives one deck's engine from the deltas of the state manager. -/

set_option autoImplicit false

namespace DjApp.Engine

open Library
open Client

/-- The result of `getAudioBuffer` for each track id at one moment. -/
abbrev AudioRepository := String → Option LoadedAudio

structure BeatGrid where
  bpm : ℚ := 0
  firstBeatSeconds : ℚ := 0
  deriving DecidableEq

structure CrossfaderGains where
  gainA : Single
  gainB : Single

/-- `crossfader` holds the equal-power gains of an attached crossfader's position,
`polling` whether the timer of the self-stop check runs. -/
structure EngineAdapter where
  deck : DeckId
  crossfader : Option CrossfaderGains := none
  beatDetector : Option (LoadedAudio → BeatGrid) := none
  cachedBeatGrid : BeatGrid := {}
  lastAnalyzedTrackId : String := ""
  polling : Bool := false

namespace EngineAdapter

def effectiveGain (adapter : EngineAdapter) (gain : Single) : Single :=
  match adapter.crossfader with
  | none => .ofDouble (gain.value * 1)
  | some gains =>
      let multiplier := if adapter.deck = .A then gains.gainA else gains.gainB
      .ofDouble (gain.value * multiplier.value)

/-- The buffer loaded for a track id: none to clear the track or if it is missing. -/
def resolve (repository : AudioRepository) (trackId : String) : Option LoadedAudio :=
  if trackId = "" then none else repository trackId

def analyze (adapter : EngineAdapter) (trackId : String) (loaded : Option LoadedAudio) :
    EngineAdapter :=
  match loaded with
  | none => { adapter with cachedBeatGrid := {}, lastAnalyzedTrackId := "" }
  | some audio =>
      match adapter.beatDetector with
      | none => adapter
      | some detector =>
          if trackId = adapter.lastAnalyzedTrackId then adapter
          else { adapter with cachedBeatGrid := detector audio, lastAnalyzedTrackId := trackId }

/-- The calls for the track of a delta. -/
def trackCalls (repository : AudioRepository) (applied : StateDelta) : List EngineCall :=
  applied.trackId.toList.map fun trackId => .load (resolve repository trackId)

/-- The calls for the fields that touch neither the buffer nor the loop. -/
def parameterCalls (adapter : EngineAdapter) (applied : StateDelta) : List EngineCall :=
  (applied.gain.toList.map fun gain => .setGain (adapter.effectiveGain gain)) ++
    applied.playbackRate.toList.map .setPlaybackRate ++
    applied.pitchOffsetSemitones.toList.map .setPitchOffsetSemitones

/-- The engine calls of one delta, in the order of the source. -/
def calls (adapter : EngineAdapter) (repository : AudioRepository) (applied : StateDelta) :
    List EngineCall :=
  if applied.deck ≠ adapter.deck then []
  else
    trackCalls repository applied ++
      applied.positionSeconds.toList.map .seek ++
      adapter.parameterCalls applied ++
      applied.loop.toList.map .setLoop ++
      applied.repeats.toList.map .setRepeat ++
      applied.playing.toList.map fun playing => if playing then .play else .pause

def handleDelta (adapter : EngineAdapter) (repository : AudioRepository) (applied : StateDelta) :
    EngineAdapter × List EngineCall :=
  let analyzed := match applied.trackId with
    | none => adapter
    | some trackId => adapter.analyze trackId (resolve repository trackId)
  (if applied.deck ≠ adapter.deck then adapter
    else { analyzed with polling := applied.playing.getD adapter.polling },
    adapter.calls repository applied)

end EngineAdapter

/-- One deck: the state manager, the adapter and the source it drives. -/
structure DeckEngine where
  manager : StateManager
  adapter : EngineAdapter
  source : BufferPlaybackSource

/-- A delta, and what the repository has at the time. -/
structure DeckInput where
  delta : StateDelta
  source : DeltaSource
  repository : AudioRepository

def DeckEngine.initial (adapter : EngineAdapter) : DeckEngine := ⟨.initial, adapter, .initial⟩

def DeckEngine.step (engine : DeckEngine) (input : DeckInput) : DeckEngine × List EngineCall :=
  match engine.manager.applyDelta input.delta input.source with
  | (manager, none) => ({ engine with manager := manager }, [])
  | (manager, some notification) =>
      let (adapter, calls) := engine.adapter.handleDelta input.repository notification.applied
      (⟨manager, adapter, calls.foldl .perform engine.source⟩, calls)

def DeckEngine.state (engine : DeckEngine) : PlaybackState :=
  engine.manager.getState engine.adapter.deck

end DjApp.Engine
