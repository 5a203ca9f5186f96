import DjApp.Engine.EngineAdapter

/-! The two decks of a client with the engine of each, and the crossfader between them. -/

set_option autoImplicit false

namespace DjApp.Engine

open Client

/-- The position is 0 at deck A and 1 at deck B; it never leaves the client. -/
structure CrossfaderState where
  position : Single := .ofDouble (1 / 2)
  lower : 0 ≤ position.value := by decide +kernel
  upper : position.value ≤ 1 := by decide +kernel

theorem clamp_unit (position : Single) :
    0 ≤ (position.clamp (.ofDouble 0) (.ofDouble 1)).value ∧
      (position.clamp (.ofDouble 0) (.ofDouble 1)).value ≤ 1 := by
  have zero : (Single.ofDouble 0).value = 0 := by decide +kernel
  have one : (Single.ofDouble 1).value = 1 := by decide +kernel
  unfold Single.clamp
  rw [zero, one]
  split
  · rw [zero]
    norm_num
  · split
    · rw [one]
      norm_num
    · exact ⟨by linarith, by linarith⟩

/-- The new state, and whether the listeners are told. -/
def CrossfaderState.setPosition (crossfader : CrossfaderState) (position : Single) :
    CrossfaderState × Bool :=
  let clamped := position.clamp (.ofDouble 0) (.ofDouble 1)
  if clamped = crossfader.position then (crossfader, false)
  else (⟨clamped, (clamp_unit position).1, (clamp_unit position).2⟩, true)

/-- The gain of one deck's side of the crossfader. -/
def CrossfaderGains.multiplier (gains : CrossfaderGains) (deck : DeckId) : Single :=
  if deck = .A then gains.gainA else gains.gainB

namespace EngineAdapter

variable (equalPowerCrossfade : Single → CrossfaderGains)

/-- An attached crossfader is read at its current position whenever a gain is pushed. -/
def reading (adapter : EngineAdapter) (crossfader : CrossfaderState) : EngineAdapter :=
  { adapter with crossfader := some (equalPowerCrossfade crossfader.position) }

def pushEffectiveGain (adapter : EngineAdapter) (gain : Single) : EngineCall :=
  .setGain (adapter.effectiveGain gain)

def attachBeatDetector (adapter : EngineAdapter) (detector : LoadedAudio → BeatGrid) :
    EngineAdapter :=
  { adapter with beatDetector := some detector }

/-- The grid of what is loaded, for the sync button. -/
def currentBeatGrid (adapter : EngineAdapter) : BeatGrid := adapter.cachedBeatGrid

end EngineAdapter

/-- Both adapters listen to one state manager and one crossfader. -/
structure Mixer where
  manager : StateManager
  crossfader : CrossfaderState
  adapters : DeckId → EngineAdapter
  sources : DeckId → BufferPlaybackSource

inductive MixerEvent where
  | delta (delta : StateDelta) (source : DeltaSource)
  | crossfade (position : Single)

namespace Mixer

variable (equalPowerCrossfade : Single → CrossfaderGains) (repository : AudioRepository)

def initial (crossfader : CrossfaderState) : Mixer where
  manager := .initial
  crossfader := crossfader
  adapters deck := { deck }
  sources _ := .initial

/-- Each deck's gain, as its adapter pushes it for the gain in the state. -/
def pushGains (mixer : Mixer) : Mixer :=
  { mixer with
    sources := fun deck => (mixer.sources deck).perform
      ((mixer.adapters deck).pushEffectiveGain (mixer.manager.getState deck).gain) }

def attachCrossfader (mixer : Mixer) : Mixer :=
  pushGains { mixer with
    adapters := fun deck => (mixer.adapters deck).reading equalPowerCrossfade mixer.crossfader }

def attachBeatDetector (mixer : Mixer) (detector : LoadedAudio → BeatGrid) : Mixer :=
  { mixer with adapters := fun deck => (mixer.adapters deck).attachBeatDetector detector }

/-- A state change with both adapters among the listeners. -/
def applyDelta (mixer : Mixer) (delta : StateDelta) (source : DeltaSource) : Mixer :=
  match mixer.manager.applyDelta delta source with
  | (manager, none) => { mixer with manager := manager }
  | (manager, some notification) =>
      { mixer with
        manager := manager
        adapters := fun deck =>
          ((mixer.adapters deck).handleDelta repository notification.applied).1
        sources := fun deck =>
          ((mixer.adapters deck).handleDelta repository notification.applied).2.foldl .perform
            (mixer.sources deck) }

/-- The fader moves; a move that changes nothing tells nobody. -/
def setCrossfader (mixer : Mixer) (position : Single) : Mixer :=
  let (crossfader, changed) := mixer.crossfader.setPosition position
  let moved : Mixer := { mixer with
    crossfader := crossfader
    adapters := fun deck => (mixer.adapters deck).reading equalPowerCrossfade crossfader }
  if changed then moved.pushGains else moved

def step (mixer : Mixer) : MixerEvent → Mixer
  | .delta delta source => mixer.applyDelta repository delta source
  | .crossfade position => mixer.setCrossfader equalPowerCrossfade position

def deckEngine (mixer : Mixer) (deck : DeckId) : DeckEngine :=
  ⟨mixer.manager, mixer.adapters deck, mixer.sources deck⟩

theorem deckEngine_applyDelta (mixer : Mixer) (delta : StateDelta) (source : DeltaSource)
    (deck : DeckId) :
    (mixer.applyDelta repository delta source).deckEngine deck =
      ((mixer.deckEngine deck).step ⟨delta, source, repository⟩).1 := by
  cases empty : delta.empty with
  | true =>
      simp only [applyDelta, DeckEngine.step, StateManager.applyDelta, deckEngine, empty,
        ↓reduceIte]
  | false =>
      simp only [applyDelta, DeckEngine.step, StateManager.applyDelta, deckEngine, empty,
        Bool.false_eq_true, ↓reduceIte]

end Mixer

end DjApp.Engine
