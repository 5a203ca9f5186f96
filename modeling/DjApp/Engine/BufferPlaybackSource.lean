import DjApp.Client.Types

/-! The playback source of one deck, as its message thread drives it: buffer hand-over,
the pending seek, the loop slots and the parameters the audio thread reads. -/

set_option autoImplicit false

namespace DjApp.Engine

open Library.BinaryRounding (double)
open Client (Single LoopPoints)

/-- A decoded track: one list of samples for each channel, all of one length. -/
structure LoadedAudio where
  numSamples : ℕ
  sampleRate : ℚ
  channels : List (List Single)
  shaped : ∀ channel ∈ channels, channel.length = numSamples
  deriving DecidableEq

def LoadedAudio.silence (numSamples : ℕ) (sampleRate : ℚ) : LoadedAudio :=
  ⟨numSamples, sampleRate, [List.replicate numSamples (.ofDouble 0)], by simp⟩

/-- The calls of the `AudioEngine` interface that change the engine. -/
inductive EngineCall where
  | load (audio : Option LoadedAudio)
  | play
  | pause
  | seek (seconds : ℚ)
  | setGain (linearGain : Single)
  | setPlaybackRate (rate : Single)
  | setPitchOffsetSemitones (semitones : Single)
  | setLoop (loop : Option LoopPoints)
  | setRepeat (repeats : Bool)
  deriving DecidableEq

structure LoopState where
  active : Bool := false
  inSamples : ℚ := 0
  outSamples : ℚ := 0
  deriving DecidableEq

structure BufferPlaybackSource where
  playing : Bool := false
  gain : Single := .ofDouble 1
  rate : Single := .ofDouble 1
  repeats : Bool := true
  pitchOffsetSemitones : Single := .ofDouble 0
  positionSamples : ℚ := 0
  pendingSeekSamples : ℚ := 0
  seekPending : Bool := false
  forceStretcherReset : Bool := false
  loopSlots : Fin 2 → LoopState := fun _ => {}
  activeLoopSlot : Fin 2 := 0
  activeBuffer : Option LoadedAudio := none
  renderGeneration : ℕ := 0
  messageThreadSampleRate : ℚ := 0
  messageThreadCurrentBuffer : Option LoadedAudio := none
  retireList : List (ℕ × LoadedAudio) := []

namespace BufferPlaybackSource

def initial : BufferPlaybackSource := {}

def retireMargin : ℕ := 4

def retireStaleBuffers (source : BufferPlaybackSource) : BufferPlaybackSource :=
  { source with
    retireList := source.retireList.filter fun entry =>
      !(retireMargin < source.renderGeneration - entry.1) }

/-- Writes the inactive slot and then makes it the active one. -/
def publishLoop (source : BufferPlaybackSource) (state : LoopState) : BufferPlaybackSource :=
  let inactiveLoopSlot := 1 - source.activeLoopSlot
  { source with
    loopSlots := Function.update source.loopSlots inactiveLoopSlot state
    activeLoopSlot := inactiveLoopSlot }

def activeLoop (source : BufferPlaybackSource) : LoopState := source.loopSlots source.activeLoopSlot

/-- Resets the position to 0 and clears the loop; `repeats` survives a track change. -/
def load (source : BufferPlaybackSource) (audio : Option LoadedAudio) : BufferPlaybackSource :=
  let source := source.retireStaleBuffers
  let source := { source with
    forceStretcherReset := true
    messageThreadSampleRate := audio.elim 0 LoadedAudio.sampleRate
    pendingSeekSamples := 0
    seekPending := true }
  let source := source.publishLoop {}
  { source with
    activeBuffer := audio
    retireList := source.retireList ++
      source.messageThreadCurrentBuffer.toList.map fun replaced => (source.renderGeneration, replaced)
    messageThreadCurrentBuffer := audio }

/-- The slot written for a loop of the current buffer. -/
def loopStateFor (source : BufferPlaybackSource) (loop : Option LoopPoints) : LoopState :=
  match loop with
  | none => {}
  | some points =>
      if 0 < source.messageThreadSampleRate then
        let inSamples := double (points.inSeconds * source.messageThreadSampleRate)
        let outSamples := double (points.outSeconds * source.messageThreadSampleRate)
        match source.messageThreadCurrentBuffer with
        | none => ⟨true, inSamples, outSamples⟩
        | some audio =>
            let lastRenderableFrame : ℚ := (audio.numSamples : ℚ) - 1
            ⟨true, min inSamples lastRenderableFrame, min outSamples lastRenderableFrame⟩
      else {}

def setLoop (source : BufferPlaybackSource) (loop : Option LoopPoints) : BufferPlaybackSource :=
  source.publishLoop (source.loopStateFor loop)

/-- Only a distance of more than a second resets the stretcher. -/
def requestSeek (source : BufferPlaybackSource) (seconds : ℚ) : BufferPlaybackSource :=
  let samples := if 0 < source.messageThreadSampleRate then
    double (seconds * source.messageThreadSampleRate) else 0
  { source with
    forceStretcherReset := source.forceStretcherReset ||
      (source.messageThreadSampleRate < |double (samples - source.positionSamples)| : Bool)
    pendingSeekSamples := samples
    seekPending := true }

/-- `JuceAudioEngine` hands each call of the interface to its playback source. -/
def perform (source : BufferPlaybackSource) : EngineCall → BufferPlaybackSource
  | .load audio => source.load audio
  | .play => { source with playing := true }
  | .pause => { source with playing := false }
  | .seek seconds => source.requestSeek seconds
  | .setGain linearGain => { source with gain := linearGain }
  | .setPlaybackRate rate => { source with rate := rate }
  | .setPitchOffsetSemitones semitones => { source with pitchOffsetSemitones := semitones }
  | .setLoop loop => source.setLoop loop
  | .setRepeat repeats => { source with repeats := repeats }

end BufferPlaybackSource

theorem activeLoop_publishLoop (source : BufferPlaybackSource) (state : LoopState) :
    (source.publishLoop state).activeLoop = state := by
  simp [BufferPlaybackSource.publishLoop, BufferPlaybackSource.activeLoop]

theorem activeLoop_load (source : BufferPlaybackSource) (audio : Option LoadedAudio) :
    (source.load audio).activeLoop = {} := by
  simp [BufferPlaybackSource.load, BufferPlaybackSource.publishLoop,
    BufferPlaybackSource.activeLoop]

end DjApp.Engine
