import DjApp.Engine.BufferPlaybackSource

/-! One block of the audio thread: which source positions it pulls, when it runs dry, and
the position it leaves for the message thread. The samples themselves are left out. -/

set_option autoImplicit false

namespace DjApp.Engine

/-- `std::fmod` of a value that is not negative. -/
def fmod (value modulus : ℚ) : ℚ := value - modulus * ⌊value / modulus⌋

/-- What only the audio thread and the device's preparation touch. -/
structure Renderer where
  deviceSampleRate : ℚ := 0
  -- The size of each scratch buffer, 0 until `prepareToPlay`.
  capacityFrames : ℕ := 0
  pullAccumulator : ℚ := 0
  producedOutputFrames : ℕ := 0
  lastLaggedSourceFrames : ℚ := 0
  outputLatencyFrames : ℕ := 0
  drainFramesRemaining : ℕ := 0

def Renderer.prepareToPlay (renderer : Renderer) (samplesPerBlockExpected : ℕ)
    (sampleRate : ℚ) : Renderer :=
  { renderer with
    deviceSampleRate := sampleRate
    capacityFrames := max samplesPerBlockExpected 512 * 4 + 4096 }

/-- The source positions of the frames that were pulled, and where the head stands. -/
structure Pull where
  frames : List ℚ
  head : ℚ
  ranDry : Bool

section Arithmetic

variable (fl : ℚ → ℚ)

def wrapPositionWithinRange (position rangeStart rangeEnd : ℚ) : ℚ :=
  if rangeStart < rangeEnd ∧ rangeEnd ≤ position then
    fl (rangeStart + fmod (fl (position - rangeStart)) (fl (rangeEnd - rangeStart)))
  else position

/-- The wraps before each frame: the loop first, then the repeat of the whole track. -/
def wrapHead (loop : LoopState) (repeats : Bool) (lastRenderableFrame position : ℚ) : ℚ :=
  let position :=
    if loop.active then wrapPositionWithinRange fl position loop.inSamples loop.outSamples
    else position
  if repeats ∧ lastRenderableFrame ≤ position then
    wrapPositionWithinRange fl position 0 lastRenderableFrame
  else position

/-- The pull loop over the frames still to pull. -/
def pullFrom (loop : LoopState) (repeats : Bool) (lastRenderableFrame ratio : ℚ) :
    ℕ → ℚ → Pull
  | 0, position => ⟨[], position, false⟩
  | remaining + 1, position =>
      let position := wrapHead fl loop repeats lastRenderableFrame position
      if position < 0 ∨ lastRenderableFrame ≤ position then ⟨[], position, true⟩
      else
        let rest := pullFrom loop repeats lastRenderableFrame ratio remaining
          (fl (position + ratio))
        { rest with frames := position :: rest.frames }

/-- The start of a block: a stretcher reset and a seek, if either has been asked for.
`outputLatencyFrames` is the latency of the stretcher once it is prepared for a sample rate,
0 if for none yet; it is read again on a reset only. -/
def takeRequests (outputLatencyFrames : ℚ → ℕ) (source : BufferPlaybackSource) (renderer : Renderer) :
    BufferPlaybackSource × Renderer :=
  ({ source with
      renderGeneration := source.renderGeneration + 1
      forceStretcherReset := false
      positionSamples :=
        if source.seekPending then source.pendingSeekSamples else source.positionSamples
      seekPending := false },
    if source.forceStretcherReset then
      { renderer with
        outputLatencyFrames := outputLatencyFrames renderer.deviceSampleRate
        pullAccumulator := 0
        producedOutputFrames := 0
        lastLaggedSourceFrames := 0
        drainFramesRemaining := 0 }
    else renderer)

/-- The frames to pull for a block, and what is carried to the next one. -/
def pullCount (source : BufferPlaybackSource) (renderer : Renderer) (numOutput : ℕ) : ℕ × ℚ :=
  let accumulated := fl (renderer.pullAccumulator + fl (numOutput * source.rate.value))
  let pullFrames := max 1 ⌊accumulated⌋
  (min pullFrames.toNat renderer.capacityFrames, fl (accumulated - pullFrames))

/-- The drain that remains after a block, and whether it stops playback. -/
def drainAfter (renderer : Renderer) (ranDry : Bool) (numOutput : ℕ) : ℕ × Bool :=
  if ranDry then
    let armed := if renderer.drainFramesRemaining = 0 then renderer.outputLatencyFrames + 1
      else renderer.drainFramesRemaining
    (armed - numOutput, armed - numOutput = 0)
  else (0, false)

def renderBlock (source : BufferPlaybackSource) (renderer : Renderer) (audio : LoadedAudio)
    (numOutput : ℕ) : BufferPlaybackSource × Renderer :=
  let sourceSampleRate := if 0 < audio.sampleRate then audio.sampleRate
    else renderer.deviceSampleRate
  let srcToDeviceRatio := if 0 < renderer.deviceSampleRate then
    fl (sourceSampleRate / renderer.deviceSampleRate) else 1
  let (pullFrames, pullAccumulator) := pullCount fl source renderer numOutput
  let pulled := pullFrom fl source.activeLoop source.repeats ((audio.numSamples : ℚ) - 1)
    srcToDeviceRatio pullFrames (fl (source.positionSamples + renderer.lastLaggedSourceFrames))
  let (drainFramesRemaining, stops) := drainAfter renderer pulled.ranDry numOutput
  let producedOutputFrames := renderer.producedOutputFrames + numOutput
  let laggedOutputFrames : ℕ := min producedOutputFrames renderer.outputLatencyFrames
  let laggedSourceFrames :=
    fl (fl (laggedOutputFrames * source.rate.value) * srcToDeviceRatio)
  ({ source with
      playing := source.playing && !stops
      positionSamples := fl (pulled.head - laggedSourceFrames) },
    { renderer with
      pullAccumulator := pullAccumulator
      producedOutputFrames := producedOutputFrames
      lastLaggedSourceFrames := laggedSourceFrames
      drainFramesRemaining := drainFramesRemaining })

/-- The audio thread renders one block. Without valid audio the source stops playing. -/
def getNextAudioBlock (outputLatencyFrames : ℚ → ℕ) (source : BufferPlaybackSource)
    (renderer : Renderer) (numOutput : ℕ) : BufferPlaybackSource × Renderer :=
  let (source, renderer) := takeRequests outputLatencyFrames source renderer
  match source.activeBuffer with
  | none => ({ source with playing := false }, renderer)
  | some audio =>
      if audio.numSamples = 0 then ({ source with playing := false }, renderer)
      else if source.playing = false then (source, renderer)
      else if numOutput = 0 then (source, renderer)
      else if renderer.capacityFrames = 0 ∨ renderer.capacityFrames < numOutput then
        (source, renderer)
      else renderBlock fl source renderer audio numOutput

/-- `AudioEngine::getCurrentPosition`. -/
def BufferPlaybackSource.getCurrentPositionSeconds (source : BufferPlaybackSource) : ℚ :=
  if source.messageThreadSampleRate ≤ 0 then 0
  else fl (source.positionSamples / source.messageThreadSampleRate)

end Arithmetic

end DjApp.Engine
