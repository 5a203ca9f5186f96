import DjApp.Engine.BufferPlaybackSource
import DjApp.Library.IeeeDouble
import DjApp.Library.Machine

/-! One block of the audio thread down to its memory: every index it reads or writes at, in
order, computed in doubles that may overflow. The samples themselves are left out. -/

set_option autoImplicit false

namespace DjApp.Engine

open Library
open Client (Single LoopPoints)

/-- What a block does to memory. A source index comes from a cast that may be undefined. -/
inductive Access where
  | readSource (channel : ℕ) (index : Option ℤ)
  | readPull (channel index : ℕ)
  | writePull (channel index : ℕ)
  | readStretchOut (channel index : ℕ)
  | writeStretchOut (channel index : ℕ)
  | writeOutput (channel index : ℕ)
  deriving DecidableEq

/-- A call of `process` may touch so many frames of its two channels, and no others. -/
def Access.OfProcess (numInput numOutput : ℕ) : Access → Prop
  | .readPull channel index => channel < 2 ∧ index < numInput
  | .readStretchOut channel index => channel < 2 ∧ index < numOutput
  | .writeStretchOut channel index => channel < 2 ∧ index < numOutput
  | _ => False

/-- A stretcher that keeps the contract of `TimeStretcher`. -/
structure Stretcher where
  outputLatencyFrames : ℕ
  latencyFits : outputLatencyFrames < 2 ^ 31
  process : ℕ → ℕ → List Access
  contract : ∀ numInput numOutput, ∀ access ∈ process numInput numOutput,
    access.OfProcess numInput numOutput

structure RawLoop where
  active : Bool := false
  inSamples : Ieee := .finite 0
  outSamples : Ieee := .finite 0
  deriving DecidableEq

/-- The fields of a playback source that decide where it reads and writes. -/
structure RawSource where
  playing : Bool := false
  rate : Single := .ofDouble 1
  repeats : Bool := true
  deviceSampleRate : ℚ := 0
  positionSamples : Ieee := .finite 0
  pendingSeekSamples : Ieee := .finite 0
  seekPending : Bool := false
  forceStretcherReset : Bool := false
  -- The size of each of the four scratch buffers.
  scratchFrames : ℕ := 0
  pullAccumulator : Ieee := .finite 0
  producedOutputFrames : ℕ := 0
  lastLaggedSourceFrames : Ieee := .finite 0
  outputLatencyFrames : ℕ := 0
  drainFramesRemaining : ℕ := 0
  -- The slot that is active.
  loop : RawLoop := {}
  activeBuffer : Option LoadedAudio := none
  messageThreadSampleRate : ℚ := 0
  messageThreadCurrentBuffer : Option LoadedAudio := none

/-- A wrap where a comparison may fail for want of a number. -/
def wrapRaw (position rangeStart rangeEnd : Ieee) : Ieee :=
  if rangeStart.lt rangeEnd && rangeEnd.le position then
    rangeStart.add ((position.sub rangeStart).fmod (rangeEnd.sub rangeStart))
  else position

namespace RawSource

section MessageThread

variable (source : RawSource)

def load (audio : Option LoadedAudio) : RawSource :=
  { source with
    forceStretcherReset := true
    messageThreadSampleRate := audio.elim 0 LoadedAudio.sampleRate
    pendingSeekSamples := .finite 0
    seekPending := true
    loop := {}
    activeBuffer := audio
    messageThreadCurrentBuffer := audio }

def loopStateFor (loop : Option LoopPoints) : RawLoop :=
  match loop with
  | none => {}
  | some points =>
      if 0 < source.messageThreadSampleRate then
        let inSamples := (Ieee.finite points.inSeconds).mul (.finite source.messageThreadSampleRate)
        let outSamples := (Ieee.finite points.outSeconds).mul (.finite source.messageThreadSampleRate)
        match source.messageThreadCurrentBuffer with
        | none => ⟨true, inSamples, outSamples⟩
        | some audio =>
            let lastRenderableFrame := Ieee.finite ((audio.numSamples : ℚ) - 1)
            ⟨true, inSamples.min lastRenderableFrame, outSamples.min lastRenderableFrame⟩
      else {}

def requestSeek (seconds : ℚ) : RawSource :=
  let samples := if 0 < source.messageThreadSampleRate then
    (Ieee.finite seconds).mul (.finite source.messageThreadSampleRate) else .finite 0
  { source with
    forceStretcherReset := source.forceStretcherReset ||
      (Ieee.finite source.messageThreadSampleRate).lt (samples.sub source.positionSamples).abs
    pendingSeekSamples := samples
    seekPending := true }

/-- The gain and the pitch move no index. -/
def perform : EngineCall → RawSource
  | .load audio => source.load audio
  | .play => { source with playing := true }
  | .pause => { source with playing := false }
  | .seek seconds => source.requestSeek seconds
  | .setGain _ => source
  | .setPlaybackRate rate => { source with rate := rate }
  | .setPitchOffsetSemitones _ => source
  | .setLoop loop => { source with loop := source.loopStateFor loop }
  | .setRepeat repeats => { source with repeats := repeats }

def prepareToPlay (samplesPerBlockExpected : ℕ) (sampleRate : ℚ) : RawSource :=
  { source with
    deviceSampleRate := sampleRate
    scratchFrames := max samplesPerBlockExpected 512 * 4 + 4096 }

end MessageThread

section AudioThread

def srcChannel (audio : LoadedAudio) (ch : ℕ) : ℕ :=
  if audio.channels.length = 1 then 0 else min ch (audio.channels.length - 1)

/-- The interpolation of one frame, into both pull buffers. -/
def frameAccesses (audio : LoadedAudio) (i : ℕ) (index0 : Option ℤ) : List Access :=
  [0, 1].flatMap fun ch =>
    [.readSource (srcChannel audio ch) index0,
      .readSource (srcChannel audio ch) (index0.map (· + 1)), .writePull ch i]

def silenceAccesses (i count : ℕ) : List Access :=
  (List.range count).flatMap fun j => [.writePull 0 (i + j), .writePull 1 (i + j)]

structure RawPull where
  accesses : List Access
  head : Ieee
  ranDry : Bool

section Block

-- What the machine makes of a cast to `int` that is undefined: some `int`.
variable (undefinedInt : Ieee → Int32) (source : RawSource)

def wrapHead (lastRenderableFrame position : Ieee) : Ieee :=
  let position :=
    if source.loop.active then wrapRaw position source.loop.inSamples source.loop.outSamples
    else position
  if source.repeats && lastRenderableFrame.le position then
    wrapRaw position (.finite 0) lastRenderableFrame
  else position

def pullFrom (audio : LoadedAudio) (srcToDeviceRatio : Ieee) : ℕ → ℕ → Ieee → RawPull
  | _, 0, position => ⟨[], position, false⟩
  | i, remaining + 1, position =>
      let lastRenderableFrame := Ieee.finite ((audio.numSamples : ℚ) - 1)
      let position := source.wrapHead lastRenderableFrame position
      if position.lt (.finite 0) || lastRenderableFrame.le position then
        ⟨silenceAccesses i (remaining + 1), position, true⟩
      else
        let rest := pullFrom audio srcToDeviceRatio (i + 1) remaining
          (position.add srcToDeviceRatio)
        { rest with accesses := frameAccesses audio i position.toInt ++ rest.accesses }

/-- The stretched samples of one channel, each scaled into the destination. -/
def gainAccesses (ch numOutput : ℕ) : List Access :=
  (List.range numOutput).flatMap fun o => [.readStretchOut ch o, .writeOutput ch o]

def clearAccesses (ch numOutput : ℕ) : List Access :=
  (List.range numOutput).map fun o => .writeOutput ch o

/-- `AudioBuffer::clear` of the requested range. -/
def clear (outChannels numOutput : ℕ) : List Access :=
  (List.range outChannels).flatMap fun ch => clearAccesses ch numOutput

/-- The first two channels are rendered, the others cleared. -/
def writeAccesses (outChannels numOutput : ℕ) : List Access :=
  (List.range outChannels).flatMap fun ch =>
    if ch < 2 then gainAccesses ch numOutput else clearAccesses ch numOutput

def takeRequests (stretcher : Stretcher) : RawSource :=
  let source := if source.forceStretcherReset then
    { source with
      forceStretcherReset := false
      outputLatencyFrames := stretcher.outputLatencyFrames
      pullAccumulator := .finite 0
      producedOutputFrames := 0
      lastLaggedSourceFrames := .finite 0
      drainFramesRemaining := 0 }
    else source
  if source.seekPending then
    { source with positionSamples := source.pendingSeekSamples, seekPending := false }
  else source

def srcToDeviceRatio (audio : LoadedAudio) : Ieee :=
  let sourceSampleRate := if 0 < audio.sampleRate then audio.sampleRate else source.deviceSampleRate
  if 0 < source.deviceSampleRate then .ofRat (sourceSampleRate / source.deviceSampleRate)
  else .finite 1

def drainAfter (ranDry : Bool) (numOutput : ℕ) : ℕ × Bool :=
  if ranDry then
    let armed := if source.drainFramesRemaining = 0 then source.outputLatencyFrames + 1
      else source.drainFramesRemaining
    (armed - numOutput, armed - numOutput = 0)
  else (0, false)

/-- A block of a track that is playing. -/
def renderBlock (stretcher : Stretcher) (audio : LoadedAudio) (numOutput outChannels : ℕ) :
    RawSource × List Access :=
  let ratio := source.srcToDeviceRatio audio
  let accumulated := source.pullAccumulator.add
    ((Ieee.finite numOutput).mul (.finite source.rate.value))
  let wanted := max 1 (accumulated.floor.toInt.getD (undefinedInt accumulated.floor).toInt)
  let pullFrames := min wanted.toNat source.scratchFrames
  let pulled := source.pullFrom audio ratio 0 pullFrames
    (source.positionSamples.add source.lastLaggedSourceFrames)
  let (drainFramesRemaining, stops) := source.drainAfter pulled.ranDry numOutput
  let producedOutputFrames := source.producedOutputFrames + numOutput
  let laggedOutputFrames := Ieee.finite (min producedOutputFrames source.outputLatencyFrames : ℕ)
  let laggedSourceFrames := (laggedOutputFrames.mul (.finite source.rate.value)).mul ratio
  ({ source with
      playing := source.playing && !stops
      positionSamples := pulled.head.sub laggedSourceFrames
      pullAccumulator := accumulated.sub (.finite wanted)
      producedOutputFrames := producedOutputFrames
      lastLaggedSourceFrames := laggedSourceFrames
      drainFramesRemaining := drainFramesRemaining },
    pulled.accesses ++ stretcher.process pullFrames numOutput ++
      writeAccesses outChannels numOutput)

def getNextAudioBlock (stretcher : Stretcher) (numOutput outChannels : ℕ) :
    RawSource × List Access :=
  let source := source.takeRequests stretcher
  match source.activeBuffer with
  | none => ({ source with playing := false }, clear outChannels numOutput)
  | some audio =>
      if audio.numSamples = 0 then ({ source with playing := false }, clear outChannels numOutput)
      else if source.playing = false then (source, clear outChannels numOutput)
      else if numOutput = 0 then (source, [])
      else if source.scratchFrames = 0 ∨ source.scratchFrames < numOutput then
        (source, clear outChannels numOutput)
      else source.renderBlock undefinedInt stretcher audio numOutput outChannels

end Block

end AudioThread

/-- A block may bring another stretcher's behaviour each time. -/
inductive Event where
  | call (call : EngineCall)
  | prepareToPlay (samplesPerBlockExpected : ℕ) (sampleRate : ℚ)
  | block (stretcher : Stretcher) (numOutput outChannels : ℕ)

def step (undefinedInt : Ieee → Int32) (source : RawSource) : Event → RawSource × List Access
  | .call call => (source.perform call, [])
  | .prepareToPlay samplesPerBlockExpected sampleRate =>
      (source.prepareToPlay samplesPerBlockExpected sampleRate, [])
  | .block stretcher numOutput outChannels =>
      source.getNextAudioBlock undefinedInt stretcher numOutput outChannels

end RawSource

end DjApp.Engine
