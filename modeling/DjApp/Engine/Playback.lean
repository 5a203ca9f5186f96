import DjApp.Engine.Rendering
import DjApp.Library.Machine

/-! A playback source in use: the calls of its message thread and the blocks of its audio
thread, each taken as a whole. A block that is rendered reports what it pulled. -/

set_option autoImplicit false

namespace DjApp.Engine

open Library

structure Playback where
  source : BufferPlaybackSource := .initial
  renderer : Renderer := {}

inductive PlaybackEvent where
  | call (call : EngineCall)
  | prepareToPlay (samplesPerBlockExpected : ℕ) (sampleRate : ℚ)
  | block (numOutput : ℕ)

structure Rendered where
  numOutput : ℕ
  -- The frames to pull, before the clamp to the scratch buffers and after it.
  wanted : ℤ
  pullFrames : ℕ
  pulled : Pull
  stops : Bool

/-- The audio that a block renders, if it gets past the early outs. -/
def audible (source : BufferPlaybackSource) (renderer : Renderer) (numOutput : ℕ) :
    Option LoadedAudio :=
  match source.activeBuffer with
  | none => none
  | some audio =>
      if audio.numSamples = 0 ∨ source.playing = false ∨ numOutput = 0 ∨
          renderer.capacityFrames = 0 ∨ renderer.capacityFrames < numOutput then none
      else some audio

/-- A source with a buffer that has no samples stops playing, like one without a buffer. -/
def haltIfSilent (source : BufferPlaybackSource) : BufferPlaybackSource :=
  { source with
    playing := source.playing && source.activeBuffer.any fun audio => audio.numSamples != 0 }

section Arithmetic

variable (fl : ℚ → ℚ) (outputLatencyFrames : ℚ → ℕ)

def srcToDeviceRatio (renderer : Renderer) (audio : LoadedAudio) : ℚ :=
  let sourceSampleRate := if 0 < audio.sampleRate then audio.sampleRate
    else renderer.deviceSampleRate
  if 0 < renderer.deviceSampleRate then fl (sourceSampleRate / renderer.deviceSampleRate) else 1

def wantedFrames (source : BufferPlaybackSource) (renderer : Renderer) (numOutput : ℕ) : ℤ :=
  max 1 ⌊fl (renderer.pullAccumulator + fl (numOutput * source.rate.value))⌋

def pullBlock (source : BufferPlaybackSource) (renderer : Renderer) (audio : LoadedAudio)
    (numOutput : ℕ) : Pull :=
  pullFrom fl source.activeLoop source.repeats ((audio.numSamples : ℚ) - 1)
    (srcToDeviceRatio fl renderer audio) (pullCount fl source renderer numOutput).1
    (fl (source.positionSamples + renderer.lastLaggedSourceFrames))

def report (source : BufferPlaybackSource) (renderer : Renderer) (audio : LoadedAudio)
    (numOutput : ℕ) : Rendered where
  numOutput := numOutput
  wanted := wantedFrames fl source renderer numOutput
  pullFrames := (pullCount fl source renderer numOutput).1
  pulled := pullBlock fl source renderer audio numOutput
  stops := (drainAfter renderer (pullBlock fl source renderer audio numOutput).ranDry numOutput).2

/-- What the latency takes off the position after a block, in source frames. -/
def laggedFrames (source : BufferPlaybackSource) (renderer : Renderer) (audio : LoadedAudio)
    (numOutput : ℕ) : ℚ :=
  fl (fl ((min (renderer.producedOutputFrames + numOutput) renderer.outputLatencyFrames : ℕ) *
    source.rate.value) * srcToDeviceRatio fl renderer audio)

theorem renderBlock_eq (source : BufferPlaybackSource) (renderer : Renderer) (audio : LoadedAudio)
    (numOutput : ℕ) :
    renderBlock fl source renderer audio numOutput =
      ({ source with
          playing := source.playing && !(report fl source renderer audio numOutput).stops
          positionSamples := fl ((pullBlock fl source renderer audio numOutput).head -
            laggedFrames fl source renderer audio numOutput) },
        { renderer with
          pullAccumulator := (pullCount fl source renderer numOutput).2
          producedOutputFrames := renderer.producedOutputFrames + numOutput
          lastLaggedSourceFrames := laggedFrames fl source renderer audio numOutput
          drainFramesRemaining := (drainAfter renderer
            (pullBlock fl source renderer audio numOutput).ranDry numOutput).1 }) := rfl

theorem audible_some {source : BufferPlaybackSource} {renderer : Renderer} {numOutput : ℕ}
    {audio : LoadedAudio} (heard : audible source renderer numOutput = some audio) :
    source.activeBuffer = some audio ∧ audio.numSamples ≠ 0 ∧ source.playing = true ∧
      numOutput ≠ 0 ∧ renderer.capacityFrames ≠ 0 ∧ numOutput ≤ renderer.capacityFrames := by
  unfold audible at heard
  split at heard
  · cases heard
  · rename_i other buffer
    split at heard
    · cases heard
    · rename_i rendered
      cases heard
      simp only [not_or, not_lt, Bool.not_eq_false] at rendered
      exact ⟨buffer, rendered⟩

theorem haltIfSilent_of_samples {source : BufferPlaybackSource} {audio : LoadedAudio}
    (buffer : source.activeBuffer = some audio) (sampled : audio.numSamples ≠ 0) :
    haltIfSilent source = source := by
  have heard : (source.activeBuffer.any fun audio => audio.numSamples != 0) = true := by
    simp [buffer, sampled]
  rw [haltIfSilent, heard, Bool.and_true]

theorem getNextAudioBlock_of_audible {source : BufferPlaybackSource} {renderer : Renderer}
    {numOutput : ℕ} {audio : LoadedAudio}
    (heard : audible (takeRequests outputLatencyFrames source renderer).1
      (takeRequests outputLatencyFrames source renderer).2 numOutput = some audio) :
    getNextAudioBlock fl outputLatencyFrames source renderer numOutput =
      renderBlock fl (takeRequests outputLatencyFrames source renderer).1
        (takeRequests outputLatencyFrames source renderer).2 audio numOutput := by
  unfold audible at heard
  unfold getNextAudioBlock
  cases buffer : (takeRequests outputLatencyFrames source renderer).1.activeBuffer with
  | none =>
      rw [buffer] at heard
      cases heard
  | some other =>
      simp only [buffer] at heard ⊢
      split at heard
      · cases heard
      · rename_i rendered
        cases heard
        simp only [not_or] at rendered
        obtain ⟨sampled, playing, some, capacity⟩ := rendered
        rw [if_neg sampled, if_neg playing, if_neg some, if_neg (not_or.mpr capacity)]

theorem getNextAudioBlock_of_silent {source : BufferPlaybackSource} {renderer : Renderer}
    {numOutput : ℕ}
    (silent : audible (takeRequests outputLatencyFrames source renderer).1
      (takeRequests outputLatencyFrames source renderer).2 numOutput = none) :
    getNextAudioBlock fl outputLatencyFrames source renderer numOutput =
      (haltIfSilent (takeRequests outputLatencyFrames source renderer).1,
        (takeRequests outputLatencyFrames source renderer).2) := by
  unfold audible at silent
  unfold getNextAudioBlock
  cases buffer : (takeRequests outputLatencyFrames source renderer).1.activeBuffer with
  | none => simp [buffer, haltIfSilent]
  | some audio =>
      simp only [buffer] at silent ⊢
      by_cases sampled : audio.numSamples = 0
      · simp [sampled, haltIfSilent, buffer]
      · rw [haltIfSilent_of_samples buffer sampled, if_neg sampled]
        simp only [sampled, false_or, ite_eq_left_iff, not_or, reduceCtorEq, imp_false,
          not_and_or, not_not] at silent
        rcases silent with paused | none | small
        · rw [if_pos paused]
        · rw [if_pos none, ite_self]
        · rw [if_pos small, ite_self, ite_self]

namespace Playback

variable (playback : Playback)

/-- The state in which a block reads its parameters. -/
def afterRequests : Playback :=
  let taken := takeRequests outputLatencyFrames playback.source playback.renderer
  ⟨taken.1, taken.2⟩

def step : PlaybackEvent → Playback × Option Rendered
  | .call call => ({ playback with source := playback.source.perform call }, none)
  | .prepareToPlay samplesPerBlockExpected sampleRate =>
      ({ playback with
        renderer := playback.renderer.prepareToPlay samplesPerBlockExpected sampleRate }, none)
  | .block numOutput =>
      let after := getNextAudioBlock fl outputLatencyFrames playback.source playback.renderer
        numOutput
      let taken := playback.afterRequests outputLatencyFrames
      (⟨after.1, after.2⟩, (audible taken.source taken.renderer numOutput).map fun audio =>
        report fl taken.source taken.renderer audio numOutput)

/-- A block is rendered, or does no more than take the requests and halt a silent source. -/
theorem step_block (numOutput : ℕ) :
    let taken := playback.afterRequests outputLatencyFrames
    (∃ audio, audible taken.source taken.renderer numOutput = some audio ∧
      playback.step fl outputLatencyFrames (.block numOutput) =
        (⟨(renderBlock fl taken.source taken.renderer audio numOutput).1,
          (renderBlock fl taken.source taken.renderer audio numOutput).2⟩,
        some (report fl taken.source taken.renderer audio numOutput))) ∨
    (audible taken.source taken.renderer numOutput = none ∧
      playback.step fl outputLatencyFrames (.block numOutput) =
        (⟨haltIfSilent taken.source, taken.renderer⟩, none)) := by
  intro taken
  cases heard : audible taken.source taken.renderer numOutput with
  | none =>
      have silent := getNextAudioBlock_of_silent fl outputLatencyFrames heard
      exact .inr ⟨rfl, by simp only [step, silent]; rw [heard]; rfl⟩
  | some audio =>
      have rendered := getNextAudioBlock_of_audible fl outputLatencyFrames heard
      exact .inl ⟨audio, rfl, by simp only [step, rendered]; rw [heard]; rfl⟩

end Playback

end Arithmetic

end DjApp.Engine
