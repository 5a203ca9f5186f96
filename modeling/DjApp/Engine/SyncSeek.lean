import DjApp.Engine.BeatSync
import DjApp.Engine.Playback

/-! Where a sync may send a deck that is playing: the nudge is tested against the length of the
track, and the engine renders only up to the last frame. -/

set_option autoImplicit false

namespace DjApp.Engine

open Library.BinaryRounding (double double_mono double_nonneg representable_double)

namespace LoadedAudio

def durationSeconds (audio : LoadedAudio) : ℚ := double (audio.numSamples / audio.sampleRate)

/-- The engine can render a frame from a position: it is before the last renderable frame. -/
def Renderable (audio : LoadedAudio) (seconds : ℚ) : Prop :=
  0 ≤ seconds ∧ double (seconds * audio.sampleRate) < (audio.numSamples : ℚ) - 1

instance (audio : LoadedAudio) (seconds : ℚ) : Decidable (audio.Renderable seconds) :=
  inferInstanceAs (Decidable (_ ∧ _))

/-- A position in the track from which there is no frame to render. -/
def InLastFrame (audio : LoadedAudio) (seconds : ℚ) : Prop :=
  seconds ≤ audio.durationSeconds ∧
    (audio.numSamples : ℚ) - 1 ≤ double (Client.clampPosition seconds * audio.sampleRate)

variable {audio : LoadedAudio}

theorem clampPosition_nonneg (seconds : ℚ) : 0 ≤ Client.clampPosition seconds :=
  (Client.clampPosition_holds seconds).1

theorem clampPosition_le {seconds : ℚ} (nonneg : 0 ≤ seconds) :
    Client.clampPosition seconds ≤ seconds := by
  unfold Client.clampPosition Client.Ranges.clamp
  unfold Client.Ranges.positionSecondsMin Client.Ranges.positionSecondsMax
  split
  · assumption
  · split
    · rename_i above
      exact above.le
    · exact le_rfl

/-- Clamping moves no position beyond the last frame. -/
theorem Renderable.clampPosition {seconds : ℚ} (renderable : audio.Renderable seconds)
    (sampled : 0 ≤ audio.sampleRate) : audio.Renderable (Client.clampPosition seconds) := by
  refine ⟨clampPosition_nonneg seconds, lt_of_le_of_lt (double_mono ?_) renderable.2⟩
  exact mul_le_mul_of_nonneg_right (clampPosition_le renderable.1) sampled

end LoadedAudio

namespace BeatSync

/-- A dropped nudge leaves a position that can be rendered from, and one that is kept can be
rendered from unless it is in the last frame. -/
theorem renderable_keptPosition_iff {audio : LoadedAudio} {position nudged : ℚ}
    (several : 2 ≤ audio.numSamples) (sampled : 0 ≤ audio.sampleRate)
    (known : 0 < audio.durationSeconds) (here : audio.Renderable position) :
    audio.Renderable (Client.clampPosition (keptPosition position nudged audio.durationSeconds)) ↔
      ¬ audio.InLastFrame nudged := by
  have frames : (2 : ℚ) ≤ audio.numSamples := by exact_mod_cast several
  by_cases outside : nudged < 0 ∨ audio.durationSeconds < nudged
  · rw [keptPosition, if_pos ⟨known, outside⟩]
    apply iff_of_true (here.clampPosition sampled)
    rintro ⟨inside, last⟩
    rcases outside with before | after
    · -- Before the start the clamped position is 0, and the track has two frames at least.
      have start : Client.clampPosition nudged = 0 := by
        exact if_pos before
      have zero : double 0 = 0 := by decide +kernel
      rw [start, zero_mul, zero] at last
      linarith
    · exact absurd after (not_lt.mpr inside)
  · rw [keptPosition, if_neg fun both => outside both.2]
    have inside := not_lt.mp fun after => outside (.inr after)
    constructor
    · rintro renderable ⟨_, last⟩
      exact absurd renderable.2 (not_lt.mpr last)
    · intro early
      exact ⟨LoadedAudio.clampPosition_nonneg nudged, not_le.mp fun last => early ⟨inside, last⟩⟩

end BeatSync

namespace Playback

/-- A deck that plays a track once through, without a loop, and can render a block. -/
structure PlaysOn (playback : Playback) (audio : LoadedAudio) (numOutput : ℕ) : Prop where
  buffer : playback.source.activeBuffer = some audio
  rate : playback.source.messageThreadSampleRate = audio.sampleRate
  sampled : 0 < audio.sampleRate
  frames : audio.numSamples ≠ 0
  playing : playback.source.playing = true
  once : playback.source.repeats = false
  loop : playback.source.activeLoop.active = false
  output : numOutput ≠ 0
  prepared : playback.renderer.capacityFrames ≠ 0
  fits : numOutput ≤ playback.renderer.capacityFrames
  lag : 0 ≤ playback.renderer.lastLaggedSourceFrames

/-- What a seek leaves of the stretcher's lag: nothing if it resets the stretcher. -/
def keptLag (playback : Playback) (seconds : ℚ) : ℚ :=
  if (playback.source.requestSeek seconds).forceStretcherReset then 0
  else playback.renderer.lastLaggedSourceFrames

theorem pullCount_pos {fl : ℚ → ℚ} {source : BufferPlaybackSource} {renderer : Renderer}
    (prepared : renderer.capacityFrames ≠ 0) (numOutput : ℕ) :
    ∃ more, (pullCount fl source renderer numOutput).1 = more + 1 := by
  have pulls : 1 ≤ (pullCount fl source renderer numOutput).1 := by
    simp only [pullCount]
    omega
  exact ⟨_, (Nat.sub_add_cancel pulls).symm⟩

theorem lag_takeRequests (outputLatencyFrames : ℚ → ℕ) (source : BufferPlaybackSource)
    (renderer : Renderer) :
    (takeRequests outputLatencyFrames source renderer).2.lastLaggedSourceFrames =
      if source.forceStretcherReset then 0 else renderer.lastLaggedSourceFrames := by
  simp only [takeRequests]
  split <;> rfl

/-- The first pull after a seek starts where the seek leads, less what the lag had taken off. -/
theorem PlaysOn.first_pull {playback : Playback} {audio : LoadedAudio} {numOutput : ℕ}
    (plays : playback.PlaysOn audio numOutput) (outputLatencyFrames : ℚ → ℕ) {seconds : ℚ}
    (nonneg : 0 ≤ seconds) :
    ∃ rendered, ((playback.step double outputLatencyFrames (.call (.seek seconds))).1.step double
        outputLatencyFrames (.block numOutput)).2 = some rendered ∧
      (rendered.pulled.frames = [] ↔ (audio.numSamples : ℚ) - 1 ≤
        double (double (seconds * audio.sampleRate) + playback.keptLag seconds)) := by
  let sought := (playback.step double outputLatencyFrames (.call (.seek seconds))).1
  let taken := sought.afterRequests outputLatencyFrames
  have heard : audible taken.source taken.renderer numOutput = some audio := by
    have capacity : taken.renderer.capacityFrames = playback.renderer.capacityFrames := by
      simp only [taken, afterRequests, takeRequests]
      split <;> rfl
    have buffer : taken.source.activeBuffer = some audio := plays.buffer
    have playing : taken.source.playing = true := plays.playing
    unfold audible
    rw [buffer, capacity, playing]
    have small := not_lt.mpr plays.fits
    simp [plays.frames, plays.output, plays.prepared, small]
  have head : taken.source.positionSamples = double (seconds * audio.sampleRate) := by
    have rate : 0 < playback.source.messageThreadSampleRate := by
      rw [plays.rate]
      exact plays.sampled
    change (if 0 < playback.source.messageThreadSampleRate then
      double (seconds * playback.source.messageThreadSampleRate) else 0) = _
    rw [if_pos rate, plays.rate]
  have lag : taken.renderer.lastLaggedSourceFrames = playback.keptLag seconds :=
    lag_takeRequests outputLatencyFrames (playback.source.requestSeek seconds) playback.renderer
  have lagged : 0 ≤ playback.keptLag seconds := by
    rw [keptLag]
    split
    · exact le_rfl
    · exact plays.lag
  have ahead : 0 ≤ double (double (seconds * audio.sampleRate) + playback.keptLag seconds) :=
    double_nonneg (add_nonneg (double_nonneg (mul_nonneg nonneg plays.sampled.le)) lagged)
  rcases sought.step_block double outputLatencyFrames numOutput with
    ⟨other, rendered, stepped⟩ | ⟨silent, _⟩
  · cases heard.symm.trans rendered
    refine ⟨report double taken.source taken.renderer audio numOutput, congrArg Prod.snd stepped, ?_⟩
    have prepared : taken.renderer.capacityFrames ≠ 0 := by
      simp only [taken, afterRequests, takeRequests]
      split <;> exact plays.prepared
    obtain ⟨more, count⟩ := @pullCount_pos double taken.source taken.renderer prepared numOutput
    have loop : taken.source.activeLoop.active = false := plays.loop
    have once : taken.source.repeats = false := plays.once
    change (pullBlock double taken.source taken.renderer audio numOutput).frames = [] ↔ _
    rw [pullBlock, count, head, lag]
    have settled (position : ℚ) : wrapHead double taken.source.activeLoop taken.source.repeats
        ((audio.numSamples : ℚ) - 1) position = position := by
      simp [wrapHead, loop, once]
    simp only [pullFrom, settled]
    split
    · rename_i dry
      simpa using dry.resolve_left (not_lt.mpr ahead)
    · rename_i flows
      simpa using (not_or.mp flows).2
  · cases heard.symm.trans silent

end Playback

namespace BeatSync

/-- The position that a sync returns can be rendered from unless the nudge ends in the last
frame of the track; and the first pull of a deck that is sent there, without repeat and without
a loop, runs dry exactly if the position, with the lag that the seek keeps, is not before that
frame. -/
theorem sync_renderable_iff (narrow : ℚ → ℚ) (thisGrid otherGrid : BeatGrid) (audio : LoadedAudio)
    (position otherPosition otherPlaybackRate : ℚ) (thisDetected : 0 < thisGrid.bpm)
    (otherDetected : 0 < otherGrid.bpm) (several : 2 ≤ audio.numSamples)
    (sampled : 0 < audio.sampleRate) (known : 0 < audio.durationSeconds)
    (here : audio.Renderable position) :
    ∃ result, computeBeatSync double narrow thisGrid position otherGrid otherPosition
        otherPlaybackRate audio.durationSeconds = some result ∧
      (audio.Renderable result.positionSeconds ↔
        ¬ audio.InLastFrame
          (nudgedPosition double thisGrid position otherGrid otherPosition)) ∧
      ∀ (playback : Playback) (outputLatencyFrames numOutput : ℕ),
        playback.PlaysOn audio numOutput →
          ∃ rendered, ((playback.step double outputLatencyFrames
              (.call (.seek result.positionSeconds))).1.step double outputLatencyFrames
              (.block numOutput)).2 = some rendered ∧
            (rendered.pulled.frames = [] ↔ (audio.numSamples : ℚ) - 1 ≤
              double (double (result.positionSeconds * audio.sampleRate) +
                playback.keptLag result.positionSeconds)) ∧
            (playback.keptLag result.positionSeconds = 0 →
              (rendered.pulled.frames = [] ↔ ¬ audio.Renderable result.positionSeconds)) := by
  refine ⟨_, computeBeatSync_eq thisDetected otherDetected position otherPosition otherPlaybackRate
    audio.durationSeconds, renderable_keptPosition_iff several sampled.le known here, ?_⟩
  intro playback outputLatencyFrames numOutput plays
  have nonneg := LoadedAudio.clampPosition_nonneg (keptPosition position
    (nudgedPosition double thisGrid position otherGrid otherPosition) audio.durationSeconds)
  obtain ⟨rendered, stepped, dry⟩ := plays.first_pull outputLatencyFrames nonneg
  refine ⟨rendered, stepped, dry, fun none => ?_⟩
  rw [dry, none, add_zero, (representable_double _).double_eq]
  constructor
  · intro last renderable
    exact absurd renderable.2 (not_lt.mpr last)
  · exact fun stuck => not_lt.mp fun early => stuck ⟨nonneg, early⟩

def tenSeconds : LoadedAudio := .silence 441000 44100

/-- A sync in the middle of the track. -/
theorem sync_renderable_middle :
    ∃ result, computeBeatSync double id ⟨60, 0⟩ (21 / 4) ⟨60, 0⟩ 0 1 tenSeconds.durationSeconds =
        some result ∧ tenSeconds.Renderable result.positionSeconds := by
  have here : tenSeconds.Renderable (21 / 4) := by decide +kernel
  obtain ⟨result, synced, renderable, _⟩ := sync_renderable_iff id ⟨60, 0⟩ ⟨60, 0⟩ tenSeconds
    (21 / 4) 0 1 (by norm_num) (by norm_num) (by decide) (by decide +kernel) (by decide +kernel)
    here
  refine ⟨result, synced, renderable.mpr fun last => ?_⟩
  have early : ¬ ((tenSeconds.numSamples : ℚ) - 1 ≤ double (Client.clampPosition
      (nudgedPosition double ⟨60, 0⟩ (21 / 4) ⟨60, 0⟩ 0) * tenSeconds.sampleRate)) := by
    decide +kernel
  exact early last.2

/-- A quarter of a second before the end, a nudge to the next beat ends at the very end. -/
theorem sync_stops :
    ¬ ∀ (narrow : ℚ → ℚ) (thisGrid otherGrid : BeatGrid) (audio : LoadedAudio)
        (position otherPosition otherPlaybackRate : ℚ), 0 < thisGrid.bpm → 0 < otherGrid.bpm →
      2 ≤ audio.numSamples → 0 < audio.sampleRate → 0 < audio.durationSeconds →
      audio.Renderable position →
        ∀ result, computeBeatSync double narrow thisGrid position otherGrid otherPosition
            otherPlaybackRate audio.durationSeconds = some result →
          audio.Renderable result.positionSeconds := by
  intro renderable
  have synced : computeBeatSync double id ⟨60, 0⟩ (39 / 4) ⟨60, 0⟩ 0 1
      tenSeconds.durationSeconds = some ⟨1, 10⟩ := by decide +kernel
  have stuck := renderable id ⟨60, 0⟩ ⟨60, 0⟩ tenSeconds (39 / 4) 0 1 (by norm_num)
    (by norm_num) (by decide) (by decide +kernel) (by decide +kernel) (by decide +kernel)
    ⟨1, 10⟩ synced
  revert stuck
  decide +kernel

end BeatSync

end DjApp.Engine
