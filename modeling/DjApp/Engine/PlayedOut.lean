import DjApp.Engine.ReportedPosition
import DjApp.Engine.SyncSeek

/-! Where a deck has stopped that stopped itself: at the end of its track, but for what the
stretcher holds back. -/

set_option autoImplicit false

namespace DjApp.Engine

open Library
open Library.BinaryRounding (binary64 double double_nonneg representable_double Representable)

/-- Tracks as a catalogue decodes them. -/
structure Playable (audio : LoadedAudio) : Prop where
  sampled : audio.numSamples ≠ 0
  short : audio.numSamples ≤ 2 ^ 31
  slowest : 100 ≤ audio.sampleRate
  fastest : audio.sampleRate ≤ 2 ^ 20

/-- Devices on which the longest latency that the stretcher has had is a fifth of a second at
most. -/
structure Suits (longest : ℕ) (deviceSampleRate : ℚ) : Prop where
  slowest : 1 ≤ deviceSampleRate
  fastest : deviceSampleRate ≤ 2 ^ 20
  latency : 5 * longest ≤ deviceSampleRate

section Bounds

variable {longest : ℕ} {audio : LoadedAudio}

theorem double_le_natCast {value : ℚ} {whole : ℕ} (small : whole ≤ 2 ^ 52)
    (below : value ≤ whole) : double value ≤ whole := by
  have wide : (2 : ℕ) ^ 52 ≤ 2 ^ binary64.precision := Nat.pow_le_pow_right two_pos (by decide)
  exact BinaryRounding.round_le_of_le_representable binary64 (by decide)
    (BinaryRounding.representable_natCast (by decide) (small.trans wide)) below

/-- The source frames that a suitable stretcher holds back, at twice the speed. -/
def heldBack (audio : LoadedAudio) : ℕ := ⌈audio.sampleRate * (41 / 100)⌉₊

theorem heldBack_le (playable : Playable audio) : heldBack audio ≤ 2 ^ 20 := by
  apply Nat.ceil_le.mpr
  have := playable.fastest
  push_cast
  linarith

theorem heldBack_lt (playable : Playable audio) :
    (heldBack audio : ℚ) < audio.sampleRate * (41 / 100) + 1 :=
  Nat.ceil_lt_add_one (by linarith [playable.slowest])

/-- The pace of the pull stage is hardly more than the exact one. -/
theorem srcToDeviceRatio_le {renderer : Renderer} (playable : Playable audio)
    (suits : Suits longest renderer.deviceSampleRate) :
    srcToDeviceRatio double renderer audio ≤
      audio.sampleRate / renderer.deviceSampleRate + 1 / 2 ^ 20 := by
  have device : 0 < renderer.deviceSampleRate := by linarith [suits.slowest]
  have rate : 0 < audio.sampleRate := by linarith [playable.slowest]
  have pace : srcToDeviceRatio double renderer audio =
      double (audio.sampleRate / renderer.deviceSampleRate) := by
    simp only [srcToDeviceRatio, if_pos device, if_pos rate]
  generalize exact : audio.sampleRate / renderer.deviceSampleRate = ratio at pace ⊢
  have nonneg : 0 ≤ ratio := exact ▸ div_nonneg rate.le device.le
  have small : ratio ≤ 2 ^ 20 := by
    rw [← exact, div_le_iff₀ device]
    nlinarith [playable.fastest, suits.slowest]
  have above := Nat.le_ceil (ratio * 2 ^ 20)
  have near := Nat.ceil_lt_add_one (mul_nonneg nonneg (by positivity : (0 : ℚ) ≤ 2 ^ 20))
  have few : ⌈ratio * 2 ^ 20⌉₊ ≤ 2 ^ 40 := by
    apply Nat.ceil_le.mpr
    push_cast
    linarith
  generalize ⌈ratio * 2 ^ 20⌉₊ = whole at above near few
  have representable : Representable binary64 (whole / 2 ^ 20) := by
    refine ⟨whole, -20, ?_, by decide, ?_⟩
    · have wide : (2 : ℤ) ^ binary64.precision = 2 ^ 53 := rfl
      rw [wide, abs_of_nonneg (Int.natCast_nonneg whole)]
      exact_mod_cast few.trans (by decide)
    · push_cast
      rw [zpow_neg]
      norm_num
      ring
  rw [pace]
  calc
    double ratio ≤ whole / 2 ^ 20 := by
      apply BinaryRounding.round_le_of_le_representable binary64 (by decide) representable
      linarith
    _ ≤ ratio + 1 / 2 ^ 20 := by linarith

/-- What a block takes off the position is what the stretcher may hold back. -/
theorem laggedFrames_le {source : BufferPlaybackSource} {renderer : Renderer}
    (playable : Playable audio) (suits : Suits longest renderer.deviceSampleRate)
    (latency : renderer.outputLatencyFrames ≤ longest)
    (forward : 0 ≤ source.rate.value) (atMostDouble : source.rate.value ≤ 2) (numOutput : ℕ) :
    laggedFrames double source renderer audio numOutput ≤ heldBack audio := by
  have device : 0 < renderer.deviceSampleRate := by linarith [suits.slowest]
  have pace := srcToDeviceRatio_le playable suits
  have paceNonneg := srcToDeviceRatio_nonneg renderer audio
  unfold laggedFrames
  generalize srcToDeviceRatio double renderer audio = ratio at pace paceNonneg ⊢
  have held : min (renderer.producedOutputFrames + numOutput) renderer.outputLatencyFrames ≤
      longest := (Nat.min_le_right _ _).trans latency
  have frames : (2 * longest : ℕ) ≤ (2 : ℕ) ^ 52 := by
    have wide : ((5 * longest : ℕ) : ℚ) ≤ (2 ^ 20 : ℕ) := by
      push_cast
      exact suits.latency.trans suits.fastest
    have := Nat.cast_le.mp wide
    omega
  have input : double ((min (renderer.producedOutputFrames + numOutput)
      renderer.outputLatencyFrames : ℕ) * source.rate.value) ≤ (2 * longest : ℕ) := by
    apply double_le_natCast frames
    have cast : ((min (renderer.producedOutputFrames + numOutput)
        renderer.outputLatencyFrames : ℕ) : ℚ) ≤ longest := by exact_mod_cast held
    push_cast at cast ⊢
    nlinarith
  have times : audio.sampleRate / renderer.deviceSampleRate * (5 * longest) ≤
      audio.sampleRate := by
    rw [div_mul_eq_mul_div, div_le_iff₀ device]
    exact mul_le_mul_of_nonneg_left suits.latency (by linarith [playable.slowest])
  have ceil : audio.sampleRate * (41 / 100) ≤ heldBack audio := Nat.le_ceil _
  apply double_le_natCast ((heldBack_le playable).trans (by norm_num))
  calc
    _ ≤ (2 * longest : ℕ) * ratio := mul_le_mul_of_nonneg_right input paceNonneg
    _ ≤ (2 * longest : ℕ) *
        (audio.sampleRate / renderer.deviceSampleRate + 1 / 2 ^ 20) :=
      mul_le_mul_of_nonneg_left pace (Nat.cast_nonneg _)
    _ ≤ audio.sampleRate * (41 / 100) := by
      have slow := playable.slowest
      have latency := suits.latency.trans suits.fastest
      push_cast
      linarith
    _ ≤ heldBack audio := ceil

end Bounds

theorem OnTrack.renderBlock {playback : Playback} {audio : LoadedAudio}
    (onTrack : OnTrack audio playback) {numOutput : ℕ}
    (moderate : laggedFrames double playback.source playback.renderer audio numOutput ≤ 2 ^ 53) :
    OnTrack audio ⟨(Engine.renderBlock double playback.source playback.renderer audio numOutput).1,
      (Engine.renderBlock double playback.source playback.renderer audio numOutput).2⟩ := by
  have head := @start_renderBlock _ _ onTrack numOutput 0 (by norm_num) moderate
    (by exact_mod_cast onTrack.pulled_nonneg numOutput)
  rw [Nat.cast_zero] at head
  rw [renderBlock_eq] at head ⊢
  exact { onTrack with head := head, asked := ⟨onTrack.asked.seek, onTrack.asked.reset⟩ }

section Steady

variable {outputLatencyFrames : ℚ → ℕ} {longest : ℕ} {playback : Playback}

/-- The values that the range checks let through, on suitable devices. -/
def PlaybackEvent.Suitable (outputLatencyFrames : ℚ → ℕ) (longest : ℕ) : PlaybackEvent → Prop
  | .call (.load (some audio)) => Playable audio
  | .call (.seek seconds) => 0 ≤ seconds
  | .call (.setLoop (some points)) => 0 ≤ points.inSeconds
  | .call (.setPlaybackRate rate) => 0 ≤ rate.value ∧ rate.value ≤ 2
  | .prepareToPlay _ sampleRate =>
      Suits longest sampleRate ∧ outputLatencyFrames sampleRate ≤ longest
  | _ => True

/-- What such a run keeps: once the requests are taken the head is on the track. -/
structure Steady (outputLatencyFrames : ℚ → ℕ) (longest : ℕ) (playback : Playback) : Prop where
  tracked : ∀ audio, playback.source.messageThreadCurrentBuffer = some audio →
    Playable audio ∧ OnTrack audio (playback.afterRequests outputLatencyFrames)
  buffer : playback.source.activeBuffer = playback.source.messageThreadCurrentBuffer
  sampled : playback.source.messageThreadSampleRate =
    playback.source.messageThreadCurrentBuffer.elim 0 LoadedAudio.sampleRate
  forward : 0 ≤ playback.source.rate.value
  atMostDouble : playback.source.rate.value ≤ 2
  lagged : 0 ≤ playback.renderer.lastLaggedSourceFrames
  latency : playback.renderer.outputLatencyFrames ≤ longest
  prepared : outputLatencyFrames playback.renderer.deviceSampleRate ≤ longest
  device : playback.renderer.capacityFrames ≠ 0 →
    Suits longest playback.renderer.deviceSampleRate

theorem steady_initial (unprepared : outputLatencyFrames 0 ≤ longest) :
    Steady outputLatencyFrames longest {} where
  tracked audio loaded := by cases loaded
  buffer := rfl
  sampled := rfl
  forward := by decide +kernel
  atMostDouble := by decide +kernel
  lagged := le_rfl
  latency := Nat.zero_le _
  prepared := unprepared
  device prepared := absurd rfl prepared

namespace Steady

variable (steady : Steady outputLatencyFrames longest playback)

include steady

theorem lagged_afterRequests :
    0 ≤ (playback.afterRequests outputLatencyFrames).renderer.lastLaggedSourceFrames := by
  simp only [Playback.afterRequests, takeRequests]
  split
  · exact le_rfl
  · exact steady.lagged

omit steady in
theorem device_afterRequests (playback : Playback) :
    (playback.afterRequests outputLatencyFrames).renderer.capacityFrames =
        playback.renderer.capacityFrames ∧
      (playback.afterRequests outputLatencyFrames).renderer.deviceSampleRate =
        playback.renderer.deviceSampleRate := by
  simp only [Playback.afterRequests, takeRequests]
  split <;> exact ⟨rfl, rfl⟩

theorem afterRequests : Steady outputLatencyFrames longest (playback.afterRequests outputLatencyFrames) :=
  { steady with
    tracked := fun audio loaded =>
      ⟨(steady.tracked audio loaded).1, (steady.tracked audio loaded).2.afterRequests.1⟩
    lagged := steady.lagged_afterRequests
    latency := by
      simp only [Playback.afterRequests, takeRequests]
      split
      · exact steady.prepared
      · exact steady.latency
    prepared := by
      rw [(device_afterRequests playback).2]
      exact steady.prepared
    device := fun prepared => by
      rw [(device_afterRequests playback).1] at prepared
      rw [(device_afterRequests playback).2]
      exact steady.device prepared }

/-- The lag of a block that is rendered. -/
theorem laggedFrames_le {audio : LoadedAudio} {numOutput : ℕ}
    (loaded : playback.source.messageThreadCurrentBuffer = some audio)
    (prepared : playback.renderer.capacityFrames ≠ 0) :
    laggedFrames double playback.source playback.renderer audio numOutput ≤ heldBack audio :=
  Engine.laggedFrames_le (steady.tracked audio loaded).1 (steady.device prepared) steady.latency
    steady.forward steady.atMostDouble numOutput

theorem load {loaded : Option LoadedAudio}
    (playable : ∀ audio, loaded = some audio → Playable audio) :
    Steady outputLatencyFrames longest { playback with source := playback.source.load loaded } where
  tracked audio current := by
    have own : loaded = some audio := current
    have tracks := playable audio own
    have still : (playback.source.load loaded).activeLoop = {} := activeLoop_load _ _
    refine ⟨tracks, own, own, tracks.sampled, ?_, ⟨rfl, rfl⟩, ?_, steady.forward, ?_, ?_⟩
    · exact tracks.short.trans_lt (by norm_num)
    · exact double_nonneg (add_nonneg le_rfl le_rfl)
    · exact le_of_eq (congrArg LoopState.inSamples still).symm
    · refine (congrArg LoopState.outSamples still).trans_le ?_
      have some : 1 ≤ audio.numSamples := Nat.one_le_iff_ne_zero.mpr tracks.sampled
      exact sub_nonneg.mpr (by exact_mod_cast some)
  buffer := rfl
  sampled := rfl
  forward := steady.forward
  atMostDouble := steady.atMostDouble
  lagged := steady.lagged
  latency := steady.latency
  prepared := steady.prepared
  device := steady.device

theorem seek {seconds : ℚ} (nonneg : 0 ≤ seconds) :
    Steady outputLatencyFrames longest { playback with source := playback.source.requestSeek seconds } :=
  { steady with
    tracked := fun audio current => by
      obtain ⟨playable, onTrack⟩ := steady.tracked audio current
      refine ⟨playable, { onTrack with asked := ⟨rfl, rfl⟩, head := ?_ }⟩
      apply double_nonneg
      apply add_nonneg
      · change 0 ≤ (playback.source.requestSeek seconds).pendingSeekSamples
        simp only [BufferPlaybackSource.requestSeek]
        split
        · rename_i rate
          exact double_nonneg (mul_nonneg nonneg rate.le)
        · exact le_rfl
      · simp only [Playback.afterRequests, takeRequests]
        split
        · exact le_rfl
        · exact steady.lagged }

theorem setLoop {loop : Option Client.LoopPoints}
    (after : ∀ points, loop = some points → 0 ≤ points.inSeconds) :
    Steady outputLatencyFrames longest { playback with source := playback.source.setLoop loop } :=
  { steady with
    tracked := fun audio current => by
      obtain ⟨playable, onTrack⟩ := steady.tracked audio current
      obtain ⟨start, stop⟩ := onTrack.loopStateFor after
      have published : (playback.source.setLoop loop).activeLoop =
        playback.source.loopStateFor loop := activeLoop_publishLoop _ _
      refine ⟨playable, { onTrack with asked := ⟨rfl, rfl⟩, loopIn := ?_, loopOut := ?_ }⟩
      · exact start.trans_eq (congrArg LoopState.inSamples published).symm
      · exact (congrArg LoopState.outSamples published).trans_le stop }

theorem block (numOutput : ℕ) :
    Steady outputLatencyFrames longest
      (playback.step double outputLatencyFrames (.block numOutput)).1 := by
  have taken := steady.afterRequests
  rcases playback.step_block double outputLatencyFrames numOutput with
    ⟨audio, heard, rendered⟩ | ⟨_, silent⟩
  · obtain ⟨buffer, _, _, _, prepared, _⟩ := audible_some heard
    have loaded : playback.source.messageThreadCurrentBuffer = some audio :=
      steady.buffer.symm.trans buffer
    obtain ⟨playable, onTrack⟩ := steady.tracked audio loaded
    have lag := @laggedFrames_le _ _ _ taken audio numOutput loaded prepared
    have moderate : laggedFrames double (playback.afterRequests outputLatencyFrames).source
        (playback.afterRequests outputLatencyFrames).renderer audio numOutput ≤ 2 ^ 53 := by
      apply (lag.trans (Nat.cast_le.mpr (heldBack_le playable))).trans
      norm_num
    have after := onTrack.renderBlock moderate
    rw [rendered]
    rw [renderBlock_eq] at after ⊢
    refine { taken with tracked := fun other current => ?_, lagged := ?_ }
    · obtain rfl : audio = other := Option.some.inj (loaded.symm.trans current)
      exact ⟨playable, after.afterRequests.1⟩
    · exact laggedFrames_nonneg onTrack.forward _ _ _
  · rw [silent]
    refine { taken with tracked := fun audio current => ?_ }
    obtain ⟨playable, onTrack⟩ := steady.tracked audio current
    have same := haltIfSilent_of_samples onTrack.buffer onTrack.sampled
    rw [same]
    exact ⟨playable, onTrack.afterRequests.1⟩

theorem step {event : PlaybackEvent} (suitable : event.Suitable outputLatencyFrames longest) :
    Steady outputLatencyFrames longest (playback.step double outputLatencyFrames event).1 := by
  cases event with
  | block numOutput => exact steady.block numOutput
  | prepareToPlay samplesPerBlockExpected sampleRate =>
      refine { steady with
        tracked := fun audio current => ?_
        latency := steady.latency
        prepared := suitable.2
        device := fun _ => suitable.1 }
      obtain ⟨playable, onTrack⟩ := steady.tracked audio current
      refine ⟨playable, { onTrack with asked := ⟨rfl, rfl⟩, head := ?_ }⟩
      have lagged : (takeRequests outputLatencyFrames playback.source
          (playback.renderer.prepareToPlay samplesPerBlockExpected
            sampleRate)).2.lastLaggedSourceFrames =
          (takeRequests outputLatencyFrames playback.source
            playback.renderer).2.lastLaggedSourceFrames := by
        dsimp only [takeRequests]
        split <;> rfl
      have head := onTrack.head
      simp only [Playback.start, Playback.afterRequests, Playback.step] at head ⊢
      rw [lagged]
      exact head
  | call call =>
      cases call with
      | load loaded =>
          refine steady.load fun audio own => ?_
          subst own
          exact suitable
      | seek seconds => exact steady.seek suitable
      | setLoop loop =>
          refine steady.setLoop fun points own => ?_
          subst own
          exact suitable
      | setPlaybackRate rate =>
          refine { steady with
            tracked := fun audio current => ?_
            forward := suitable.1
            atMostDouble := suitable.2 }
          obtain ⟨playable, onTrack⟩ := steady.tracked audio current
          exact ⟨playable, { onTrack with asked := ⟨rfl, rfl⟩, forward := suitable.1 }⟩
      | play | pause | setGain | setPitchOffsetSemitones | setRepeat =>
          refine { steady with tracked := fun audio current => ?_ }
          obtain ⟨playable, onTrack⟩ := steady.tracked audio current
          exact ⟨playable, { onTrack with asked := ⟨rfl, rfl⟩ }⟩

end Steady

end Steady

section PlayedOut

variable {outputLatencyFrames : ℚ → ℕ} {longest : ℕ} {playback : Playback} {audio : LoadedAudio}

/-- A deck that does not play and is asked for nothing, at the end of its track. -/
structure PlayedOut (playback : Playback) : Prop where
  silent : playback.source.playing = false
  asked : playback.NothingAsked
  position : ∀ audio, playback.source.messageThreadCurrentBuffer = some audio →
    (audio.numSamples : ℚ) - 1 - heldBack audio ≤ playback.source.positionSamples

theorem representable_heldBack (playable : Playable audio) :
    Representable binary64 ((audio.numSamples : ℚ) - 1 - heldBack audio) := by
  refine ⟨(audio.numSamples : ℤ) - 1 - heldBack audio, 0, ?_, by decide, by push_cast; ring⟩
  have wide : (2 : ℤ) ^ binary64.precision = 2 ^ 53 := rfl
  have samples := playable.short
  have frames := heldBack_le playable
  rw [wide, abs_le]
  omega

/-- A block stops a deck only at the end of its track. -/
theorem Steady.playedOut (steady : Steady outputLatencyFrames longest playback) {numOutput : ℕ}
    (played : playback.source.playing = true)
    (stopped : (playback.step double outputLatencyFrames (.block numOutput)).1.source.playing =
      false) :
    PlayedOut (playback.step double outputLatencyFrames (.block numOutput)).1 := by
  refine ⟨stopped, ?_, fun audio current => ?_⟩
  · rcases playback.step_block double outputLatencyFrames numOutput with
      ⟨other, _, rendered⟩ | ⟨_, silent⟩
    · rw [rendered, renderBlock_eq]
      exact ⟨rfl, rfl⟩
    · rw [silent]
      exact ⟨rfl, rfl⟩
  · have taken := steady.afterRequests
    rcases playback.step_block double outputLatencyFrames numOutput with
      ⟨other, heard, rendered⟩ | ⟨_, silent⟩
    · obtain ⟨buffer, _, _, _, prepared, _⟩ := audible_some heard
      have loaded : playback.source.messageThreadCurrentBuffer = some other :=
        steady.buffer.symm.trans buffer
      rw [rendered, renderBlock_eq] at current stopped ⊢
      obtain rfl : other = audio := Option.some.inj (loaded.symm.trans current)
      obtain ⟨playable, onTrack⟩ := steady.tracked other loaded
      have lag := @Steady.laggedFrames_le _ _ _ taken other numOutput loaded prepared
      have dry : (pullBlock double (playback.afterRequests outputLatencyFrames).source
          (playback.afterRequests outputLatencyFrames).renderer other numOutput).ranDry = true := by
        by_contra flows
        have going : (playback.source.playing && !(report double
            (playback.afterRequests outputLatencyFrames).source
            (playback.afterRequests outputLatencyFrames).renderer other numOutput).stops) =
              false := stopped
        have still : (report double (playback.afterRequests outputLatencyFrames).source
            (playback.afterRequests outputLatencyFrames).renderer other numOutput).stops =
              false := by
          simp [report, drainAfter, flows]
        rw [still, played] at going
        cases going
      have reached : lastFrame other.numSamples ≤
          (pullBlock double (playback.afterRequests outputLatencyFrames).source
            (playback.afterRequests outputLatencyFrames).renderer other numOutput).head := by
        have nonneg := onTrack.pulled_nonneg numOutput
        rw [Playback.pullBlock_eq_readIn] at dry nonneg ⊢
        exact (ReadHead.read_of_dry _ _ _ dry).2.1.resolve_left (not_lt.mpr nonneg)
      apply BinaryRounding.representable_le_round_of_le binary64 (by decide)
        (representable_heldBack playable)
      rw [lastFrame] at reached
      linarith
    · rw [silent] at current stopped
      obtain ⟨_, onTrack⟩ := steady.tracked audio current
      have same := haltIfSilent_of_samples onTrack.buffer onTrack.sampled
      have going : playback.source.playing = false := by
        rw [same] at stopped
        exact stopped
      rw [played] at going
      cases going

/-- Calls and blocks that neither move a deck nor start it. -/
def PlaybackEvent.LeavesBe : PlaybackEvent → Prop
  | .call (.load _) | .call (.seek _) | .call .play => False
  | _ => True

theorem PlayedOut.step (ended : PlayedOut playback) {event : PlaybackEvent}
    (leaves : event.LeavesBe) :
    PlayedOut (playback.step double outputLatencyFrames event).1 := by
  cases event with
  | prepareToPlay => exact ⟨ended.silent, ⟨ended.asked.seek, ended.asked.reset⟩, ended.position⟩
  | block numOutput =>
      obtain ⟨renderer, source⟩ := @afterRequests_of_nothingAsked outputLatencyFrames _ ended.asked
      rcases playback.step_block double outputLatencyFrames numOutput with
        ⟨other, heard, _⟩ | ⟨_, silent⟩
      · have plays := (audible_some heard).2.2.1
        rw [source] at plays
        exact absurd plays (by simp [ended.silent])
      · rw [silent, source]
        exact ⟨by simp [haltIfSilent, ended.silent], ⟨ended.asked.seek, ended.asked.reset⟩,
          ended.position⟩
  | call call =>
      cases call with
      | load | seek | play => exact absurd leaves id
      | pause => exact ⟨rfl, ⟨ended.asked.seek, ended.asked.reset⟩, ended.position⟩
      | setGain | setPlaybackRate | setPitchOffsetSemitones | setLoop | setRepeat =>
          exact ⟨ended.silent, ⟨ended.asked.seek, ended.asked.reset⟩, ended.position⟩

theorem durationSeconds_le (playable : Playable audio) :
    audio.durationSeconds ≤ audio.numSamples / audio.sampleRate + 1 / 64 := by
  have rate : 0 < audio.sampleRate := by linarith [playable.slowest]
  have nonneg : (0 : ℚ) ≤ audio.numSamples / audio.sampleRate :=
    div_nonneg (Nat.cast_nonneg _) rate.le
  have small : (audio.numSamples : ℚ) / audio.sampleRate ≤ 2 ^ 31 := by
    rw [div_le_iff₀ rate]
    have samples : (audio.numSamples : ℚ) ≤ 2 ^ 31 := by exact_mod_cast playable.short
    nlinarith [playable.slowest]
  unfold LoadedAudio.durationSeconds
  generalize (audio.numSamples : ℚ) / audio.sampleRate = seconds at nonneg small ⊢
  have above := Nat.le_ceil (seconds * 64)
  have near := Nat.ceil_lt_add_one (mul_nonneg nonneg (by norm_num : (0 : ℚ) ≤ 64))
  have few : ⌈seconds * 64⌉₊ ≤ 2 ^ 37 := by
    apply Nat.ceil_le.mpr
    push_cast
    linarith
  generalize ⌈seconds * 64⌉₊ = whole at above near few
  have representable : Representable binary64 (whole / 64) := by
    refine ⟨whole, -6, ?_, by decide, ?_⟩
    · have wide : (2 : ℤ) ^ binary64.precision = 2 ^ 53 := rfl
      rw [wide, abs_of_nonneg (Int.natCast_nonneg whole)]
      exact_mod_cast few.trans (by decide)
    · push_cast
      rw [zpow_neg]
      norm_num
      ring
  calc
    double seconds ≤ whole / 64 := by
      apply BinaryRounding.round_le_of_le_representable binary64 (by decide) representable
      linarith
    _ ≤ seconds + 1 / 64 := by linarith

theorem durationSeconds_pos (playable : Playable audio) : 0 < audio.durationSeconds := by
  have rate : 0 < audio.sampleRate := by linarith [playable.slowest]
  have some : (1 : ℚ) ≤ audio.numSamples := by
    exact_mod_cast Nat.one_le_iff_ne_zero.mpr playable.sampled
  have least : 1 / 2 ^ 20 ≤ (audio.numSamples : ℚ) / audio.sampleRate := by
    rw [le_div_iff₀ rate]
    linarith [playable.fastest]
  have representable : Representable binary64 (1 / 2 ^ 20) :=
    ⟨1, -20, by decide, by decide, by norm_num [zpow_neg]⟩
  have above := BinaryRounding.representable_le_round_of_le binary64 (by decide) representable least
  exact lt_of_lt_of_le (by norm_num) above

/-- What the engine then reports is within half a second of the length of the track. -/
theorem PlayedOut.position_near (ended : PlayedOut playback)
    (steady : Steady outputLatencyFrames longest playback)
    (loaded : playback.source.messageThreadCurrentBuffer = some audio) :
    double (audio.durationSeconds - 1 / 2) ≤ playback.source.getCurrentPositionSeconds double := by
  obtain ⟨playable, _⟩ := steady.tracked audio loaded
  have rate : 0 < audio.sampleRate := by linarith [playable.slowest]
  have sampled : playback.source.messageThreadSampleRate = audio.sampleRate := by
    rw [steady.sampled, loaded]
    rfl
  rw [BufferPlaybackSource.getCurrentPositionSeconds, sampled, if_neg (not_le.mpr rate)]
  apply BinaryRounding.double_mono
  have position := ended.position audio loaded
  have held := heldBack_lt playable
  have duration := durationSeconds_le playable
  have slow := playable.slowest
  have frames : (audio.numSamples : ℚ) - audio.sampleRate * (43 / 100) ≤
      playback.source.positionSamples := by linarith
  have seconds := div_le_div_of_nonneg_right frames rate.le
  rw [sub_div, mul_div_assoc, mul_comm, div_mul_cancel₀ _ rate.ne'] at seconds
  linarith

/-- Started again, a track of two seconds and more is read from its first frame. -/
theorem PlayedOut.start_again (ended : PlayedOut playback)
    (steady : Steady outputLatencyFrames longest playback)
    (loaded : playback.source.messageThreadCurrentBuffer = some audio)
    (long : 2 * audio.sampleRate ≤ audio.numSamples) :
    (Playback.afterRequests outputLatencyFrames
      { playback with source := (playback.source.requestSeek 0).perform .play }).start double =
        0 := by
  obtain ⟨playable, _⟩ := steady.tracked audio loaded
  have slow := playable.slowest
  have sampled : playback.source.messageThreadSampleRate = audio.sampleRate := by
    rw [steady.sampled, loaded]
    rfl
  have zero : double 0 = 0 := representable_zero.double_eq
  have far : audio.sampleRate < |double (-playback.source.positionSamples)| := by
    have position := ended.position audio loaded
    have held := heldBack_lt playable
    have back : double (-playback.source.positionSamples) ≤
        -((audio.numSamples : ℚ) - 1 - heldBack audio) := by
      apply BinaryRounding.round_le_of_le_representable binary64 (by decide)
        (representable_heldBack playable).neg
      linarith
    have distance := neg_le_abs (double (-playback.source.positionSamples))
    linarith
  simp [Playback.start, Playback.afterRequests, takeRequests, BufferPlaybackSource.perform,
    BufferPlaybackSource.requestSeek, sampled, far, zero]

end PlayedOut

end DjApp.Engine
