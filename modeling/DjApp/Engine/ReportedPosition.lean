import DjApp.Engine.Drain
import DjApp.Engine.PlayedPosition

/-! The position that the source reports: the head of the pull stage less a ramp for the
latency, which no wrap brings back onto the track. -/

set_option autoImplicit false

namespace DjApp.Engine

open Library
open Library.BinaryRounding (binary64 double double_mono representable_double Representable)

/-- An arithmetic that keeps the order and is exact on doubles: theirs, and the exact one. -/
structure Rounding (fl : ℚ → ℚ) : Prop where
  mono : ∀ {left right : ℚ}, left ≤ right → fl left ≤ fl right
  keeps : ∀ {value : ℚ}, Representable binary64 value → fl value = value

theorem rounding_double : Rounding double := ⟨double_mono, Representable.double_eq⟩

theorem Rounding.between {fl : ℚ → ℚ} (rounding : Rounding fl) {low value high : ℚ}
    (lower : Representable binary64 low) (upper : Representable binary64 high)
    (within : low ≤ value ∧ value ≤ high) : low ≤ fl value ∧ fl value ≤ high := by
  constructor
  · rw [← rounding.keeps lower]
    exact rounding.mono within.1
  · rw [← rounding.keeps upper]
    exact rounding.mono within.2

/-!
## What a report should satisfy
-/

section Definitions

variable (fl : ℚ → ℚ) (outputLatencyFrames : ℚ → ℕ)

/-- A count of source frames in seconds, as `getCurrentPositionSeconds` computes them. -/
def secondsAt (sampleRate samples : ℚ) : ℚ :=
  if sampleRate ≤ 0 then 0 else fl (samples / sampleRate)

/-- A load of a track, an in-range seek, or any call, preparation or block. -/
def Requested (row : PlaybackRow) : Prop :=
  match row.input with
  | .call (.load (some audio)) => audio.numSamples ≤ 2 ^ 52
  | .call (.seek seconds) =>
      ∀ audio, row.before.source.messageThreadCurrentBuffer = some audio →
        0 ≤ seconds ∧ seconds * audio.sampleRate ≤ audio.numSamples
  | _ => True

/-- Every frame that the block pulled lies inside the loop. -/
def Rendered.staysIn (loop : LoopState) (rendered : Rendered) : Bool :=
  !rendered.pulled.ranDry &&
    rendered.pulled.frames.all fun frame => loop.inSamples ≤ frame && frame < loop.outSamples

/-- How long the head has stayed inside a loop after one more step, in output frames. -/
def residenceAfter (loop : LoopState) (count : ℕ) (row : PlaybackRow) : ℕ :=
  if row.after.source.activeLoop = loop then
    match row.output with
    | some rendered => if rendered.staysIn loop then count + rendered.numOutput else 0
    | none =>
        if row.after.source.positionSamples = row.before.source.positionSamples then count else 0
  else 0

def residence (loop : LoopState) (rows : List PlaybackRow) : ℕ :=
  rows.foldl (residenceAfter loop) 0

/-- The head has stayed inside an active non-degenerate loop for longer than the latency of
the stretcher at any sample rate that the device has had. -/
structure Settled (rows : List PlaybackRow) (loop : LoopState) : Prop where
  on : loop.active = true
  ordered : loop.inSamples < loop.outSamples
  resident : residence loop rows ≠ 0
  long : ∀ row ∈ rows, outputLatencyFrames row.after.renderer.deviceSampleRate < residence loop rows

/-- The reported position is one of the loaded track, and of a loop the head has settled in. -/
structure ReportsWithin (earlier : List PlaybackRow) (row : PlaybackRow) : Prop where
  track : ∀ audio, row.after.source.messageThreadCurrentBuffer = some audio →
    0 ≤ row.after.source.getCurrentPositionSeconds fl ∧
      row.after.source.getCurrentPositionSeconds fl ≤
        secondsAt fl audio.sampleRate audio.numSamples
  loop : ∀ loop, Settled outputLatencyFrames (earlier ++ [row]) loop →
    secondsAt fl row.after.source.messageThreadSampleRate loop.inSamples ≤
        row.after.source.getCurrentPositionSeconds fl ∧
      row.after.source.getCurrentPositionSeconds fl <
        secondsAt fl row.after.source.messageThreadSampleRate loop.outSamples

namespace Playback

variable (playback : Playback) (audio : LoadedAudio) (numOutput : ℕ)

/-- Where the frames of the next block come from, each settled a step after the one before,
with every operation rounded. -/
def frameAt (index : ℕ) : ℚ :=
  (playback.courseIn fl audio).settleIn fl
    (ReadHead.headAt ((playback.courseIn fl audio).settleIn fl)
      ((playback.courseIn fl audio).advanceIn fl) (playback.start fl) index)

/-- Where the frames of the next block leave the head: at the first that cannot be rendered, or
a step past the last. -/
def landing (frames : ℕ → ℚ) : ℚ :=
  ReadHead.landing ((playback.courseIn fl audio).advanceIn fl) (playback.courseIn fl audio).Stuck
    frames (playback.pullFrames fl numOutput)

/-- The latency that the next block will not have made up for, in source frames. -/
def ramp : ℚ :=
  fl (fl ((min (playback.renderer.producedOutputFrames + numOutput)
    playback.renderer.outputLatencyFrames : ℕ) * playback.source.rate.value) *
      srcToDeviceRatio fl playback.renderer audio)

end Playback

/-- One count of source frames shows as an earlier second than another. -/
def ShownBefore (sampleRate earlier later : ℚ) : Prop :=
  secondsAt fl sampleRate (fl earlier) < secondsAt fl sampleRate later

/-- A track is loaded when the position still published lies on it. The ramp of a block
reaches back no further than the start of the track, or of a loop the head has settled in; and
the head lands no further past the end of the track than the ramp, and before that of the loop. -/
structure Covered (frames : Playback → LoadedAudio → ℕ → ℚ) (earlier : List PlaybackRow)
    (row : PlaybackRow) : Prop where
  load : ∀ audio, row.input = .call (.load (some audio)) → 0 < audio.sampleRate →
    0 ≤ row.before.source.positionSamples ∧ row.before.source.positionSamples ≤ audio.numSamples
  track : ∀ numOutput audio, row.input = .block numOutput →
    let taken := row.before.afterRequests outputLatencyFrames
    let landing := taken.landing fl audio numOutput (frames taken audio)
    audible taken.source taken.renderer numOutput = some audio → 0 < audio.sampleRate →
      taken.ramp fl audio numOutput ≤ landing ∧
        landing ≤ audio.numSamples + taken.ramp fl audio numOutput
  loop : ∀ numOutput audio loop, row.input = .block numOutput →
    let taken := row.before.afterRequests outputLatencyFrames
    let landing := taken.landing fl audio numOutput (frames taken audio)
    audible taken.source taken.renderer numOutput = some audio →
    Settled outputLatencyFrames (earlier ++ [row]) loop →
      loop.inSamples + taken.ramp fl audio numOutput ≤ landing ∧
        ShownBefore fl audio.sampleRate (landing - taken.ramp fl audio numOutput) loop.outSamples

end Definitions

/-!
## What the source keeps from call to call
-/

section Kept

variable {fl : ℚ → ℚ} {outputLatencyFrames : ℚ → ℕ} {playback : Playback}

/-- What every run keeps of the hand-over between the threads. -/
structure HandedOver (playback : Playback) : Prop where
  rate : playback.source.messageThreadSampleRate =
    playback.source.messageThreadCurrentBuffer.elim 0 LoadedAudio.sampleRate
  buffer : playback.source.activeBuffer = playback.source.messageThreadCurrentBuffer
  short : ∀ audio, playback.source.messageThreadCurrentBuffer = some audio →
    audio.numSamples ≤ 2 ^ 52
  pending : playback.source.seekPending = true →
    ∀ audio, playback.source.messageThreadCurrentBuffer = some audio →
      0 ≤ playback.source.pendingSeekSamples ∧
        playback.source.pendingSeekSamples ≤ audio.numSamples
  loopRate : playback.source.activeLoop.active = true → 0 < playback.source.messageThreadSampleRate
  loopEnd : ∀ audio, playback.source.messageThreadCurrentBuffer = some audio →
    playback.source.activeLoop.active = true →
      playback.source.activeLoop.outSamples ≤ lastFrame audio.numSamples
  loopIn : Representable binary64 playback.source.activeLoop.inSamples
  loopOut : Representable binary64 playback.source.activeLoop.outSamples

theorem representable_zero : Representable binary64 0 :=
  ⟨0, 0, by simp, by decide, by simp⟩

theorem representable_numSamples {count : ℕ} (short : count ≤ 2 ^ 52) :
    Representable binary64 (count : ℚ) := by
  refine BinaryRounding.representable_natCast (by decide) (short.trans ?_)
  exact Nat.pow_le_pow_right two_pos (by decide)

theorem representable_last {count : ℕ} (short : count ≤ 2 ^ 52) :
    Representable binary64 ((count : ℚ) - 1) := by
  refine ⟨count - 1, 0, ?_, by decide, by push_cast; simp⟩
  have wide : (2 : ℤ) ^ binary64.precision = 2 ^ 53 := rfl
  rw [wide, abs_le]
  omega

theorem handedOver_initial : HandedOver {} where
  rate := rfl
  buffer := rfl
  short _ none := by cases none
  pending asked := by cases asked
  loopRate none := by cases none
  loopEnd _ none := by cases none
  loopIn := representable_zero
  loopOut := representable_zero

theorem HandedOver.loopStateFor (handed : HandedOver playback) (loop : Option Client.LoopPoints) :
    ((playback.source.loopStateFor loop).active = true →
        0 < playback.source.messageThreadSampleRate) ∧
      Representable binary64 (playback.source.loopStateFor loop).inSamples ∧
      Representable binary64 (playback.source.loopStateFor loop).outSamples := by
  unfold BufferPlaybackSource.loopStateFor
  cases loop with
  | none => exact ⟨nofun, representable_zero, representable_zero⟩
  | some points =>
      dsimp only
      split
      · rename_i rate
        cases current : playback.source.messageThreadCurrentBuffer with
        | none => exact ⟨fun _ => rate, representable_double _, representable_double _⟩
        | some audio =>
            have last := representable_last (handed.short audio current)
            exact ⟨fun _ => rate, (representable_double _).min last,
              (representable_double _).min last⟩
      · exact ⟨nofun, representable_zero, representable_zero⟩

/-- A loop that is set on a track does not go beyond it. -/
theorem HandedOver.loopStateFor_end (handed : HandedOver playback) {audio : LoadedAudio}
    (current : playback.source.messageThreadCurrentBuffer = some audio)
    (loop : Option Client.LoopPoints) (active : (playback.source.loopStateFor loop).active = true) :
    (playback.source.loopStateFor loop).outSamples ≤ lastFrame audio.numSamples := by
  have rate := handed.rate
  rw [current] at rate
  rw [loopStateFor_eq current rate] at active ⊢
  cases loop with
  | none => cases active
  | some points =>
      simp only [loopStateIn] at active ⊢
      split at active
      · rename_i positive
        rw [if_pos positive]
        exact min_le_right _ _
      · cases active

theorem HandedOver.requestSeek (handed : HandedOver playback) {seconds : ℚ}
    (inRange : ∀ audio, playback.source.messageThreadCurrentBuffer = some audio →
      0 ≤ seconds ∧ seconds * audio.sampleRate ≤ audio.numSamples) :
    ∀ audio, playback.source.messageThreadCurrentBuffer = some audio →
      0 ≤ (playback.source.requestSeek seconds).pendingSeekSamples ∧
        (playback.source.requestSeek seconds).pendingSeekSamples ≤ audio.numSamples := by
  intro audio current
  obtain ⟨low, high⟩ := inRange audio current
  have rate : playback.source.messageThreadSampleRate = audio.sampleRate := by
    rw [handed.rate, current]
    rfl
  have short := handed.short audio current
  simp only [BufferPlaybackSource.requestSeek]
  split
  · rename_i positive
    rw [rate] at positive ⊢
    exact rounding_double.between representable_zero (representable_numSamples short)
      ⟨mul_nonneg low positive.le, high⟩
  · exact ⟨le_rfl, Nat.cast_nonneg _⟩

theorem HandedOver.afterRequests (handed : HandedOver playback) :
    HandedOver (playback.afterRequests outputLatencyFrames) :=
  { handed with pending := fun asked => by cases asked }

theorem HandedOver.step (handed : HandedOver playback) {event : PlaybackEvent}
    (requested : Requested (Machine.entry (Playback.step fl outputLatencyFrames) playback event)) :
    HandedOver (playback.step fl outputLatencyFrames event).1 := by
  cases event with
  | call call =>
      cases call with
      | load audio =>
          have still : (playback.source.load audio).activeLoop = {} :=
            activeLoop_load playback.source audio
          refine ⟨rfl, rfl, ?_, ?_, ?_, ?_, ?_, ?_⟩
          · rintro track loaded
            obtain rfl : audio = some track := loaded
            exact requested
          · exact fun _ track _ => ⟨le_rfl, Nat.cast_nonneg _⟩
          · intro active
            rw [Playback.step, BufferPlaybackSource.perform, still] at active
            cases active
          · intro track _ active
            rw [Playback.step, BufferPlaybackSource.perform, still] at active
            cases active
          · rw [Playback.step, BufferPlaybackSource.perform, still]
            exact representable_zero
          · rw [Playback.step, BufferPlaybackSource.perform, still]
            exact representable_zero
      | seek seconds => exact { handed with pending := fun _ => handed.requestSeek requested }
      | setLoop loop =>
          have published : (playback.source.setLoop loop).activeLoop =
              playback.source.loopStateFor loop := activeLoop_publishLoop _ _
          obtain ⟨rate, start, stop⟩ := handed.loopStateFor loop
          refine { handed with loopRate := ?_, loopEnd := ?_, loopIn := ?_, loopOut := ?_ }
          · rw [Playback.step, BufferPlaybackSource.perform, published]
            exact rate
          · rw [Playback.step, BufferPlaybackSource.perform, published]
            exact fun audio current => handed.loopStateFor_end current loop
          · rw [Playback.step, BufferPlaybackSource.perform, published]
            exact start
          · rw [Playback.step, BufferPlaybackSource.perform, published]
            exact stop
      | play | pause | setGain | setPlaybackRate | setPitchOffsetSemitones | setRepeat =>
          exact { handed with }
  | prepareToPlay => exact { handed with }
  | block numOutput =>
      have taken := @HandedOver.afterRequests outputLatencyFrames _ handed
      rcases playback.step_block fl outputLatencyFrames numOutput with
        ⟨audio, heard, rendered⟩ | ⟨_, silent⟩
      · rw [rendered, renderBlock_eq]
        exact { taken with }
      · rw [silent]
        exact { taken with }

/-- The frames of a block land where the pull of the block ends. -/
theorem landing_frameAt (playback : Playback) (audio : LoadedAudio) {numOutput : ℕ}
    (some : playback.pullFrames fl numOutput ≠ 0) :
    (pullBlock fl playback.source playback.renderer audio numOutput).head =
      playback.landing fl audio numOutput (playback.frameAt fl audio) := by
  rw [playback.pullBlock_eq_readIn]
  exact ReadHead.read_head_eq_landing _ _ _ some _

theorem pullFrames_ne_zero {playback : Playback} {audio : LoadedAudio} {numOutput : ℕ}
    (heard : audible playback.source playback.renderer numOutput = some audio) :
    playback.pullFrames fl numOutput ≠ 0 := by
  obtain ⟨_, _, _, _, prepared, _⟩ := audible_some heard
  simp only [Playback.pullFrames, pullCount]
  omega

/-- A block that is rendered publishes where its frames land, less the ramp. -/
theorem position_of_rendered (handed : HandedOver playback) {numOutput : ℕ} {audio : LoadedAudio}
    (heard : audible (playback.afterRequests outputLatencyFrames).source
      (playback.afterRequests outputLatencyFrames).renderer numOutput = some audio) :
    let row := Machine.entry (Playback.step fl outputLatencyFrames) playback (.block numOutput)
    let taken := playback.afterRequests outputLatencyFrames
    playback.source.messageThreadCurrentBuffer = some audio ∧ row.output.isSome = true ∧
      row.after.source.positionSamples =
        fl (taken.landing fl audio numOutput (taken.frameAt fl audio) -
          taken.ramp fl audio numOutput) := by
  intro row taken
  have buffer : playback.source.activeBuffer = some audio := (audible_some heard).1
  rw [handed.buffer] at buffer
  rcases playback.step_block fl outputLatencyFrames numOutput with
    ⟨other, again, rendered⟩ | ⟨silent, _⟩
  · obtain rfl : audio = other := Option.some.inj (heard.symm.trans again)
    refine ⟨buffer, ?_, ?_⟩
    · simp only [row, Machine.entry, rendered, Option.isSome_some]
    · simp only [row, Machine.entry, rendered, renderBlock_eq]
      rw [landing_frameAt _ _ (pullFrames_ne_zero heard)]
      rfl
  · cases silent.symm.trans heard

theorem position_of_silent {event : PlaybackEvent} :
    let row := Machine.entry (Playback.step fl outputLatencyFrames) playback event
    row.output = none →
      row.after.source.positionSamples = playback.source.positionSamples ∨
        playback.source.seekPending = true ∧
          row.after.source.positionSamples = playback.source.pendingSeekSamples := by
  intro row output
  cases event with
  | call call => cases call <;> exact .inl rfl
  | prepareToPlay => exact .inl rfl
  | block numOutput =>
      rcases playback.step_block fl outputLatencyFrames numOutput with
        ⟨audio, heard, rendered⟩ | ⟨_, silent⟩
      · simp only [row, Machine.entry, rendered] at output
        cases output
      · simp only [row, Machine.entry, silent, haltIfSilent, Playback.afterRequests, takeRequests]
        cases asked : playback.source.seekPending with
        | false => exact .inl rfl
        | true => exact .inr ⟨rfl, rfl⟩

theorem current_step {event : PlaybackEvent} (other : ∀ audio, event ≠ .call (.load audio)) :
    (playback.step fl outputLatencyFrames event).1.source.messageThreadCurrentBuffer =
      playback.source.messageThreadCurrentBuffer := by
  cases event with
  | call call =>
      cases call with
      | load audio => exact absurd rfl (other audio)
      | play | pause | seek | setGain | setPlaybackRate | setPitchOffsetSemitones | setLoop
      | setRepeat => rfl
  | prepareToPlay => rfl
  | block numOutput =>
      rcases playback.step_block fl outputLatencyFrames numOutput with
        ⟨audio, _, rendered⟩ | ⟨_, silent⟩
      · rw [rendered]
        rfl
      · rw [silent]
        rfl

theorem audible_of_rendered {event : PlaybackEvent} :
    let row := Machine.entry (Playback.step fl outputLatencyFrames) playback event
    let taken := playback.afterRequests outputLatencyFrames
    row.output.isSome = true → ∃ numOutput audio, event = .block numOutput ∧
      audible taken.source taken.renderer numOutput = some audio := by
  intro row taken output
  cases event with
  | call => cases output
  | prepareToPlay => cases output
  | block numOutput =>
      rcases playback.step_block fl outputLatencyFrames numOutput with
        ⟨audio, heard, _⟩ | ⟨_, silent⟩
      · exact ⟨numOutput, audio, rfl, heard⟩
      · simp only [row, Machine.entry, silent] at output
        cases output

end Kept

/-!
## Reports of one step
-/

section Step

variable {fl : ℚ → ℚ} {outputLatencyFrames : ℚ → ℕ} {earlier : List PlaybackRow} {playback : Playback}
  {event : PlaybackEvent}

/-- The published position, in source frames, lies on the track, and in a loop the head has
settled in. -/
structure Reported (fl : ℚ → ℚ) (outputLatencyFrames : ℚ → ℕ) (earlier : List PlaybackRow)
    (playback : Playback) : Prop where
  handed : HandedOver playback
  track : ∀ audio, playback.source.messageThreadCurrentBuffer = some audio →
    0 < audio.sampleRate → 0 ≤ playback.source.positionSamples ∧
      playback.source.positionSamples ≤ audio.numSamples
  loop : ∀ loop, Settled outputLatencyFrames earlier loop →
    loop.inSamples ≤ playback.source.positionSamples ∧
      playback.source.getCurrentPositionSeconds fl <
        secondsAt fl playback.source.messageThreadSampleRate loop.outSamples

theorem residence_concat (loop : LoopState) (rows : List PlaybackRow) (row : PlaybackRow) :
    residence loop (rows ++ [row]) = residenceAfter loop (residence loop rows) row := by
  rw [residence, List.foldl_append]
  rfl

/-- A head that has settled in a loop is in the loop that is active. -/
theorem Settled.active {row : PlaybackRow} {loop : LoopState}
    (settled : Settled outputLatencyFrames (earlier ++ [row]) loop) :
    row.after.source.activeLoop = loop := by
  have resident := settled.resident
  rw [residence_concat, residenceAfter] at resident
  by_contra other
  rw [if_neg other] at resident
  exact resident rfl

/-- A step that renders nothing keeps what has settled, at the position where it was. -/
theorem Settled.before {row : PlaybackRow} {loop : LoopState}
    (settled : Settled outputLatencyFrames (earlier ++ [row]) loop) (silent : row.output = none) :
    Settled outputLatencyFrames earlier loop ∧
      row.after.source.positionSamples = row.before.source.positionSamples := by
  have active := settled.active
  obtain ⟨on, ordered, resident, long⟩ := settled
  rw [residence_concat, residenceAfter, if_pos active, silent] at resident long
  dsimp only at resident long
  split at resident
  · rename_i same
    rw [if_pos same] at long
    exact ⟨⟨on, ordered, resident, fun prior listed => long prior (List.mem_append_left _ listed)⟩,
      same⟩
  · exact absurd rfl resident

/-- A step after which a loop is active has not loaded a track, nor changed its rate. -/
theorem rate_of_active
    (active : (playback.step fl outputLatencyFrames event).1.source.activeLoop.active = true) :
    (playback.step fl outputLatencyFrames event).1.source.messageThreadSampleRate =
      playback.source.messageThreadSampleRate := by
  cases event with
  | call call =>
      cases call with
      | load audio =>
          have still : (playback.source.load audio).activeLoop = {} :=
            activeLoop_load playback.source audio
          rw [Playback.step, BufferPlaybackSource.perform, still] at active
          cases active
      | play | pause | seek | setGain | setPlaybackRate | setPitchOffsetSemitones | setLoop
      | setRepeat => rfl
  | prepareToPlay => rfl
  | block numOutput =>
      rcases playback.step_block fl outputLatencyFrames numOutput with
        ⟨audio, _, rendered⟩ | ⟨_, silent⟩
      · rw [rendered]
        rfl
      · rw [silent]
        rfl

theorem Reported.step (rounding : Rounding fl)
    (reported : Reported fl outputLatencyFrames earlier playback) :
    let row := Machine.entry (Playback.step fl outputLatencyFrames) playback event
    Requested row → Covered fl outputLatencyFrames (Playback.frameAt fl) earlier row →
      Reported fl outputLatencyFrames (earlier ++ [row]) row.after := by
  intro row requested covered
  have handed := reported.handed.step requested
  refine ⟨handed, fun audio current positive => ?_, fun loop settled => ?_⟩
  · by_cases load : ∃ loaded, event = .call (.load loaded)
    · obtain ⟨loaded, rfl⟩ := load
      obtain rfl : loaded = some audio := current
      exact covered.load audio rfl positive
    · have same := @current_step fl outputLatencyFrames playback event
        fun loaded call => load ⟨loaded, call⟩
      rw [show row.after.source.messageThreadCurrentBuffer = _ from same] at current
      cases output : row.output with
      | none =>
          rcases position_of_silent output with position | ⟨asked, position⟩
          · rw [position]
            exact reported.track audio current positive
          · rw [position]
            exact reported.handed.pending asked audio current
      | some rendered =>
          obtain ⟨numOutput, other, rfl, heard⟩ :=
            audible_of_rendered (by rw [output]; rfl : row.output.isSome = true)
          obtain ⟨buffer, _, position⟩ := position_of_rendered reported.handed heard
          obtain rfl : audio = other := Option.some.inj (current.symm.trans buffer)
          have within := covered.track numOutput audio rfl heard positive
          rw [position]
          refine rounding.between representable_zero
            (representable_numSamples (reported.handed.short audio current)) ?_
          exact ⟨sub_nonneg.mpr within.1, sub_le_iff_le_add.mpr within.2⟩
  · have active := settled.active
    have rate : row.after.source.messageThreadSampleRate = playback.source.messageThreadSampleRate :=
      rate_of_active (active ▸ settled.on)
    cases output : row.output with
    | none =>
        obtain ⟨before, same⟩ := settled.before output
        obtain ⟨low, high⟩ := reported.loop loop before
        unfold BufferPlaybackSource.getCurrentPositionSeconds at high ⊢
        rw [same, rate]
        exact ⟨low, high⟩
    | some rendered =>
        obtain ⟨numOutput, audio, rfl, heard⟩ :=
          audible_of_rendered (by rw [output]; rfl : row.output.isSome = true)
        obtain ⟨buffer, _, position⟩ := position_of_rendered reported.handed heard
        obtain ⟨low, high⟩ := covered.loop numOutput audio loop rfl heard settled
        have start := handed.loopIn
        rw [show (playback.step fl outputLatencyFrames (.block numOutput)).1.source.activeLoop =
          loop from active] at start
        have same := reported.handed.rate
        rw [buffer, Option.elim_some] at same
        unfold BufferPlaybackSource.getCurrentPositionSeconds
        rw [position, rate, same]
        refine ⟨?_, high⟩
        rw [← rounding.keeps start]
        exact rounding.mono (le_sub_iff_add_le.mpr low)

/-- In exact arithmetic, a report on the track comes from a position on it. -/
theorem ReportsWithin.reported {row : PlaybackRow} (handed : HandedOver row.after)
    (reports : ReportsWithin id outputLatencyFrames earlier row) :
    Reported id outputLatencyFrames (earlier ++ [row]) row.after := by
  have rate := handed.rate
  refine ⟨handed, fun audio current positive => ?_, fun loop settled => ?_⟩
  · obtain ⟨low, high⟩ := reports.track audio current
    rw [current, Option.elim_some] at rate
    unfold BufferPlaybackSource.getCurrentPositionSeconds at low high
    rw [secondsAt, if_neg (not_le.mpr positive)] at high
    rw [rate, if_neg (not_le.mpr positive)] at low high
    exact ⟨by simpa using (le_div_iff₀ positive).mp low,
      (div_le_div_iff_of_pos_right positive).mp high⟩
  · obtain ⟨low, high⟩ := reports.loop loop settled
    have spacing := handed.loopRate
    rw [settled.active] at spacing
    have positive := spacing settled.on
    refine ⟨?_, high⟩
    unfold BufferPlaybackSource.getCurrentPositionSeconds secondsAt at low
    rw [if_neg (not_le.mpr positive), if_neg (not_le.mpr positive)] at low
    exact (div_le_div_iff_of_pos_right positive).mp low

/-- In exact arithmetic, a step that leaves the position on the track was covered. -/
theorem Reported.covered (before : HandedOver playback) :
    let row := Machine.entry (Playback.step id outputLatencyFrames) playback event
    Reported id outputLatencyFrames (earlier ++ [row]) row.after →
      Covered id outputLatencyFrames (Playback.frameAt id) earlier row := by
  intro row reported
  refine ⟨?_, ?_, ?_⟩
  · intro audio input positive
    obtain rfl : event = .call (.load (some audio)) := input
    exact reported.track audio rfl positive
  · intro numOutput audio input taken landing heard positive
    obtain rfl : event = .block numOutput := input
    obtain ⟨current, _, position⟩ := @position_of_rendered id outputLatencyFrames playback before _ audio heard
    have same := @current_step id outputLatencyFrames playback (.block numOutput)
      fun loaded call => by cases call
    obtain ⟨low, high⟩ := reported.track audio (same.trans current) positive
    rw [position] at low high
    exact ⟨sub_nonneg.mp low, sub_le_iff_le_add.mp high⟩
  · intro numOutput audio loop input taken landing heard settled
    obtain rfl : event = .block numOutput := input
    obtain ⟨current, _, position⟩ := @position_of_rendered id outputLatencyFrames playback before _ audio heard
    obtain ⟨low, high⟩ := reported.loop loop settled
    have rate : row.after.source.messageThreadSampleRate = audio.sampleRate := by
      have same := before.rate
      rw [current] at same
      exact (rate_of_active (settled.active ▸ settled.on)).trans same
    unfold BufferPlaybackSource.getCurrentPositionSeconds at high
    rw [position, rate] at high
    rw [position] at low
    exact ⟨le_sub_iff_add_le.mp low, high⟩

theorem Covered.congr {frames other : Playback → LoadedAudio → ℕ → ℚ} {row : PlaybackRow}
    (same : ∀ numOutput audio,
      audible (row.before.afterRequests outputLatencyFrames).source
        (row.before.afterRequests outputLatencyFrames).renderer numOutput = some audio →
      frames (row.before.afterRequests outputLatencyFrames) audio =
        other (row.before.afterRequests outputLatencyFrames) audio)
    (covered : Covered fl outputLatencyFrames frames earlier row) :
    Covered fl outputLatencyFrames other earlier row := by
  refine ⟨covered.load, fun numOutput audio input => ?_, fun numOutput audio loop input => ?_⟩
  · intro taken landing heard positive
    have within := covered.track numOutput audio input heard positive
    rw [same numOutput audio heard] at within
    exact within
  · intro taken landing heard settled
    have within := covered.loop numOutput audio loop input heard settled
    rw [same numOutput audio heard] at within
    exact within

end Step

/-!
## Reports of whole runs
-/

section Examples

/-- A call that no run need leave out: nothing but a short track is loaded, nor any seek made. -/
def PlaybackEvent.plain : PlaybackEvent → Bool
  | .call (.load (some audio)) => audio.numSamples ≤ 2 ^ 52
  | .call (.seek _) => false
  | _ => true

variable {fl : ℚ → ℚ} {frames : Playback → LoadedAudio → ℕ → ℚ}

/-- A second into a track of five, round a loop of three, at four frames a second. -/
def looped : List PlaybackEvent :=
  [.prepareToPlay 512 4, .call (.load (some (.silence 20 4))), .call (.setLoop (some ⟨1, 4⟩)),
    .call .play, .block 2, .block 2, .block 2, .block 2, .block 2]

end Examples

end DjApp.Engine
