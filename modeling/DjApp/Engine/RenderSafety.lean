import DjApp.Engine.Drain
import DjApp.Engine.RenderAccess

/-! No block reads or writes outside its buffers, or leaves a sample of its destination
unwritten, as long as no double overflows: the head then stays a number, and every frame it
stops at has both its neighbours on the track. -/

set_option autoImplicit false

namespace DjApp.Engine

open Library
open Library.BinaryRounding (double double_nonneg representable_double Representable binary64)
open Client (Single LoopPoints)

/-!
## Bounded doubles
-/

section Wraps

variable {position rangeStart rangeEnd : ℚ}

/-- The bound of a range: a double that leaves room for the arithmetic of the wrap. -/
structure Bound (value : ℚ) : Prop where
  small : |value| ≤ 2 ^ 800
  representable : Representable binary64 value

theorem bound_natCast {whole : ℕ} (fits : whole < 2 ^ 31) : Bound whole where
  small := by
    rw [abs_of_nonneg (Nat.cast_nonneg whole)]
    have wide : (whole : ℚ) ≤ 2 ^ 31 := by exact_mod_cast fits.le
    exact wide.trans (pow_le_pow_right₀ one_le_two (by decide))
  representable := BinaryRounding.representable_natCast (by decide) (by
    have precision : (2 : ℕ) ^ binary64.precision = 2 ^ 53 := rfl
    omega)

theorem Bound.neg {value : ℚ} (bound : Bound value) : Bound (-value) where
  small := by
    rw [abs_neg]
    exact bound.small
  representable := bound.representable.neg

theorem bound_lastFrame {numSamples : ℕ} (fits : numSamples < 2 ^ 31) :
    Bound ((numSamples : ℚ) - 1) := by
  cases numSamples with
  | zero =>
      have unit := (bound_natCast (by decide : 1 < 2 ^ 31)).neg
      simpa using unit
  | succ count =>
      have same : ((count + 1 : ℕ) : ℚ) - 1 = (count : ℕ) := by
        push_cast
        ring
      rw [same]
      exact bound_natCast (by omega)

/-- Without an overflow the wrap is the one of exact range, and it stays far from one. -/
theorem wrapRaw_finite (small : |position| ≤ 2 ^ 1000) (start : Bound rangeStart)
    (stop : Bound rangeEnd) :
    wrapRaw (.finite position) (.finite rangeStart) (.finite rangeEnd) =
        .finite (wrapPositionWithinRange double position rangeStart rangeEnd) ∧
      |wrapPositionWithinRange double position rangeStart rangeEnd| ≤ 2 ^ 1000 := by
  have grow : (2 : ℚ) ^ 800 ≤ 2 ^ 1000 := pow_le_pow_right₀ one_le_two (by decide)
  have away : |(-rangeStart)| ≤ 2 ^ 800 := by
    rw [abs_neg]
    exact start.small
  by_cases inside : rangeStart < rangeEnd ∧ rangeEnd ≤ position
  · obtain ⟨range, reached⟩ := inside
    have raw : wrapRaw (.finite position) (.finite rangeStart) (.finite rangeEnd) =
        (Ieee.finite rangeStart).add (((Ieee.finite position).sub (.finite rangeStart)).fmod
          ((Ieee.finite rangeEnd).sub (.finite rangeStart))) := by
      simp [wrapRaw, Ieee.lt, Ieee.le, range, reached]
    have exact : wrapPositionWithinRange double position rangeStart rangeEnd =
        double (rangeStart + fmod (double (position - rangeStart)) (double (rangeEnd - rangeStart))) :=
      if_pos ⟨range, reached⟩
    have distance : (Ieee.finite position).sub (.finite rangeStart) =
        .finite (double (position - rangeStart)) := by
      rw [sub_eq_add_neg]
      exact Ieee.ofRat_eq (Ieee.abs_add_le_two_pow small (away.trans grow)) (by decide)
    have span : |rangeEnd + -rangeStart| ≤ 2 ^ (800 + 1) := Ieee.abs_add_le_two_pow stop.small away
    have length : (Ieee.finite rangeEnd).sub (.finite rangeStart) =
        .finite (double (rangeEnd - rangeStart)) := by
      rw [sub_eq_add_neg]
      exact Ieee.ofRat_eq span (by decide)
    have positive := Ieee.double_sub_pos start.representable stop.representable range
    have ahead : 0 ≤ double (position - rangeStart) := double_nonneg (by linarith)
    have remainder : (Ieee.finite (double (position - rangeStart))).fmod
        (.finite (double (rangeEnd - rangeStart))) =
        .finite (fmod (double (position - rangeStart)) (double (rangeEnd - rangeStart))) := by
      simp only [Ieee.fmod, positive.ne', if_false, fmod]
      rw [Ieee.truncate_eq_floor (div_nonneg ahead positive.le)]
    have low := fmod_nonneg ahead positive.le
    have high := @fmod_lt (double (position - rangeStart)) _ positive
    have most := (le_abs_self _).trans (Ieee.abs_double_le span)
    rw [← sub_eq_add_neg] at most
    have sum : |rangeStart + fmod (double (position - rangeStart))
        (double (rangeEnd - rangeStart))| ≤ 2 ^ (801 + 1) := by
      refine Ieee.abs_add_le_two_pow
        (start.small.trans (pow_le_pow_right₀ one_le_two (by decide))) ?_
      rw [abs_of_nonneg low]
      exact high.le.trans most
    rw [raw, exact, distance, length, remainder]
    refine ⟨Ieee.ofRat_eq sum (by decide), (Ieee.abs_double_le sum).trans ?_⟩
    exact pow_le_pow_right₀ one_le_two (by decide)
  · have raw : wrapRaw (.finite position) (.finite rangeStart) (.finite rangeEnd) =
        .finite position := by
      rw [wrapRaw, if_neg]
      simpa [Ieee.lt, Ieee.le] using inside
    have exact : wrapPositionWithinRange double position rangeStart rangeEnd = position :=
      if_neg inside
    rw [raw, exact]
    exact ⟨rfl, small⟩

end Wraps

/-!
## The pull stage
-/

/-- Inside its buffer: the track's, the scratch buffers' or the requested range. -/
def Access.InBounds (source : RawSource) (numOutput outChannels : ℕ) : Access → Prop
  | .readSource channel index => ∃ audio, source.activeBuffer = some audio ∧
      channel < audio.channels.length ∧
      ∃ frame : ℕ, index = some (frame : ℤ) ∧ frame < audio.numSamples
  | .readPull channel index => channel < 2 ∧ index < source.scratchFrames
  | .writePull channel index => channel < 2 ∧ index < source.scratchFrames
  | .readStretchOut channel index => channel < 2 ∧ index < source.scratchFrames
  | .writeStretchOut channel index => channel < 2 ∧ index < source.scratchFrames
  | .writeOutput channel index => channel < outChannels ∧ index < numOutput

/-- A track with a channel whose length an `int` holds. -/
structure LoadedAudio.Playable (audio : LoadedAudio) : Prop where
  channels : audio.channels ≠ []
  length : audio.numSamples < 2 ^ 31
  sampleRate : |audio.sampleRate| ≤ 2 ^ 400

namespace RawSource

/-- The loop slot of a raw source, with its bounds as the doubles they are. -/
def LoopIs (source : RawSource) (loop : LoopState) : Prop :=
  source.loop = ⟨loop.active, .finite loop.inSamples, .finite loop.outSamples⟩ ∧
    Bound loop.inSamples ∧ Bound loop.outSamples

section Pull

variable {source : RawSource} {loop : LoopState} {position : ℚ}

theorem wrapHead_finite (looped : source.LoopIs loop) {lastRenderableFrame : ℚ}
    (last : Bound lastRenderableFrame) (small : |position| ≤ 2 ^ 1000) :
    source.wrapHead (.finite lastRenderableFrame) (.finite position) =
        .finite (Engine.wrapHead double loop source.repeats lastRenderableFrame position) ∧
      |Engine.wrapHead double loop source.repeats lastRenderableFrame position| ≤ 2 ^ 1000 := by
  obtain ⟨slot, start, stop⟩ := looped
  have confined : ∃ inner, (if source.loop.active then
        wrapRaw (.finite position) source.loop.inSamples source.loop.outSamples
        else .finite position) = .finite inner ∧
      inner = (if loop.active then
        wrapPositionWithinRange double position loop.inSamples loop.outSamples else position) ∧
      |inner| ≤ 2 ^ 1000 := by
    rw [slot]
    cases loop.active with
    | false => exact ⟨position, rfl, rfl, small⟩
    | true =>
        obtain ⟨same, bound⟩ := wrapRaw_finite small start stop
        exact ⟨_, same, rfl, bound⟩
  obtain ⟨inner, raw, exact, bound⟩ := confined
  unfold wrapHead Engine.wrapHead
  rw [raw, ← exact]
  obtain ⟨same, wrapped⟩ := wrapRaw_finite bound (bound_natCast (by decide : 0 < 2 ^ 31)) last
  rw [Nat.cast_zero] at same wrapped
  cases source.repeats with
  | false => exact ⟨by simp, by simpa using bound⟩
  | true =>
      by_cases reached : lastRenderableFrame ≤ inner
      · simp only [Ieee.le, reached, decide_true, Bool.and_self, if_true, true_and]
        exact ⟨same, wrapped⟩
      · simp only [Ieee.le, reached, decide_false, Bool.and_false, Bool.false_eq_true, if_false,
          and_false]
        exact ⟨trivial, bound⟩

theorem srcChannel_lt {audio : LoadedAudio} (channels : audio.channels ≠ []) (ch : ℕ) :
    srcChannel audio ch < audio.channels.length := by
  have some := List.length_pos_iff.mpr channels
  unfold srcChannel
  split
  · exact some
  · omega

variable {audio : LoadedAudio} {numOutput outChannels : ℕ}

theorem inBounds_silence {i count : ℕ} (fits : i + count ≤ source.scratchFrames) :
    ∀ access ∈ silenceAccesses i count, access.InBounds source numOutput outChannels := by
  intro access member
  obtain ⟨j, below, member⟩ := List.mem_flatMap.mp member
  have inside : i + j < source.scratchFrames := by
    have bound := List.mem_range.mp below
    omega
  simp only [List.mem_cons, List.not_mem_nil, or_false] at member
  rcases member with rfl | rfl
  · exact ⟨by decide, inside⟩
  · exact ⟨by decide, inside⟩

/-- A frame that the pull stops at has both its neighbours on the track. -/
theorem inBounds_frame (buffer : source.activeBuffer = some audio) (channels : audio.channels ≠ [])
    (fits : audio.numSamples < 2 ^ 31) {i : ℕ} (room : i < source.scratchFrames)
    (ahead : 0 ≤ position) (before : position < (audio.numSamples : ℚ) - 1) :
    ∀ access ∈ frameAccesses audio i (Ieee.finite position).toInt,
      access.InBounds source numOutput outChannels := by
  have wide : (audio.numSamples : ℚ) ≤ 2 ^ 31 := by exact_mod_cast fits.le
  rw [Ieee.toInt_finite ahead (by linarith)]
  obtain ⟨frame, floor⟩ := Int.eq_ofNat_of_zero_le (Int.floor_nonneg.mpr ahead)
  have next : frame + 1 < audio.numSamples := by
    have low := Int.floor_le position
    rw [floor] at low
    have bound : ((frame : ℤ) : ℚ) + 1 < audio.numSamples := by linarith
    exact_mod_cast bound
  rw [floor]
  intro access member
  obtain ⟨ch, both, member⟩ := List.mem_flatMap.mp member
  have channel := srcChannel_lt channels ch
  have rendered : ch < 2 := by
    simp only [List.mem_cons, List.not_mem_nil, or_false] at both
    omega
  simp only [List.mem_cons, List.not_mem_nil, or_false] at member
  rcases member with rfl | rfl | rfl
  · exact ⟨audio, buffer, channel, frame, rfl, by omega⟩
  · exact ⟨audio, buffer, channel, frame + 1, by push_cast; rfl, next⟩
  · exact ⟨rendered, room⟩

/-- The pull loop stays inside the track and the pull buffers, and leaves the head where the
arithmetic without overflow leaves it. -/
theorem pullFrom_safe (looped : source.LoopIs loop) (buffer : source.activeBuffer = some audio)
    (playable : audio.Playable) {ratio : ℚ}
    (moderate : |ratio| ≤ 2 ^ 800) {i count : ℕ} (fits : i + count ≤ source.scratchFrames)
    (small : |position| ≤ 2 ^ 1000) :
    let raw := source.pullFrom audio (.finite ratio) i count (.finite position)
    let exact := Engine.pullFrom double loop source.repeats ((audio.numSamples : ℚ) - 1) ratio
      count position
    (∀ access ∈ raw.accesses, access.InBounds source numOutput outChannels) ∧
      raw.head = .finite exact.head ∧ |exact.head| ≤ 2 ^ 1000 ∧ raw.ranDry = exact.ranDry := by
  induction count generalizing i position with
  | zero => exact ⟨fun _ none => absurd none List.not_mem_nil, rfl, small, rfl⟩
  | succ count ih =>
      obtain ⟨settled, bound⟩ :=
        wrapHead_finite looped (bound_lastFrame playable.length) small
      simp only [pullFrom, Engine.pullFrom, settled]
      generalize Engine.wrapHead double loop source.repeats ((audio.numSamples : ℚ) - 1) position =
        head at bound
      by_cases dry : head < 0 ∨ (audio.numSamples : ℚ) - 1 ≤ head
      · have stops : ((Ieee.finite head).lt (.finite 0) ||
            (Ieee.finite ((audio.numSamples : ℚ) - 1)).le (.finite head)) = true := by
          simpa [Ieee.lt, Ieee.le] using dry
        rw [if_pos stops, if_pos dry]
        exact ⟨inBounds_silence fits, rfl, bound, rfl⟩
      · have flows : ¬ ((Ieee.finite head).lt (.finite 0) ||
            (Ieee.finite ((audio.numSamples : ℚ) - 1)).le (.finite head)) = true := by
          simpa [Ieee.lt, Ieee.le] using dry
        obtain ⟨ahead, before⟩ := not_or.mp dry
        have place : 0 ≤ head := not_lt.mp ahead
        have wide : (audio.numSamples : ℚ) ≤ 2 ^ 31 := by exact_mod_cast playable.length.le
        have inside : |head| ≤ 2 ^ 800 := by
          rw [abs_of_nonneg place]
          have low : head ≤ 2 ^ 31 := by linarith
          exact low.trans (pow_le_pow_right₀ one_le_two (by decide))
        have sum := Ieee.abs_add_le_two_pow inside moderate
        have moved : (Ieee.finite head).add (.finite ratio) = .finite (double (head + ratio)) :=
          Ieee.ofRat_eq sum (by decide)
        have next : |double (head + ratio)| ≤ 2 ^ 1000 :=
          (Ieee.abs_double_le sum).trans (pow_le_pow_right₀ one_le_two (by decide))
        obtain ⟨safe, reached, close, dryness⟩ := ih (by omega : i + 1 + count ≤ _) next
        rw [if_neg flows, if_neg dry, moved]
        refine ⟨?_, reached, close, dryness⟩
        intro access member
        rcases List.mem_append.mp member with frame | later
        · exact inBounds_frame buffer playable.channels playable.length (by omega) place
            (not_le.mp before) access frame
        · exact safe access later

end Pull

/-!
## The invariant of the source
-/

/-- What holds of a source between two steps: every number it has is finite, and small enough
for the next block. -/
structure Sound (source : RawSource) : Prop where
  rate : 1 / 2 ≤ source.rate.value ∧ source.rate.value ≤ 2
  device : |source.deviceSampleRate| ≤ 2 ^ 400
  -- A positive device rate divides the track's.
  divisor : 0 < source.deviceSampleRate → 1 ≤ source.deviceSampleRate * 2 ^ 400
  position : Ieee.Within 1000 source.positionSamples
  pendingSeek : Ieee.Within 1000 source.pendingSeekSamples
  accumulator : Ieee.Within 90 source.pullAccumulator
  lagged : Ieee.Within 832 source.lastLaggedSourceFrames
  latency : source.outputLatencyFrames < 2 ^ 31
  scratch : source.scratchFrames < 2 ^ 31
  loop : ∃ loop, source.LoopIs loop
  buffer : ∀ audio, source.activeBuffer = some audio → audio.Playable
  current : ∀ audio, source.messageThreadCurrentBuffer = some audio → audio.Playable
  sampleRate : |source.messageThreadSampleRate| ≤ 2 ^ 400

theorem within_zero (digits : ℕ) : Ieee.Within digits (.finite 0) :=
  Ieee.within_finite (by rw [abs_zero]; positivity)

theorem bound_zero : Bound 0 := by
  have none := bound_natCast (by decide : 0 < 2 ^ 31)
  rwa [Nat.cast_zero] at none

theorem loopIs_default {source : RawSource} (none : source.loop = {}) : source.LoopIs {} :=
  ⟨none, bound_zero, bound_zero⟩

theorem sound_initial : Sound {} where
  rate := by
    have unity : (Single.ofDouble 1).value = 1 := by decide +kernel
    rw [unity]
    norm_num
  device := by rw [abs_zero]; positivity
  divisor := fun positive => absurd positive (lt_irrefl _)
  position := within_zero _
  pendingSeek := within_zero _
  accumulator := within_zero _
  lagged := within_zero _
  latency := by decide
  scratch := by decide
  loop := ⟨{}, loopIs_default rfl⟩
  buffer := fun _ some => by cases some
  current := fun _ some => by cases some
  sampleRate := by rw [abs_zero]; positivity

/-- Calls whose numbers are far from the end of the doubles, and buffers whose sizes an `int`
holds. -/
def Event.Moderate : Event → Prop
  | .call (.load (some audio)) => audio.Playable
  | .call (.seek seconds) => |seconds| ≤ 2 ^ 400
  | .call (.setLoop (some points)) => |points.inSeconds| ≤ 2 ^ 400 ∧ |points.outSeconds| ≤ 2 ^ 400
  | .call (.setPlaybackRate rate) => 1 / 2 ≤ rate.value ∧ rate.value ≤ 2
  | .call _ => True
  | .prepareToPlay samplesPerBlockExpected sampleRate =>
      max samplesPerBlockExpected 512 * 4 + 4096 < 2 ^ 31 ∧ |sampleRate| ≤ 2 ^ 400 ∧
        (0 < sampleRate → 1 ≤ sampleRate * 2 ^ 400)
  | .block _ _ _ => True

section Calls

variable {source : RawSource}

theorem within_samples {seconds sampleRate : ℚ} (moderate : |seconds| ≤ 2 ^ 400)
    (bounded : |sampleRate| ≤ 2 ^ 400) :
    ∃ samples, (Ieee.finite seconds).mul (.finite sampleRate) = .finite samples ∧ Bound samples := by
  have product : |seconds * sampleRate| ≤ 2 ^ 800 := by
    rw [abs_mul]
    calc |seconds| * |sampleRate| ≤ 2 ^ 400 * 2 ^ 400 :=
          mul_le_mul moderate bounded (abs_nonneg _) (by positivity)
      _ = 2 ^ 800 := (pow_add 2 400 400).symm
  exact ⟨_, Ieee.ofRat_eq product (by decide), Ieee.abs_double_le product, representable_double _⟩

theorem bound_min {left right : ℚ} (first : Bound left) (second : Bound right) :
    ∃ least, (Ieee.finite left).min (.finite right) = .finite least ∧ Bound least := by
  unfold Ieee.min
  split
  · exact ⟨right, rfl, second⟩
  · exact ⟨left, rfl, first⟩

theorem Sound.loopStateFor (sound : source.Sound) {loop : Option LoopPoints}
    (moderate : ∀ points, loop = some points →
      |points.inSeconds| ≤ 2 ^ 400 ∧ |points.outSeconds| ≤ 2 ^ 400) :
    ∃ state, { source with loop := source.loopStateFor loop }.LoopIs state := by
  cases loop with
  | none => exact ⟨{}, loopIs_default rfl⟩
  | some points =>
      by_cases known : 0 < source.messageThreadSampleRate
      · obtain ⟨small, little⟩ := moderate points rfl
        obtain ⟨inSamples, start, startBound⟩ := within_samples small sound.sampleRate
        obtain ⟨outSamples, stop, stopBound⟩ := within_samples little sound.sampleRate
        cases current : source.messageThreadCurrentBuffer with
        | none =>
            refine ⟨⟨true, inSamples, outSamples⟩, ?_, startBound, stopBound⟩
            simp only [RawSource.loopStateFor, if_pos known, current, start, stop]
        | some audio =>
            have last := bound_lastFrame (sound.current audio current).length
            obtain ⟨first, least, firstBound⟩ := bound_min startBound last
            obtain ⟨second, lesser, secondBound⟩ := bound_min stopBound last
            refine ⟨⟨true, first, second⟩, ?_, firstBound, secondBound⟩
            simp only [RawSource.loopStateFor, if_pos known, current, start, stop, least, lesser]
      · refine ⟨{}, loopIs_default ?_⟩
        simp only [RawSource.loopStateFor, if_neg known]

theorem Sound.perform (sound : source.Sound) {call : EngineCall}
    (moderate : Event.Moderate (.call call)) : (source.perform call).Sound := by
  cases call with
  | load audio =>
      have playable : ∀ track, audio = some track → track.Playable := by
        rintro track rfl
        exact moderate
      have sampleRate : |audio.elim 0 LoadedAudio.sampleRate| ≤ 2 ^ 400 := by
        cases audio with
        | none => rw [Option.elim_none, abs_zero]; positivity
        | some track => exact moderate.sampleRate
      exact { sound with
        pendingSeek := within_zero _
        loop := ⟨{}, loopIs_default rfl⟩
        buffer := playable
        current := playable
        sampleRate := sampleRate }
  | play => exact { sound with }
  | pause => exact { sound with }
  | seek seconds =>
      have pending : Ieee.Within 1000 (source.requestSeek seconds).pendingSeekSamples := by
        simp only [requestSeek]
        split
        · obtain ⟨samples, product, bound⟩ := within_samples moderate sound.sampleRate
          rw [product]
          exact Ieee.Within.mono (Ieee.within_finite bound.small) (by decide)
        · exact within_zero _
      exact { sound with pendingSeek := pending }
  | setGain linearGain => exact sound
  | setPlaybackRate rate => exact { sound with rate := moderate }
  | setPitchOffsetSemitones semitones => exact sound
  | setLoop loop =>
      have slot := @Sound.loopStateFor _ sound loop (by rintro points rfl; exact moderate)
      exact { sound with loop := slot }
  | setRepeat repeats => exact { sound with }

theorem Sound.prepareToPlay (sound : source.Sound) {samplesPerBlockExpected : ℕ} {sampleRate : ℚ}
    (moderate : Event.Moderate (.prepareToPlay samplesPerBlockExpected sampleRate)) :
    (source.prepareToPlay samplesPerBlockExpected sampleRate).Sound :=
  { sound with
    device := moderate.2.1
    divisor := moderate.2.2
    scratch := moderate.1 }

theorem Sound.takeRequests (sound : source.Sound) (stretcher : Stretcher) :
    (source.takeRequests stretcher).Sound := by
  have sought (taken : RawSource) (reset : taken.Sound) : (if taken.seekPending then
      { taken with positionSamples := taken.pendingSeekSamples, seekPending := false }
      else taken).Sound := by
    split
    · exact { reset with position := reset.pendingSeek }
    · exact reset
  apply sought _
  split
  · exact { sound with
      accumulator := within_zero _
      lagged := within_zero _
      latency := stretcher.latencyFits }
  · exact sound

theorem takeRequests_buffers (source : RawSource) (stretcher : Stretcher) :
    (source.takeRequests stretcher).activeBuffer = source.activeBuffer ∧
      (source.takeRequests stretcher).scratchFrames = source.scratchFrames := by
  unfold RawSource.takeRequests
  cases reset : source.forceStretcherReset <;> cases sought : source.seekPending <;>
    simp [reset, sought]

end Calls

/-!
## Blocks and whole runs
-/

section Blocks

variable {source : RawSource} {audio : LoadedAudio} {numOutput outChannels : ℕ}

theorem Sound.srcToDeviceRatio (sound : source.Sound) (playable : audio.Playable) :
    ∃ ratio, source.srcToDeviceRatio audio = .finite ratio ∧ |ratio| ≤ 2 ^ 800 := by
  by_cases positive : 0 < source.deviceSampleRate
  · have numerator : |if 0 < audio.sampleRate then audio.sampleRate
        else source.deviceSampleRate| ≤ 2 ^ 400 := by
      split
      · exact playable.sampleRate
      · exact sound.device
    have quotient : |(if 0 < audio.sampleRate then audio.sampleRate
        else source.deviceSampleRate) / source.deviceSampleRate| ≤ 2 ^ 800 := by
      rw [abs_div, abs_of_pos positive, div_le_iff₀ positive]
      calc _ ≤ (2 : ℚ) ^ 400 * 1 := by rw [mul_one]; exact numerator
        _ ≤ 2 ^ 400 * (source.deviceSampleRate * 2 ^ 400) :=
            mul_le_mul_of_nonneg_left (sound.divisor positive) (by positivity)
        _ = 2 ^ (400 + 400) * source.deviceSampleRate := by
            rw [pow_add, mul_assoc, mul_comm source.deviceSampleRate]
    refine ⟨_, ?_, Ieee.abs_double_le quotient⟩
    simp only [RawSource.srcToDeviceRatio, if_pos positive]
    exact Ieee.ofRat_eq quotient (by decide)
  · refine ⟨1, ?_, ?_⟩
    · simp only [RawSource.srcToDeviceRatio, if_neg positive]
    · rw [abs_one]
      exact one_le_pow₀ one_le_two

theorem Sound.rate_within (sound : source.Sound) : Ieee.Within 1 (.finite source.rate.value) := by
  apply Ieee.within_finite
  obtain ⟨slowest, fastest⟩ := sound.rate
  rw [abs_of_nonneg (by linarith), pow_one]
  exact fastest

theorem within_natCast {count : ℕ} (fits : count < 2 ^ 31) : Ieee.Within 31 (.finite count) := by
  apply Ieee.within_finite
  rw [abs_of_nonneg (Nat.cast_nonneg count)]
  exact_mod_cast fits.le

theorem Sound.accumulated (sound : source.Sound) (fits : numOutput < 2 ^ 31) :
    Ieee.Within 90 (source.pullAccumulator.add
      ((Ieee.finite numOutput).mul (.finite source.rate.value))) :=
  sound.accumulator.add_small ((within_natCast fits).mul sound.rate_within (by decide))
    (by decide +kernel) (by decide)

/-- Whatever the cast gives, the block pulls a frame at least, and not more than an `int`. -/
theorem wanted_bounds (undefinedInt : Ieee → Int32) (number : Ieee) :
    1 ≤ max 1 (number.toInt.getD (undefinedInt number).toInt) ∧
      max 1 (number.toInt.getD (undefinedInt number).toInt) < 2 ^ 31 := by
  have cast : number.toInt.getD (undefinedInt number).toInt < 2 ^ 31 := by
    cases number with
    | finite value =>
        simp only [Ieee.toInt]
        split
        · rename_i inside
          exact inside.2
        · exact Int32.toInt_lt _
    | infinite negative => exact Int32.toInt_lt _
    | nan => exact Int32.toInt_lt _
  omega

theorem inBounds_process {source : RawSource} {numInput : ℕ} (pulls : numInput ≤ source.scratchFrames)
    (fits : numOutput ≤ source.scratchFrames) {access : Access}
    (contract : access.OfProcess numInput numOutput) :
    access.InBounds source numOutput outChannels := by
  cases access with
  | readPull channel index => exact ⟨contract.1, contract.2.trans_le pulls⟩
  | readStretchOut channel index => exact ⟨contract.1, contract.2.trans_le fits⟩
  | writeStretchOut channel index => exact ⟨contract.1, contract.2.trans_le fits⟩
  | readSource channel index => exact contract.elim
  | writePull channel index => exact contract.elim
  | writeOutput channel index => exact contract.elim

theorem inBounds_clear {ch : ℕ} (channel : ch < outChannels) :
    ∀ access ∈ clearAccesses ch numOutput, access.InBounds source numOutput outChannels := by
  intro access member
  obtain ⟨o, below, rfl⟩ := List.mem_map.mp member
  exact ⟨channel, List.mem_range.mp below⟩

theorem inBounds_write (fits : numOutput ≤ source.scratchFrames) :
    ∀ access ∈ writeAccesses outChannels numOutput,
      access.InBounds source numOutput outChannels := by
  intro access member
  obtain ⟨ch, channel, member⟩ := List.mem_flatMap.mp member
  have channel := List.mem_range.mp channel
  split at member
  · rename_i rendered
    obtain ⟨o, below, member⟩ := List.mem_flatMap.mp member
    have below := List.mem_range.mp below
    simp only [List.mem_cons, List.not_mem_nil, or_false] at member
    rcases member with rfl | rfl
    · exact ⟨rendered, below.trans_le fits⟩
    · exact ⟨channel, below⟩
  · exact inBounds_clear channel access member

theorem mem_clear {ch o : ℕ} (channel : ch < outChannels) (below : o < numOutput) :
    .writeOutput ch o ∈ clear outChannels numOutput :=
  List.mem_flatMap.mpr ⟨ch, List.mem_range.mpr channel,
    List.mem_map.mpr ⟨o, List.mem_range.mpr below, rfl⟩⟩

theorem mem_write {ch o : ℕ} (channel : ch < outChannels) (below : o < numOutput) :
    .writeOutput ch o ∈ writeAccesses outChannels numOutput := by
  refine List.mem_flatMap.mpr ⟨ch, List.mem_range.mpr channel, ?_⟩
  have index := List.mem_range.mpr below
  split
  · exact List.mem_flatMap.mpr ⟨o, index, by simp⟩
  · exact List.mem_map.mpr ⟨o, index, rfl⟩

/-- What a block does to memory, beside the buffers it had. -/
structure Safe (source : RawSource) (numOutput outChannels : ℕ) (accesses : List Access) : Prop where
  inBounds : ∀ access ∈ accesses, access.InBounds source numOutput outChannels
  written : ∀ ch < outChannels, ∀ o < numOutput, .writeOutput ch o ∈ accesses

theorem safe_clear : Safe source numOutput outChannels (clear outChannels numOutput) where
  inBounds := by
    intro access member
    obtain ⟨ch, channel, member⟩ := List.mem_flatMap.mp member
    exact inBounds_clear (List.mem_range.mp channel) access member
  written _ channel _ below := mem_clear channel below

variable {undefinedInt : Ieee → Int32}

theorem Sound.renderBlock (sound : source.Sound) (buffer : source.activeBuffer = some audio)
    (fits : numOutput ≤ source.scratchFrames) (stretcher : Stretcher) :
    Safe source numOutput outChannels
        (source.renderBlock undefinedInt stretcher audio numOutput outChannels).2 ∧
      (source.renderBlock undefinedInt stretcher audio numOutput outChannels).1.Sound := by
  have playable := sound.buffer audio buffer
  obtain ⟨loop, looped⟩ := sound.loop
  obtain ⟨ratio, same, moderate⟩ := sound.srcToDeviceRatio playable
  obtain ⟨start, head, small⟩ :=
    sound.position.add_small sound.lagged (by decide +kernel) (by decide)
  have accumulated := sound.accumulated (lt_of_le_of_lt fits sound.scratch)
  obtain ⟨least, most⟩ := wanted_bounds undefinedInt (source.pullAccumulator.add
    ((Ieee.finite numOutput).mul (.finite source.rate.value))).floor
  simp only [RawSource.renderBlock, same, head]
  generalize max 1 (((source.pullAccumulator.add
    ((Ieee.finite numOutput).mul (.finite source.rate.value))).floor.toInt).getD
      (undefinedInt (source.pullAccumulator.add
        ((Ieee.finite numOutput).mul (.finite source.rate.value))).floor).toInt) = wanted at least most ⊢
  have room : 0 + min wanted.toNat source.scratchFrames ≤ source.scratchFrames := by omega
  obtain ⟨pullSafe, reached, close, _⟩ := @pullFrom_safe _ _ _ _ numOutput outChannels looped
    buffer playable _ moderate 0 _ room small
  have lagged : Ieee.Within 832 (((Ieee.finite (min (source.producedOutputFrames + numOutput)
      source.outputLatencyFrames : ℕ)).mul (.finite source.rate.value)).mul (.finite ratio)) := by
    have frames := within_natCast
      (lt_of_le_of_lt (min_le_right (source.producedOutputFrames + numOutput) _) sound.latency)
    have scaled := frames.mul sound.rate_within (by decide)
    have product := scaled.mul (Ieee.within_finite moderate) (by decide)
    exact product
  refine ⟨⟨?_, fun ch channel o below =>
    List.mem_append_right _ (mem_write channel below)⟩, ?_⟩
  · intro access member
    rcases List.mem_append.mp member with member | write
    · rcases List.mem_append.mp member with pull | process
      · exact pullSafe access pull
      · exact inBounds_process (by omega) fits (stretcher.contract _ _ access process)
    · exact inBounds_write fits access write
  · have due : Ieee.Within 31 (Ieee.finite wanted) := by
      apply Ieee.within_finite
      rw [abs_of_nonneg (by exact_mod_cast (by omega : 0 ≤ wanted))]
      exact_mod_cast most.le
    have published : Ieee.Within 1000 ((source.pullFrom audio (.finite ratio) 0
        (min wanted.toNat source.scratchFrames) (.finite start)).head.sub
          (((Ieee.finite (min (source.producedOutputFrames + numOutput)
            source.outputLatencyFrames : ℕ)).mul (.finite source.rate.value)).mul
              (.finite ratio))) := by
      rw [reached]
      exact (Ieee.within_finite close).add_small lagged.neg (by decide +kernel) (by decide)
    exact { sound with
      position := published
      accumulator := accumulated.add_small due.neg (by decide +kernel) (by decide)
      lagged := lagged }

theorem Sound.getNextAudioBlock (sound : source.Sound) (stretcher : Stretcher) :
    Safe source numOutput outChannels
        (source.getNextAudioBlock undefinedInt stretcher numOutput outChannels).2 ∧
      (source.getNextAudioBlock undefinedInt stretcher numOutput outChannels).1.Sound := by
  have taken := sound.takeRequests stretcher
  obtain ⟨buffers, scratch⟩ := takeRequests_buffers source stretcher
  have carried {accesses : List Access}
      (safe : Safe (source.takeRequests stretcher) numOutput outChannels accesses) :
      Safe source numOutput outChannels accesses := by
    refine ⟨fun access member => ?_, safe.written⟩
    have inside := safe.inBounds access member
    cases access with
    | readSource channel index => rwa [Access.InBounds, buffers] at inside
    | readPull channel index => rwa [Access.InBounds, scratch] at inside
    | writePull channel index => rwa [Access.InBounds, scratch] at inside
    | readStretchOut channel index => rwa [Access.InBounds, scratch] at inside
    | writeStretchOut channel index => rwa [Access.InBounds, scratch] at inside
    | writeOutput channel index => exact inside
  have halted : { source.takeRequests stretcher with playing := false }.Sound :=
    { taken with }
  unfold RawSource.getNextAudioBlock
  dsimp only
  split
  · exact ⟨safe_clear, halted⟩
  · rename_i audio buffer
    split
    · exact ⟨safe_clear, halted⟩
    · split
      · exact ⟨safe_clear, taken⟩
      · split
        · rename_i none
          subst none
          exact ⟨⟨fun _ member => absurd member List.not_mem_nil,
            fun _ _ _ below => absurd below (Nat.not_lt_zero _)⟩, taken⟩
        · split
          · exact ⟨safe_clear, taken⟩
          · rename_i room
            have fits := not_lt.mp (not_or.mp room).2
            obtain ⟨safe, after⟩ := taken.renderBlock buffer fits stretcher
            exact ⟨carried safe, after⟩

theorem Sound.step (sound : source.Sound) {event : Event} (moderate : event.Moderate) :
    (source.step undefinedInt event).1.Sound := by
  cases event with
  | call call => exact sound.perform moderate
  | prepareToPlay samplesPerBlockExpected sampleRate => exact sound.prepareToPlay moderate
  | block stretcher numOutput outChannels =>
      exact (sound.getNextAudioBlock stretcher).2

/-- In every run whose numbers are moderate, each block stays inside its buffers and writes
every sample it was asked for. -/
theorem render_safe {events : List Event} (moderate : ∀ event ∈ events, event.Moderate) :
    ∀ row ∈ Machine.trace (RawSource.step undefinedInt) {} events,
      ∀ stretcher numOutput outChannels, row.input = .block stretcher numOutput outChannels →
        Safe row.before numOutput outChannels row.output := by
  intro row member stretcher numOutput outChannels input
  obtain ⟨earlier, later, rfl, shape⟩ := Machine.mem_trace _ member
  have before : (Machine.run (RawSource.step undefinedInt) {} earlier).Sound := by
    have started := fun event inside => moderate event (List.mem_append_left _ inside)
    clear member shape moderate
    induction earlier using List.reverseRecOn with
    | nil => exact sound_initial
    | append_singleton earlier event ih =>
        rw [Machine.run_concat]
        have last := started event (List.mem_append_right _ (List.mem_singleton_self event))
        refine Sound.step (ih ?_) last
        exact fun other inside => started other (List.mem_append_left _ inside)
  rw [shape, input]
  exact (before.getNextAudioBlock stretcher).1

end Blocks

/-!
## A short loop and a far seek
-/

/-- The identity at a step of one frame: each frame of output from one of input and the next. -/
def frameByFrame : Stretcher where
  outputLatencyFrames := 0
  latencyFits := by decide
  process numInput numOutput :=
    if numInput = 0 then []
    else (List.range numOutput).flatMap fun o => [0, 1].flatMap fun ch =>
      [.readPull ch (min o (numInput - 1)), .readPull ch (min (min o (numInput - 1) + 1) (numInput - 1)),
        .writeStretchOut ch o]
  contract := by
    intro numInput numOutput access member
    split at member
    · exact absurd member List.not_mem_nil
    · rename_i some
      obtain ⟨o, below, member⟩ := List.mem_flatMap.mp member
      obtain ⟨ch, both, member⟩ := List.mem_flatMap.mp member
      have below := List.mem_range.mp below
      have channel : ch < 2 := by
        simp only [List.mem_cons, List.not_mem_nil, or_false] at both
        omega
      simp only [List.mem_cons, List.not_mem_nil, or_false] at member
      rcases member with rfl | rfl | rfl
      · exact ⟨channel, by omega⟩
      · exact ⟨channel, by omega⟩
      · exact ⟨channel, below⟩

/-- A track of two frames on a prepared deck, sought to the end of its loop. -/
def shortLoop : List Event :=
  [.prepareToPlay 512 44100, .call (.load (some (.silence 2 44100))),
    .call (.setLoop (some ⟨0, 1⟩)), .call (.seek 1), .call .play, .block frameByFrame 3 4]

theorem render_safe_shortLoop :
    let before := Machine.run (RawSource.step fun _ => 0) {} (shortLoop.take 5)
    before.playing = true ∧
      Safe before 3 4 (before.getNextAudioBlock (fun _ => 0) frameByFrame 3 4).2 := by
  have moderate : ∀ event ∈ shortLoop, event.Moderate := by
    intro event member
    simp only [shortLoop, List.mem_cons, List.not_mem_nil, or_false] at member
    rcases member with rfl | rfl | rfl | rfl | rfl | rfl
    · exact ⟨by decide, by decide +kernel, fun _ => by decide +kernel⟩
    · exact ⟨by decide, by decide, by decide +kernel⟩
    · exact ⟨by decide +kernel, by decide +kernel⟩
    · exact (by decide +kernel : |(1 : ℚ)| ≤ 2 ^ 400)
    · trivial
    · trivial
  have last : Machine.entry (RawSource.step fun _ => 0)
      (Machine.run (RawSource.step fun _ => 0) {} (shortLoop.take 5)) (.block frameByFrame 3 4) ∈
        Machine.trace (RawSource.step fun _ => 0) {} shortLoop := by
    rw [show shortLoop = shortLoop.take 5 ++ [.block frameByFrame 3 4] from rfl,
      Machine.trace_concat]
    exact List.mem_append_right _ (List.mem_singleton_self _)
  constructor
  · decide +kernel
  · exact render_safe moderate _ last frameByFrame 3 4 rfl

/-- Numbers that are finite doubles, of any size. -/
def Event.Finite : Event → Prop
  | .call (.load (some audio)) => audio.channels ≠ [] ∧ |audio.sampleRate| < 2 ^ 1024
  | .call (.seek seconds) => |seconds| < 2 ^ 1024
  | .call (.setLoop (some points)) => |points.inSeconds| < 2 ^ 1024 ∧ |points.outSeconds| < 2 ^ 1024
  | .call (.setPlaybackRate rate) => 1 / 2 ≤ rate.value ∧ rate.value ≤ 2
  | .prepareToPlay _ sampleRate => |sampleRate| < 2 ^ 1024
  | _ => True

def farSeek : List Event :=
  [.prepareToPlay 512 44100, .call (.load (some (.silence 100 44100))), .call (.seek (2 ^ 1020)),
    .call .play]

/-- A seek so far that its samples overflow wraps to a head that is not a number, and no index
can be made of it. -/
theorem farSeek_unsafe :
    let before := Machine.run (RawSource.step fun _ => 0) {} farSeek
    (∀ event ∈ farSeek, event.Finite) ∧
      ¬ Safe before 1 2 (before.getNextAudioBlock (fun _ => 0) frameByFrame 1 2).2 := by
  refine ⟨?_, fun safe => ?_⟩
  · intro event member
    simp only [farSeek, List.mem_cons, List.not_mem_nil, or_false] at member
    rcases member with rfl | rfl | rfl | rfl
    · exact (by decide +kernel : |(44100 : ℚ)| < 2 ^ 1024)
    · exact ⟨by decide, (by decide +kernel : |(44100 : ℚ)| < 2 ^ 1024)⟩
    · exact (by decide +kernel : |(2 ^ 1020 : ℚ)| < 2 ^ 1024)
    · trivial
  · obtain ⟨_, _, _, frame, none, _⟩ := safe.inBounds (.readSource 0 none) (by decide +kernel)
    cases none

end RawSource

end DjApp.Engine
