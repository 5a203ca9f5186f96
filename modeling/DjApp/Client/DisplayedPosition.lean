import DjApp.Client.DeckComponent
import DjApp.Engine.PlayedPosition
import Mathlib.Algebra.BigOperators.Ring.Finset

/-! The playhead that a deck's controls extrapolate, beside the pull head of the engine that
plays the deck, both in exact arithmetic. -/

set_option autoImplicit false

namespace DjApp.Client

open Library
open Library.FractionalCarry (charged)
open Library.Wrapping (wrap)
open Engine (LoadedAudio Playback PlaybackEvent loopStateIn pulledFrames)

namespace DeckComponent

variable {component : DeckComponent} {audio : LoadedAudio} {playback : Playback}

/-- Where the playhead would be if nothing wrapped it. -/
def travelled (component : DeckComponent) (nowMs : ℚ) : ℚ :=
  component.anchorPositionSeconds +
    (nowMs - component.anchorTimestampMs) / 1000 * component.anchorRate.value

theorem display_eq (playing : component.anchorPlaying = true)
    (known : 0 < component.positionSliderMaximum) (nowMs : ℚ) :
    component.currentDisplayPositionSeconds id nowMs =
      match component.anchorLoop with
      | some loop =>
          wrap (min loop.inSeconds component.positionSliderMaximum)
            (min loop.outSeconds component.positionSliderMaximum) (component.travelled nowMs)
      | none =>
          if component.anchorRepeat then
            wrap 0 component.positionSliderMaximum (component.travelled nowMs)
          else component.travelled nowMs := by
  have clamped (seconds : ℚ) : (if 0 < component.positionSliderMaximum ∧
      component.positionSliderMaximum < seconds then component.positionSliderMaximum
        else seconds) = min seconds component.positionSliderMaximum := by
    by_cases beyond : component.positionSliderMaximum < seconds
    · rw [if_pos ⟨known, beyond⟩, min_eq_right beyond.le]
    · rw [if_neg fun both => beyond both.2, min_eq_left (not_lt.mp beyond)]
  unfold currentDisplayPositionSeconds
  simp only [playing, if_true, clamped, Engine.wrapPositionWithinRange_eq, id_eq]
  rfl

/-- The moment at which the display has travelled so many source frames from its anchor. -/
def momentOf (component : DeckComponent) (audio : LoadedAudio) (frames : ℕ) : ℚ :=
  component.anchorTimestampMs +
    frames / (audio.sampleRate * component.anchorRate.value) * 1000

/-- The display agrees with an engine that has pulled so many frames, up to one source frame:
at a moment within one frame's time of now it shows just the engine's head. -/
structure Agrees (component : DeckComponent) (audio : LoadedAudio) (nowMs : ℚ) (frames : ℕ)
    (headSeconds : ℚ) : Prop where
  near : |(component.momentOf audio frames - nowMs) / 1000 * component.anchorRate.value *
    audio.sampleRate| ≤ 1
  shown : component.currentDisplayPositionSeconds id (component.momentOf audio frames) = headSeconds

/-- The controls of a playing deck and its engine, as the anchor is set: they stand at the same
position, and agree on the track's end, the tempo, the loop and the repeat. -/
structure Anchored (component : DeckComponent) (audio : LoadedAudio) (playback : Playback) :
    Prop where
  playing : component.anchorPlaying = true
  plays : playback.source.playing = true
  buffer : playback.source.activeBuffer = some audio
  asked : playback.NothingAsked
  sampled : 0 < audio.sampleRate
  device : playback.renderer.deviceSampleRate = audio.sampleRate
  known : 0 < component.positionSliderMaximum
  stop : component.positionSliderMaximum * audio.sampleRate = (audio.numSamples : ℚ) - 1
  onTrack : 0 ≤ component.anchorPositionSeconds ∧
    component.anchorPositionSeconds ≤ component.positionSliderMaximum
  head : playback.pullHead = component.anchorPositionSeconds * audio.sampleRate
  tempo : playback.source.rate = component.anchorRate
  tempoRange : 1 / 2 ≤ component.anchorRate.value ∧ component.anchorRate.value ≤ 2
  ordered : ∀ loop, component.anchorLoop = some loop →
    0 ≤ loop.inSeconds ∧ loop.inSeconds < loop.outSeconds
  loop : playback.source.activeLoop = loopStateIn id audio component.anchorLoop
  repeats : playback.source.repeats = component.anchorRepeat
  carry : 0 ≤ playback.renderer.pullAccumulator ∧ playback.renderer.pullAccumulator < 1

/-- The loop begins where the track has ended. -/
def LoopsBeyondTrack (component : DeckComponent) : Prop :=
  ∃ loop, component.anchorLoop = some loop ∧ component.positionSliderMaximum ≤ loop.inSeconds

namespace Anchored

theorem travelled_momentOf (anchored : component.Anchored audio playback) (frames : ℕ) :
    component.travelled (component.momentOf audio frames) =
      component.anchorPositionSeconds + frames / audio.sampleRate := by
  have rate : component.anchorRate.value ≠ 0 := by
    have slowest := anchored.tempoRange.1
    linarith
  have sampled := anchored.sampled.ne'
  unfold travelled momentOf
  field_simp
  ring

theorem near_iff (anchored : component.Anchored audio playback) {nowMs : ℚ} {total frames : ℕ}
    (elapsed : (nowMs - component.anchorTimestampMs) / 1000 * audio.sampleRate = total) :
    |(component.momentOf audio frames - nowMs) / 1000 * component.anchorRate.value *
        audio.sampleRate| ≤ 1 ↔ |(frames : ℚ) - total * component.anchorRate.value| ≤ 1 := by
  have rate : component.anchorRate.value ≠ 0 := by
    have slowest := anchored.tempoRange.1
    linarith
  have sampled := anchored.sampled.ne'
  have same : (component.momentOf audio frames - nowMs) / 1000 * component.anchorRate.value *
      audio.sampleRate = frames - total * component.anchorRate.value := by
    rw [← elapsed, momentOf]
    field_simp
    ring
  rw [same]

theorem atTempo (anchored : component.Anchored audio playback) :
    Playback.AtTempo (playback.course audio) audio component.anchorRate.value playback where
  onCourse := ⟨anchored.buffer, anchored.asked, rfl⟩
  sampled := by
    have long := mul_pos anchored.known anchored.sampled
    rw [anchored.stop] at long
    rintro none
    rw [none, Nat.cast_zero] at long
    linarith
  playing := anchored.plays
  tempo := congrArg Single.value anchored.tempo
  carry := anchored.carry.2

theorem ratio (anchored : component.Anchored audio playback) :
    (playback.course audio).ratio = 1 := by
  have sampled := anchored.sampled
  simp only [Playback.course, Engine.srcToDeviceRatio, anchored.device, if_pos sampled, id_eq]
  exact div_self sampled.ne'

theorem loop_inside (anchored : component.Anchored audio playback) :
    (playback.course audio).loop.active = true →
      (playback.course audio).loop.outSamples ≤ (playback.course audio).lastRenderableFrame := by
  simp only [Playback.course, anchored.loop, loopStateIn]
  cases component.anchorLoop with
  | none => exact fun active => by cases active
  | some loop =>
      simp only [if_pos anchored.sampled]
      exact fun _ => min_le_right ..

theorem not_loops_of_none (anchored : component.Anchored audio playback)
    (none : component.anchorLoop = none) : ¬ (playback.course audio).Loops := by
  rintro ⟨active, _⟩
  simp only [Playback.course, anchored.loop, none, loopStateIn] at active
  cases active

/-- The slot of the engine holds the bounds of the display, and confines the head if the loop
begins on the track. -/
theorem loops_iff (anchored : component.Anchored audio playback) {loop : LoopPoints}
    (some : component.anchorLoop = some loop) :
    ((playback.course audio).loop.inSamples =
          min loop.inSeconds component.positionSliderMaximum * audio.sampleRate ∧
        (playback.course audio).loop.outSamples =
          min loop.outSeconds component.positionSliderMaximum * audio.sampleRate) ∧
      ((playback.course audio).Loops ↔ loop.inSeconds < component.positionSliderMaximum) := by
  have sampled := anchored.sampled
  have slot : (playback.course audio).loop =
      ⟨true, min loop.inSeconds component.positionSliderMaximum * audio.sampleRate,
        min loop.outSeconds component.positionSliderMaximum * audio.sampleRate⟩ := by
    simp only [Playback.course, anchored.loop, some, loopStateIn, if_pos sampled, ← anchored.stop,
      id_eq, min_mul_of_nonneg _ _ sampled.le]
  have ordered := (anchored.ordered loop some).2
  rw [Engine.Course.Loops, slot]
  refine ⟨⟨rfl, rfl⟩, ?_⟩
  simp only [mul_lt_mul_iff_left₀ sampled, true_and]
  constructor
  · intro order
    have below := order.trans_le (min_le_right _ _)
    exact (min_lt_iff.mp below).resolve_right (lt_irrefl _)
  · intro within
    rw [min_eq_left within.le]
    exact lt_min ordered within

/-- The display, at the moment when it has travelled as far as the engine, shows the engine's
head unless the loop begins beyond the track and the repeat has taken the engine round. -/
theorem shown_iff (anchored : component.Anchored audio playback) (frames : ℕ) :
    component.currentDisplayPositionSeconds id (component.momentOf audio frames) =
        (playback.course audio).settle
          ((playback.course audio).headAt playback.pullHead frames) / audio.sampleRate ↔
      ¬ (component.LoopsBeyondTrack ∧ component.anchorRepeat = true ∧
        component.positionSliderMaximum ≤
          component.anchorPositionSeconds + frames / audio.sampleRate) := by
  have sampled := anchored.sampled
  have inside := anchored.loop_inside
  have frame : component.anchorPositionSeconds * audio.sampleRate + frames =
      (component.anchorPositionSeconds + frames / audio.sampleRate) * audio.sampleRate := by
    field_simp
  rw [Engine.Course.settle_headAt inside (by rw [anchored.ratio]; exact zero_le_one),
    anchored.ratio, mul_one, anchored.head, frame, eq_div_iff sampled.ne',
    display_eq anchored.playing anchored.known, anchored.travelled_momentOf]
  have forward : 0 ≤ component.anchorPositionSeconds + frames / audio.sampleRate :=
    add_nonneg anchored.onTrack.1 (div_nonneg (Nat.cast_nonneg _) sampled.le)
  generalize component.anchorPositionSeconds + frames / audio.sampleRate = position at forward ⊢
  have repeats : (playback.course audio).repeats = component.anchorRepeat := anchored.repeats
  have last : (playback.course audio).lastRenderableFrame =
      component.positionSliderMaximum * audio.sampleRate := anchored.stop.symm
  have round : wrap 0 (component.positionSliderMaximum * audio.sampleRate)
      (position * audio.sampleRate) =
        wrap 0 component.positionSliderMaximum position * audio.sampleRate := by
    rw [← Wrapping.wrap_mul sampled, zero_mul]
  have settled := (playback.course audio).settle_eq inside (position * audio.sampleRate)
  rw [repeats, last, round] at settled
  cases looped : component.anchorLoop with
  | none =>
      have still := anchored.not_loops_of_none looped
      have unlooped : ¬ component.LoopsBeyondTrack := by
        rintro ⟨loop, some, _⟩
        cases looped.symm.trans some
      rcases settled with ⟨loops, _⟩ | ⟨_, settled⟩
      · exact absurd loops still
      · refine iff_of_true ?_ fun beyond => unlooped beyond.1
        simp only [settled, ite_mul]
  | some loop =>
      obtain ⟨bounds, loops⟩ := anchored.loops_iff looped
      by_cases within : loop.inSeconds < component.positionSliderMaximum
      · rcases settled with ⟨_, settled⟩ | ⟨unlooped, _⟩
        · refine iff_of_true ?_ ?_
          · rw [settled, bounds.1, bounds.2, Wrapping.wrap_mul sampled]
          · rintro ⟨⟨other, some, beyond⟩, _⟩
            cases looped.symm.trans some
            exact absurd beyond (not_le.mpr within)
        · exact absurd (loops.mpr within) unlooped
      · have beyond := not_lt.mp within
        have later := beyond.trans (anchored.ordered loop looped).2.le
        rcases settled with ⟨looping, _⟩ | ⟨_, settled⟩
        · exact absurd (loops.mp looping) within
        · have straight : wrap component.positionSliderMaximum component.positionSliderMaximum
              position = position := Wrapping.wrap_of_degenerate le_rfl
          rw [settled]
          simp only [min_eq_right beyond, min_eq_right later, straight]
          cases repeating : component.anchorRepeat with
          | false => simp
          | true =>
              rw [if_pos rfl, mul_left_inj' sampled.ne']
              constructor
              · rintro same ⟨_, _, reached⟩
                have before := @Wrapping.wrap_lt ℚ _ _ _ _ _ _ position anchored.known
                rw [← same] at before
                exact absurd reached (not_le.mpr before)
              · intro unreached
                refine (Wrapping.wrap_of_lt (not_le.mp fun reached => unreached ?_)).symm
                exact ⟨⟨loop, looped, beyond⟩, rfl, reached⟩

/-- Blocks that are worth a source frame each are charged for what they are worth. -/
theorem charged_of_whole (anchored : component.Anchored audio playback) {blocks : List ℕ}
    (whole : ∀ numOutput ∈ blocks, 1 ≤ numOutput * component.anchorRate.value) :
    |(charged playback.renderer.pullAccumulator
        (blocks.map fun numOutput : ℕ => numOutput * component.anchorRate.value) : ℚ) -
      blocks.sum * component.anchorRate.value| ≤ 1 := by
  have worth : (blocks.map fun numOutput : ℕ => numOutput * component.anchorRate.value).sum =
      blocks.sum * component.anchorRate.value := by
    rw [List.sum_map_mul_right, Nat.cast_list_sum]
  rw [← worth]
  refine (FractionalCarry.abs_charged_sub_lt anchored.carry.1 anchored.carry.2 ?_).le
  intro amount member
  obtain ⟨numOutput, block, rfl⟩ := List.mem_map.mp member
  exact whole numOutput block

end Anchored

/-- After any blocks in which the engine has not run dry, the display agrees with its head
exactly if the blocks were charged for what they are worth, to one frame, and no loop beyond the
track has kept the display from going round with the repeat. -/
theorem display_agrees_iff (anchored : component.Anchored audio playback)
    (outputLatencyFrames : ℚ → ℕ) {blocks : List ℕ} {nowMs : ℚ}
    (asks : ∀ numOutput ∈ blocks, playback.Asks numOutput)
    (flowing : ∀ row ∈ Machine.trace (Playback.step id outputLatencyFrames) playback
      (blocks.map .block), ∀ rendered, row.output = some rendered →
        rendered.pulled.ranDry = false)
    (elapsed : (nowMs - component.anchorTimestampMs) / 1000 * audio.sampleRate = blocks.sum) :
    let frames := pulledFrames
      (Machine.trace (Playback.step id outputLatencyFrames) playback (blocks.map .block))
    let after := Machine.run (Playback.step id outputLatencyFrames) playback (blocks.map .block)
    let due := charged playback.renderer.pullAccumulator
      (blocks.map fun numOutput : ℕ => numOutput * component.anchorRate.value)
    component.Agrees audio nowMs frames.length (after.nextPullSeconds audio) ↔
      |(due : ℚ) - blocks.sum * component.anchorRate.value| ≤ 1 ∧
        ¬ (component.LoopsBeyondTrack ∧ component.anchorRepeat = true ∧
          component.positionSliderMaximum ≤
            component.anchorPositionSeconds + due / audio.sampleRate) := by
  intro frames after due
  obtain ⟨count, final⟩ := @Playback.AtTempo.run _ _ _ _ outputLatencyFrames anchored.atTempo
    anchored.tempoRange.2 _ asks flowing
  have keeps : ∀ event ∈ blocks.map PlaybackEvent.block, event.keepsCourse = true := by
    intro event member
    obtain ⟨numOutput, _, rfl⟩ := List.mem_map.mp member
    rfl
  obtain ⟨_, head⟩ := anchored.atTempo.onCourse.run keeps flowing
  have charged : (frames.length : ℚ) = due := by exact_mod_cast count
  have next : after.nextPullSeconds audio = (playback.course audio).settle
      ((playback.course audio).headAt playback.pullHead frames.length) / audio.sampleRate := by
    rw [Playback.nextPullSeconds, final.onCourse.same, head]
  have near := @Anchored.near_iff _ _ _ anchored _ _ frames.length elapsed
  have shown := anchored.shown_iff frames.length
  rw [charged] at near shown
  rw [next, ← near, ← shown]
  constructor
  · exact fun agrees => ⟨agrees.near, agrees.shown⟩
  · exact fun both => ⟨both.1, both.2⟩

section BeyondTrack

/-- Eleven samples, and a loop that begins long after them. -/
def shortTrack : LoadedAudio := .silence 11 44100

def lateLoop : Option LoopPoints := some ⟨2, 3⟩

def playingShortTrack : Playback :=
  Machine.run (Playback.step id 0) {}
    [.prepareToPlay 512 44100, .call (.load (some shortTrack)), .call (.setLoop lateLoop),
      .call .play, .block 1]

def showingShortTrack : DeckComponent where
  stateManager := .initial
  deck := .A
  anchorPositionSeconds := 1 / 44100
  anchorPlaying := true
  anchorLoop := lateLoop
  anchorRepeat := true
  positionSliderMaximum := 10 / 44100

theorem anchored_shortTrack : showingShortTrack.Anchored shortTrack playingShortTrack where
  playing := rfl
  plays := by decide +kernel
  buffer := rfl
  asked := ⟨rfl, rfl⟩
  sampled := by decide +kernel
  device := by decide +kernel
  known := by decide +kernel
  stop := by decide +kernel
  onTrack := by decide +kernel
  head := by decide +kernel
  tempo := rfl
  tempoRange := by decide +kernel
  ordered := by
    rintro _ ⟨⟩
    decide +kernel
  loop := by decide +kernel
  repeats := rfl
  carry := by decide +kernel

theorem flowing_of_block {playback : Playback} {numOutput : ℕ}
    (flows : (playback.step id 0 (.block numOutput)).2.all (fun rendered => !rendered.pulled.ranDry) =
      true) :
    ∀ row ∈ Machine.trace (Playback.step id 0) playback ([numOutput].map .block),
      ∀ rendered, row.output = some rendered → rendered.pulled.ranDry = false := by
  intro row member rendered output
  cases List.mem_singleton.mp member
  have same : (playback.step id 0 (.block numOutput)).2 = some rendered := output
  rw [same] at flows
  simpa using flows

/-- While the engine has not reached the end, the late loop does no harm. -/
theorem display_agrees_iff_shortTrack :
    showingShortTrack.Agrees shortTrack (5 / 44100 * 1000)
      (pulledFrames (Machine.trace (Playback.step id 0) playingShortTrack
        ([5].map PlaybackEvent.block))).length
      ((Machine.run (Playback.step id 0) playingShortTrack
        ([5].map PlaybackEvent.block)).nextPullSeconds shortTrack) := by
  refine (display_agrees_iff anchored_shortTrack 0 ?_ (flowing_of_block (by decide +kernel)) ?_).mpr
    ⟨anchored_shortTrack.charged_of_whole ?_, ?_⟩
  · intro numOutput member
    cases List.mem_singleton.mp member
    exact ⟨by decide, by decide +kernel⟩
  · decide +kernel
  · decide +kernel
  · rintro ⟨_, _, reached⟩
    exact absurd reached (by decide +kernel)

/-- The repeat takes the engine round, and the display runs on past the end of the track. -/
theorem display_runs_past_end :
    showingShortTrack.Anchored shortTrack playingShortTrack ∧
      (∀ numOutput ∈ [15], playingShortTrack.Asks numOutput) ∧
      (∀ row ∈ Machine.trace (Playback.step id 0) playingShortTrack ([15].map .block),
        ∀ rendered, row.output = some rendered → rendered.pulled.ranDry = false) ∧
      ((15 / 44100 * 1000 - showingShortTrack.anchorTimestampMs) / 1000 * shortTrack.sampleRate =
        ([15].sum : ℕ)) ∧
      showingShortTrack.currentDisplayPositionSeconds id (15 / 44100 * 1000) = 16 / 44100 ∧
      (Machine.run (Playback.step id 0) playingShortTrack
        ([15].map PlaybackEvent.block)).nextPullSeconds shortTrack = 6 / 44100 := by
  refine ⟨anchored_shortTrack, ?_, flowing_of_block (by decide +kernel), by decide +kernel,
    by decide +kernel, by decide +kernel⟩
  intro numOutput member
  cases List.mem_singleton.mp member
  exact ⟨by decide, by decide +kernel⟩

end BeyondTrack

end DeckComponent

end DjApp.Client
