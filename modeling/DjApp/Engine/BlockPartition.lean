import DjApp.Engine.IdentityTimeStretcher

/-! The pull head does not depend on how a run is divided into blocks, and at rate 1 neither
do the samples, for blocks that the scratch buffers hold. -/

set_option autoImplicit false

namespace DjApp.Engine

open Client (Single)
open Library

section Portions

variable (course : Course) (value : ℚ → Single)

/-- The samples of the next frames, with silence once they run dry. -/
def portion (start : ℚ) (count : ℕ) : List Single :=
  (course.read count start).frames.map value ++
    List.replicate (count - (course.read count start).frames.length) .zero

theorem portion_succ {start : ℚ} {count : ℕ} (free : ¬ course.Stuck (course.settle start)) :
    portion course value start (count + 1) =
      value (course.settle start) ::
        portion course value (course.advance (course.settle start)) count := by
  have long : course.read (count + 1) start =
      { course.read count (course.advance (course.settle start)) with
        frames := course.settle start ::
          (course.read count (course.advance (course.settle start))).frames } :=
    ReadHead.read_of_free _ _ _ free
  simp only [portion, long, List.map_cons, List.length_cons, Nat.add_sub_add_right, List.cons_append]

theorem portion_add_of_flowing {start : ℚ} {first second : ℕ}
    (flowing : (course.read first start).ranDry = false) :
    portion course value start (first + second) =
      portion course value start first ++
        portion course value (course.headAt start first) second := by
  obtain ⟨frames, _⟩ := ReadHead.read_of_not_dry _ _ _ flowing
  have long : course.read (first + second) start =
      { course.read second (course.headAt start first) with
        frames := course.frames start first ++
          (course.read second (course.headAt start first)).frames } :=
    ReadHead.read_add _ _ _ flowing
  have whole : (course.read first start).frames = course.frames start first := frames
  simp only [portion, long, whole, List.map_append, List.length_append, Course.length_frames,
    Nat.sub_self, List.replicate_zero, List.append_nil, Nat.add_sub_add_left, List.append_assoc]

theorem portion_add_of_dry {start : ℚ} {first second : ℕ}
    (dry : (course.read first start).ranDry = true) :
    portion course value start (first + second) =
      portion course value start first ++ List.replicate second .zero := by
  obtain ⟨shorter, _⟩ := ReadHead.read_of_dry _ _ _ dry
  have long : course.read (first + second) start = course.read first start :=
    ReadHead.read_add_of_dry _ _ _ dry
  have split : first + second - (course.read first start).frames.length =
      first - (course.read first start).frames.length + second := by
    have below : (course.read first start).frames.length < first := shorter
    omega
  simp only [portion, long, split, List.replicate_add, List.append_assoc]

end Portions

namespace IdentityDeck

/-- Rate 1 since the last reset: nothing is carried over, and no latency is made up for. -/
structure Unity (deck : IdentityDeck) : Prop where
  rate : deck.playback.source.rate.value = 1
  carry : deck.playback.renderer.pullAccumulator = 0
  latency : deck.playback.renderer.outputLatencyFrames = 0
  lagged : deck.playback.renderer.lastLaggedSourceFrames = 0
  drain : deck.playback.renderer.drainFramesRemaining = 0
  readPos : deck.readPos = 0

theorem unity_initial : Unity {} where
  rate := Single.representable_value ⟨1, 0, by decide, by decide, by norm_num⟩
  carry := rfl
  latency := rfl
  lagged := rfl
  drain := rfl
  readPos := rfl

variable {deck : IdentityDeck}

theorem Unity.afterRequests (unity : Unity deck) :
    Unity ⟨deck.playback.afterRequests 0,
      if deck.playback.source.forceStretcherReset then 0 else deck.readPos⟩ := by
  obtain ⟨rate, carry, latency, lagged, drain, readPos⟩ := unity
  unfold Playback.afterRequests takeRequests
  cases deck.playback.source.forceStretcherReset with
  | false => exact ⟨rate, carry, latency, lagged, drain, readPos⟩
  | true => exact ⟨rate, rfl, rfl, rfl, rfl, rfl⟩

theorem capacityFrames_afterRequests (playback : Playback) (outputLatencyFrames : ℚ → ℕ) :
    (playback.afterRequests outputLatencyFrames).renderer.capacityFrames =
      playback.renderer.capacityFrames := by
  unfold Playback.afterRequests takeRequests
  cases playback.source.forceStretcherReset <;> rfl

/-- At rate 1 a block pulls a frame for each one it writes. -/
theorem Unity.pullCount_eq (unity : Unity deck) {numOutput : ℕ} (some : numOutput ≠ 0)
    (fits : numOutput ≤ deck.playback.renderer.capacityFrames) :
    pullCount id deck.playback.source deck.playback.renderer numOutput = (numOutput, 0) := by
  have whole : ⌊(numOutput : ℚ)⌋ = (numOutput : ℤ) := Int.floor_natCast numOutput
  have positive : max 1 (numOutput : ℤ) = numOutput := by omega
  simp only [pullCount, id_eq, unity.carry, unity.rate, zero_add, mul_one, whole, positive,
    Int.toNat_natCast, Int.cast_natCast, sub_self, Nat.min_eq_left fits]

theorem Unity.drainAfter_eq (unity : Unity deck) {numOutput : ℕ} (some : numOutput ≠ 0)
    (ranDry : Bool) :
    drainAfter deck.playback.renderer ranDry numOutput = (0, ranDry) := by
  cases ranDry with
  | false => rfl
  | true =>
      have spent : 1 - numOutput = 0 := by omega
      simp [drainAfter, unity.drain, unity.latency, spent]

theorem Unity.laggedFrames_eq (unity : Unity deck) (audio : LoadedAudio) (numOutput : ℕ) :
    laggedFrames id deck.playback.source deck.playback.renderer audio numOutput = 0 := by
  simp [laggedFrames, unity.latency]

/-- A source after it has read so many frames at rate 1. -/
def afterReading (playback : Playback) (audio : LoadedAudio) (numOutput : ℕ) : Playback :=
  let reading := (playback.course audio).read numOutput playback.pullHead
  ⟨{ playback.source with
      playing := playback.source.playing && !reading.ranDry
      positionSamples := reading.head },
    { playback.renderer with
      pullAccumulator := 0
      producedOutputFrames := playback.renderer.producedOutputFrames + numOutput
      lastLaggedSourceFrames := 0
      drainFramesRemaining := 0 }⟩

/-- A rendered block at rate 1 is a reading of its own length. -/
theorem Unity.render (unity : Unity deck) {audio : LoadedAudio} {numOutput : ℕ}
    (heard : audible deck.playback.source deck.playback.renderer numOutput = some audio) :
    let block := renderBlock id deck.playback.source deck.playback.renderer audio numOutput
    let reported := report id deck.playback.source deck.playback.renderer audio numOutput
    (⟨block.1, block.2⟩ : Playback) = afterReading deck.playback audio numOutput ∧
      reported.pullFrames = numOutput ∧
      reported.pulled.frames =
        ((deck.playback.course audio).read numOutput deck.playback.pullHead).frames := by
  obtain ⟨_, _, _, some, _, fits⟩ := audible_some heard
  have count := unity.pullCount_eq some fits
  have pull := pullBlock_eq deck.playback audio numOutput
  rw [count] at pull
  dsimp only at pull ⊢
  refine ⟨?_, congrArg Prod.fst count, congrArg Pull.frames pull⟩
  simp only [renderBlock_eq, report, pull, count, unity.drainAfter_eq some,
    unity.laggedFrames_eq, sub_zero, id_eq, afterReading]

def sample (audio : LoadedAudio) (gain : Single) (ch : ℕ) (position : ℚ) : Single :=
  (interpolate (sourceChannel audio ch) position).mul gain

/-- What a source writes to a channel in its next frames. -/
def upcoming (playback : Playback) (ch count : ℕ) : List Single :=
  match playback.source.activeBuffer with
  | none => List.replicate count .zero
  | some audio =>
      if audio.numSamples ≠ 0 ∧ playback.source.playing = true ∧ ch < 2 then
        portion (playback.course audio) (sample audio playback.source.gain ch) playback.pullHead count
      else List.replicate count .zero

/-- What is left of a deck's channel, once the requests are taken. -/
def future (deck : IdentityDeck) (ch count : ℕ) : List Single :=
  upcoming (deck.playback.afterRequests 0) ch count

theorem upcoming_add {playback : Playback} {audio : LoadedAudio}
    (buffer : playback.source.activeBuffer = some audio) (sampled : audio.numSamples ≠ 0)
    (playing : playback.source.playing = true) (ch numOutput more : ℕ) :
    upcoming playback ch (numOutput + more) =
      upcoming playback ch numOutput ++ upcoming (afterReading playback audio numOutput) ch more := by
  have later : (afterReading playback audio numOutput).source.activeBuffer = some audio := buffer
  simp only [upcoming, buffer, later]
  by_cases wired : ch < 2
  · rw [if_pos ⟨sampled, playing, wired⟩, if_pos ⟨sampled, playing, wired⟩]
    cases flow : ((playback.course audio).read numOutput playback.pullHead).ranDry with
    | false =>
        have plays : (afterReading playback audio numOutput).source.playing = true := by
          simp [afterReading, playing, flow]
        have head : (afterReading playback audio numOutput).pullHead =
            (playback.course audio).headAt playback.pullHead numOutput := by
          rw [Playback.pullHead]
          simp only [afterReading, add_zero]
          exact (ReadHead.read_of_not_dry _ _ _ flow).2
        rw [if_pos ⟨sampled, plays, wired⟩, portion_add_of_flowing _ _ flow, head]
        rfl
    | true =>
        have stops : (afterReading playback audio numOutput).source.playing = false := by
          simp [afterReading, flow]
        rw [if_neg (by simp [stops]), portion_add_of_dry _ _ flow]
  · rw [if_neg (by simp [wired]), if_neg (by simp [wired]), if_neg (by simp [wired]),
      List.replicate_add]

/-- What a rendered block writes to a channel. -/
theorem stretched_eq_upcoming {playback : Playback} {audio : LoadedAudio}
    (buffer : playback.source.activeBuffer = some audio) (sampled : audio.numSamples ≠ 0)
    (playing : playback.source.playing = true) (ch numOutput : ℕ) :
    (if ch < 2 then
        (resample id 0 (pullScratch audio ch
          ((playback.course audio).read numOutput playback.pullHead).frames numOutput)
            numOutput).map (·.mul playback.source.gain)
      else List.replicate numOutput .zero) = upcoming playback ch numOutput := by
  simp only [upcoming, buffer]
  by_cases wired : ch < 2
  · have short : ((playback.course audio).read numOutput playback.pullHead).frames.length ≤
        numOutput := by
      cases flow : ((playback.course audio).read numOutput playback.pullHead).ranDry with
      | false =>
          have whole : ((playback.course audio).read numOutput playback.pullHead).frames =
              (playback.course audio).frames playback.pullHead numOutput :=
            (ReadHead.read_of_not_dry _ _ _ flow).1
          rw [whole, Course.length_frames]
      | true => exact (ReadHead.read_of_dry _ _ _ flow).1.le
    have length : (pullScratch audio ch
        ((playback.course audio).read numOutput playback.pullHead).frames numOutput).length =
          numOutput := by
      rw [pullScratch, List.length_append, List.length_map, List.length_replicate]
      omega
    have same := resample_same (pullScratch audio ch
      ((playback.course audio).read numOutput playback.pullHead).frames numOutput)
    rw [length] at same
    rw [if_pos wired, if_pos ⟨sampled, playing, wired⟩, same, pullScratch, portion,
      List.map_append, List.map_map, List.map_replicate, Single.zero_mul]
    rfl
  · rw [if_neg wired, if_neg (by simp [wired])]

theorem upcoming_add_of_silent {playback : Playback} {ch : ℕ} {after : Playback}
    (before : ∀ count, upcoming playback ch count = List.replicate count .zero)
    (later : ∀ count, upcoming after ch count = List.replicate count .zero) (first second : ℕ) :
    upcoming playback ch (first + second) = upcoming playback ch first ++ upcoming after ch second := by
  rw [before, before, later, List.replicate_add]

/-- The bump of the generation that taking nothing makes does not show. -/
theorem upcoming_afterRequests {playback : Playback} (asked : playback.NothingAsked) (ch count : ℕ) :
    upcoming (playback.afterRequests 0) ch count = upcoming playback ch count := by
  obtain ⟨renderer, source⟩ := @afterRequests_of_nothingAsked 0 _ asked
  simp only [upcoming, Playback.course, Playback.pullHead, renderer, source]
  rfl

theorem upcoming_zero (playback : Playback) (ch : ℕ) : upcoming playback ch 0 = [] := by
  unfold upcoming
  split
  · rfl
  · split <;> rfl

/-- Halting a source without samples does not show either. -/
theorem upcoming_haltIfSilent (playback : Playback) (ch count : ℕ) :
    upcoming ⟨haltIfSilent playback.source, playback.renderer⟩ ch count =
      upcoming playback ch count := by
  cases buffer : playback.source.activeBuffer with
  | none =>
      have same : (haltIfSilent playback.source).activeBuffer = none := buffer
      simp only [upcoming, buffer, same]
  | some audio =>
      by_cases sampled : audio.numSamples = 0
      · have same : (haltIfSilent playback.source).activeBuffer = some audio := buffer
        simp only [upcoming, buffer, same, sampled, ne_eq, not_true_eq_false, false_and, if_false]
      · rw [haltIfSilent_of_samples buffer sampled]

/-- A source that renders no block, however short, writes silence. -/
theorem upcoming_of_inaudible {playback : Playback} {numOutput : ℕ} (some : numOutput ≠ 0)
    (fits : numOutput ≤ playback.renderer.capacityFrames)
    (inaudible : audible playback.source playback.renderer numOutput = none) (ch count : ℕ) :
    upcoming playback ch count = List.replicate count .zero := by
  unfold upcoming
  cases buffer : playback.source.activeBuffer with
  | none => rfl
  | some audio =>
      apply if_neg
      rintro ⟨sampled, playing, _⟩
      have capacity : playback.renderer.capacityFrames ≠ 0 := by omega
      simp [audible, buffer, sampled, playing, some, capacity, not_lt.mpr fits] at inaudible

section Blocks

variable (unity : Unity deck) {numOutput : ℕ}
  (fits : numOutput ≤ deck.playback.renderer.capacityFrames)

include unity fits

theorem Unity.silent (ch : ℕ)
    (inaudible : audible (deck.playback.afterRequests 0).source
      (deck.playback.afterRequests 0).renderer numOutput = none)
    (silent : deck.playback.step id 0 (.block numOutput) =
      (⟨haltIfSilent (deck.playback.afterRequests 0).source,
        (deck.playback.afterRequests 0).renderer⟩, none)) :
    let stepped := deck.step id (.block numOutput)
    Unity stepped.1 ∧ stepped.2 ch = deck.future ch numOutput ∧
      ∀ more, deck.future ch (numOutput + more) =
        deck.future ch numOutput ++ stepped.1.future ch more := by
  have settled := unity.afterRequests
  have same (count : ℕ) : IdentityDeck.future ⟨⟨haltIfSilent (deck.playback.afterRequests 0).source,
      (deck.playback.afterRequests 0).renderer⟩,
        if deck.playback.source.forceStretcherReset then 0 else deck.readPos⟩ ch count =
      deck.future ch count := by
    rw [future, upcoming_afterRequests ⟨rfl, rfl⟩]
    exact upcoming_haltIfSilent _ ch count
  simp only [IdentityDeck.step, silent, Option.elim_none, written, same]
  refine ⟨⟨settled.rate, settled.carry, settled.latency, settled.lagged, settled.drain,
    settled.readPos⟩, ?_⟩
  by_cases empty : numOutput = 0
  · subst empty
    simp only [future, upcoming_zero, List.replicate_zero, Nat.zero_add, List.nil_append,
      true_and, implies_true]
  · have quiet := @upcoming_of_inaudible (deck.playback.afterRequests 0) _ empty
      (fits.trans_eq (capacityFrames_afterRequests _ 0).symm) inaudible ch
    refine ⟨(quiet numOutput).symm, fun more => ?_⟩
    exact upcoming_add_of_silent quiet quiet _ _

omit fits in
theorem Unity.rendered (ch : ℕ) {audio : LoadedAudio}
    (heard : audible (deck.playback.afterRequests 0).source
      (deck.playback.afterRequests 0).renderer numOutput = some audio)
    (rendered : deck.playback.step id 0 (.block numOutput) =
      (⟨(renderBlock id (deck.playback.afterRequests 0).source
          (deck.playback.afterRequests 0).renderer audio numOutput).1,
        (renderBlock id (deck.playback.afterRequests 0).source
          (deck.playback.afterRequests 0).renderer audio numOutput).2⟩,
        some (report id (deck.playback.afterRequests 0).source
          (deck.playback.afterRequests 0).renderer audio numOutput))) :
    let stepped := deck.step id (.block numOutput)
    Unity stepped.1 ∧ stepped.2 ch = deck.future ch numOutput ∧
      ∀ more, deck.future ch (numOutput + more) =
        deck.future ch numOutput ++ stepped.1.future ch more := by
  have settled := unity.afterRequests
  obtain ⟨block, frames, pulled⟩ := settled.render heard
  obtain ⟨buffer, sampled, playing, some, _⟩ := audible_some heard
  have pointer : (if deck.playback.source.forceStretcherReset then 0 else deck.readPos) = 0 :=
    settled.readPos
  dsimp only at block frames pulled
  simp only [IdentityDeck.step, rendered, block, Option.elim_some, frames, pulled, pointer,
    rebase_same some, written, buffer]
  refine ⟨⟨settled.rate, rfl, settled.latency, rfl, rfl, rfl⟩,
    stretched_eq_upcoming buffer sampled playing ch numOutput, fun more => ?_⟩
  have next := @upcoming_afterRequests (afterReading (deck.playback.afterRequests 0) audio numOutput)
    ⟨rfl, rfl⟩ ch more
  rw [future, future, future, next]
  exact upcoming_add buffer sampled playing ch numOutput more

end Blocks

theorem capacityFrames_block (deck : IdentityDeck) (numOutput : ℕ) :
    (deck.step id (.block numOutput)).1.playback.renderer.capacityFrames =
      deck.playback.renderer.capacityFrames := by
  rw [← capacityFrames_afterRequests deck.playback 0]
  rcases deck.playback.step_block id 0 numOutput with ⟨audio, _, rendered⟩ | ⟨_, silent⟩
  · simp only [IdentityDeck.step, rendered]
    rfl
  · simp only [IdentityDeck.step, silent]

/-- A block at rate 1 that the scratch buffers hold writes the next frames, and leaves those
after them for the next block. -/
theorem Unity.block (unity : Unity deck) {numOutput : ℕ}
    (fits : numOutput ≤ deck.playback.renderer.capacityFrames) (ch : ℕ) :
    let stepped := deck.step id (.block numOutput)
    Unity stepped.1 ∧ stepped.2 ch = deck.future ch numOutput ∧
      ∀ more, deck.future ch (numOutput + more) =
        deck.future ch numOutput ++ stepped.1.future ch more := by
  rcases deck.playback.step_block id 0 numOutput with
    ⟨audio, heard, rendered⟩ | ⟨inaudible, silent⟩
  · exact unity.rendered ch heard rendered
  · exact unity.silent fits ch inaudible silent

/-- However a run is divided, it writes the same frames. -/
theorem Unity.output_eq (unity : Unity deck) {blocks : List ℕ}
    (fit : ∀ numOutput ∈ blocks, numOutput ≤ deck.playback.renderer.capacityFrames) (ch : ℕ) :
    deck.output id (blocks.map .block) ch = deck.future ch blocks.sum := by
  induction blocks generalizing deck with
  | nil => exact (upcoming_zero _ ch).symm
  | cons numOutput rest ih =>
      obtain ⟨fits, others⟩ := List.forall_mem_cons.mp fit
      obtain ⟨next, written, later⟩ := unity.block fits ch
      rw [← capacityFrames_block deck numOutput] at others
      have tail := ih next others
      rw [List.sum_cons, later, ← written, ← tail]
      rfl

/-- Rate 1 is kept by every event that does not set another rate. -/
def AtRateOne : PlaybackEvent → Prop
  | .call (.setPlaybackRate rate) => rate.value = 1
  | _ => True

theorem Unity.step (unity : Unity deck) {event : PlaybackEvent} (steady : AtRateOne event) :
    Unity (deck.step id event).1 := by
  obtain ⟨rate, carry, latency, lagged, drain, readPos⟩ := unity
  cases event with
  | call call =>
      cases call with
      | setPlaybackRate rate => exact ⟨steady, carry, latency, lagged, drain, readPos⟩
      | _ => exact ⟨rate, carry, latency, lagged, drain, readPos⟩
  | prepareToPlay => exact ⟨rate, carry, latency, lagged, drain, readPos⟩
  | block numOutput =>
      have unity : Unity deck := ⟨rate, carry, latency, lagged, drain, readPos⟩
      rcases deck.playback.step_block id 0 numOutput with
        ⟨audio, heard, rendered⟩ | ⟨inaudible, silent⟩
      · exact (unity.rendered 0 heard rendered).1
      · have settled := unity.afterRequests
        simp only [IdentityDeck.step, silent]
        exact ⟨settled.rate, settled.carry, settled.latency, settled.lagged, settled.drain,
          settled.readPos⟩

theorem unity_run {events : List PlaybackEvent} (steady : ∀ event ∈ events, AtRateOne event) :
    Unity (Machine.run (step id) {} events) := by
  have kept {deck : IdentityDeck} (unity : Unity deck) :
      Unity (Machine.run (step id) deck events) := by
    induction events generalizing deck with
    | nil => exact unity
    | cons event rest ih =>
        obtain ⟨first, others⟩ := List.forall_mem_cons.mp steady
        exact ih others (unity.step first)
  exact kept unity_initial

end IdentityDeck

/-- The pull head of a run that does not run dry is that of one long reading, whatever the
blocks, the rates and the latency; and at rate 1 without latency every division of a run into
blocks that the scratch buffers hold writes the same samples. -/
theorem pull_head_continuous :
    (∀ (outputLatencyFrames : ℚ → ℕ) (playback : Playback) (audio : LoadedAudio)
        (events : List PlaybackEvent),
      playback.source.activeBuffer = some audio → playback.NothingAsked →
      (∀ event ∈ events, event.keepsCourse = true) →
      (∀ row ∈ Machine.trace (Playback.step id outputLatencyFrames) playback events,
        ∀ rendered, row.output = some rendered → rendered.pulled.ranDry = false) →
      let frames := pulledFrames
        (Machine.trace (Playback.step id outputLatencyFrames) playback events)
      frames = (playback.course audio).frames playback.pullHead frames.length ∧
        (Machine.run (Playback.step id outputLatencyFrames) playback events).pullHead =
          (playback.course audio).headAt playback.pullHead frames.length) ∧
    ∀ (earlier : List PlaybackEvent) (blocks others : List ℕ) (ch : ℕ),
      (∀ event ∈ earlier, IdentityDeck.AtRateOne event) →
      let deck := Machine.run (IdentityDeck.step id) {} earlier
      (∀ numOutput ∈ blocks ++ others, numOutput ≤ deck.playback.renderer.capacityFrames) →
      blocks.sum = others.sum →
      deck.output id (blocks.map .block) ch = deck.output id (others.map .block) ch := by
  constructor
  · intro outputLatencyFrames playback audio events buffer asked keeps flowing
    exact OnCourse.run ⟨buffer, asked, rfl⟩ keeps flowing
  · intro earlier blocks others ch steady deck fit same
    have unity := IdentityDeck.unity_run steady
    obtain ⟨first, second⟩ := List.forall_mem_append.mp fit
    rw [unity.output_eq first, unity.output_eq second, same]

section Oversize

def fullScale : LoadedAudio := ⟨2, 44100, [[.ofDouble 1, .ofDouble 1]], by decide⟩

def started : List PlaybackEvent :=
  [.prepareToPlay 512 44100, .call (.load (some fullScale)), .call .play]

theorem atRateOne_started : ∀ event ∈ started, IdentityDeck.AtRateOne event := by
  simp [started, IdentityDeck.AtRateOne]

/-- The same source, with a stretcher that has a latency of seven frames. -/
def playingFullScale : Playback :=
  ⟨{ BufferPlaybackSource.initial with activeBuffer := some fullScale, playing := true },
    { deviceSampleRate := 44100, capacityFrames := 6144, outputLatencyFrames := 7 }⟩

def playedRows : List (Machine.Entry Playback PlaybackEvent (Option Rendered)) :=
  Machine.trace (Playback.step id 7) playingFullScale [.block 3, .block 2]

theorem pull_head_continuous_started :
    (pulledFrames playedRows =
          (playingFullScale.course fullScale).frames playingFullScale.pullHead
            (pulledFrames playedRows).length ∧
        (Machine.run (Playback.step id 7) playingFullScale [.block 3, .block 2]).pullHead =
          (playingFullScale.course fullScale).headAt playingFullScale.pullHead
            (pulledFrames playedRows).length) ∧
    (Machine.run (IdentityDeck.step id) {} started).output id ([2, 1].map .block) 0 =
      (Machine.run (IdentityDeck.step id) {} started).output id ([3].map .block) 0 := by
  constructor
  · have flowing : playedRows.all
        (fun row => row.output.all fun rendered => !rendered.pulled.ranDry) = true := by
      decide +kernel
    refine pull_head_continuous.1 7 playingFullScale fullScale [.block 3, .block 2] rfl ⟨rfl, rfl⟩
      (by simp [PlaybackEvent.keepsCourse]) fun row member rendered output => ?_
    have each := List.all_eq_true.mp flowing row member
    rw [output] at each
    simpa using each
  · exact pull_head_continuous.2 started [2, 1] [3] 0 atRateOne_started (by decide) rfl

theorem written_oversize {deck : IdentityDeck} {numOutput : ℕ}
    (large : deck.playback.renderer.capacityFrames < numOutput) (ch : ℕ) :
    (deck.step id (.block numOutput)).2 ch = List.replicate numOutput .zero := by
  rcases deck.playback.step_block id 0 numOutput with ⟨audio, heard, _⟩ | ⟨_, silent⟩
  · have fits := (audible_some heard).2.2.2.2.2
    rw [IdentityDeck.capacityFrames_afterRequests] at fits
    exact absurd large (not_lt.mpr fits)
  · simp only [IdentityDeck.step, silent, IdentityDeck.written]

/-- One block of 6145 frames is silent; the same frames in two blocks are not. -/
theorem output_depends_on_division :
    ¬ ∀ (earlier : List PlaybackEvent) (blocks others : List ℕ) (ch : ℕ),
      (∀ event ∈ earlier, IdentityDeck.AtRateOne event) → blocks.sum = others.sum →
      let deck := Machine.run (IdentityDeck.step id) {} earlier
      deck.output id (blocks.map .block) ch = deck.output id (others.map .block) ch := by
  intro same
  let deck := Machine.run (IdentityDeck.step id) {} started
  have unity : deck.Unity := IdentityDeck.unity_run atRateOne_started
  have equal := same started [6145] [6144, 1] 0 atRateOne_started rfl
  have silent : deck.output id ([6145].map .block) 0 = List.replicate 6145 .zero := by
    have large : deck.playback.renderer.capacityFrames < 6145 := by decide
    exact (List.append_nil _).trans (written_oversize large 0)
  have heard : deck.output id ([6144, 1].map .block) 0 = deck.future 0 6145 :=
    unity.output_eq (by decide) 0
  have first : (deck.future 0 6145).head? = some (.ofDouble 1) := by
    let taken := deck.playback.afterRequests 0
    have buffer : taken.source.activeBuffer = some fullScale := rfl
    have plays : fullScale.numSamples ≠ 0 ∧ taken.source.playing = true ∧ 0 < 2 := by decide
    have free : ¬ (taken.course fullScale).Stuck ((taken.course fullScale).settle taken.pullHead) := by
      decide +kernel
    have loud : IdentityDeck.sample fullScale taken.source.gain 0
        ((taken.course fullScale).settle taken.pullHead) = .ofDouble 1 := by decide +kernel
    change (IdentityDeck.upcoming taken 0 6145).head? = _
    simp only [IdentityDeck.upcoming, buffer]
    rw [if_pos plays, portion_succ _ _ free, List.head?_cons, loud]
  rw [← heard, ← equal, silent] at first
  have zero : Single.zero = .ofDouble 1 := Option.some.inj first
  exact absurd zero (by decide +kernel)

end Oversize

end DjApp.Engine
