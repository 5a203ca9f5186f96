import DjApp.Engine.PullHead
import DjApp.Library.FractionalCarry
import DjApp.Library.Wrapping

/-! Where a deck that plays on has its head, in exact arithmetic: the wraps made frame by frame
come to one wrap of the whole distance, and the tempo decides the distance. -/

set_option autoImplicit false

namespace DjApp.Engine

open Library
open Library.BinaryRounding (double)
open Library.FractionalCarry (paid leftOver charged)
open Library.Wrapping (wrap)

theorem fmod_eq_toIcoMod {value modulus : ℚ} (positive : 0 < modulus) :
    fmod value modulus = toIcoMod positive 0 value := by
  rw [toIcoMod_eq_fract_mul, fmod, Int.fract, sub_mul, div_mul_cancel₀ _ positive.ne', mul_comm]

/-- The arithmetic that the engine shares with the display, without rounding. -/
theorem wrapPositionWithinRange_eq (position rangeStart rangeEnd : ℚ) :
    wrapPositionWithinRange id position rangeStart rangeEnd = wrap rangeStart rangeEnd position := by
  unfold wrapPositionWithinRange
  split
  · rename_i inside
    obtain ⟨range, reached⟩ := inside
    rw [Wrapping.wrap_of_reached range (range.le.trans reached), toIcoMod_eq_sub,
      ← fmod_eq_toIcoMod, id_eq, id_eq, id_eq, add_comm]
  · rename_i outside
    rcases lt_or_ge rangeStart rangeEnd with range | degenerate
    · rw [Wrapping.wrap_of_lt (not_le.mp fun reached => outside ⟨range, reached⟩)]
    · rw [Wrapping.wrap_of_degenerate degenerate]

/-- Steps that are each wrapped when they are made. -/
def wrapEachStep (rangeStart rangeEnd position : ℚ) (steps : List ℚ) : ℚ :=
  steps.foldl (fun head step => wrapPositionWithinRange id (head + step) rangeStart rangeEnd)
    position

/-- Going round a range: where a position ends up is the same whether each step is wrapped, as the
engine does it frame by frame, or the whole distance once, as the display does. -/
theorem wrapPositionWithinRange_law {position rangeStart rangeEnd : ℚ}
    (range : rangeStart < rangeEnd) (reached : rangeStart ≤ position) :
    (rangeStart ≤ wrapPositionWithinRange id position rangeStart rangeEnd ∧
        wrapPositionWithinRange id position rangeStart rangeEnd < rangeEnd) ∧
      (∃ rounds : ℤ, position - wrapPositionWithinRange id position rangeStart rangeEnd =
        rounds * (rangeEnd - rangeStart)) ∧
      wrapPositionWithinRange id (wrapPositionWithinRange id position rangeStart rangeEnd)
        rangeStart rangeEnd = wrapPositionWithinRange id position rangeStart rangeEnd ∧
      (∀ steps : List ℚ, (∀ step ∈ steps, 0 ≤ step) →
        wrapEachStep rangeStart rangeEnd
            (wrapPositionWithinRange id position rangeStart rangeEnd) steps =
          wrapPositionWithinRange id (position + steps.sum) rangeStart rangeEnd) ∧
      ∀ (first : ℚ) (others : List ℚ), (∀ step ∈ others, 0 ≤ step) →
        wrapEachStep rangeStart rangeEnd position (first :: others) =
          wrapPositionWithinRange id (position + (first :: others).sum) rangeStart rangeEnd := by
  simp only [wrapEachStep, wrapPositionWithinRange_eq]
  refine ⟨Wrapping.wrap_mem range reached, ?_, Wrapping.wrap_wrap, fun steps forward => ?_,
    fun first others forward => ?_⟩
  · obtain ⟨rounds, split⟩ := Wrapping.exists_eq_wrap_add rangeStart rangeEnd position
    refine ⟨rounds, ?_⟩
    rw [sub_eq_iff_eq_add', ← zsmul_eq_mul]
    exact split
  · exact Wrapping.foldl_wrap forward
  · rw [List.foldl_cons, Wrapping.foldl_wrap forward, List.sum_cons, add_assoc]

/-- From the very end of a range, by a step that is longer than the range and one that is not. -/
theorem wrapPositionWithinRange_law_fromTheEnd :
    wrapEachStep 1 4 4 [7, 1] = wrapPositionWithinRange id (4 + [7, 1].sum) 1 4 :=
  (@wrapPositionWithinRange_law 4 1 4 (by norm_num) (by norm_num)).2.2.2.2 7 [1] (by simp)

section Loop

/-- The slot for a loop of a track, with every product rounded by `fl`. -/
def loopStateIn (fl : ℚ → ℚ) (audio : LoadedAudio) (loop : Option Client.LoopPoints) : LoopState :=
  match loop with
  | none => {}
  | some points =>
      if 0 < audio.sampleRate then
        ⟨true, min (fl (points.inSeconds * audio.sampleRate)) ((audio.numSamples : ℚ) - 1),
          min (fl (points.outSeconds * audio.sampleRate)) ((audio.numSamples : ℚ) - 1)⟩
      else {}

/-- It is what `setLoop` writes once the track is loaded. -/
theorem loopStateFor_eq {source : BufferPlaybackSource} {audio : LoadedAudio}
    (current : source.messageThreadCurrentBuffer = some audio)
    (rate : source.messageThreadSampleRate = audio.sampleRate) (loop : Option Client.LoopPoints) :
    source.loopStateFor loop = loopStateIn double audio loop := by
  cases loop with
  | none => rfl
  | some points => simp only [BufferPlaybackSource.loopStateFor, loopStateIn, current, rate]

end Loop

namespace Course

variable {course : Course}

def Loops (course : Course) : Prop :=
  course.loop.active = true ∧ course.loop.inSamples < course.loop.outSamples

/-- A loop that does not go beyond the track leaves nothing to the repeat, and one that is
degenerate leaves everything. -/
theorem settle_eq (inside : course.loop.active = true →
      course.loop.outSamples ≤ course.lastRenderableFrame) (position : ℚ) :
    (course.Loops ∧ course.settle position =
        wrap course.loop.inSamples course.loop.outSamples position) ∨
      (¬ course.Loops ∧ course.settle position =
        if course.repeats then wrap 0 course.lastRenderableFrame position else position) := by
  by_cases loops : course.Loops
  · obtain ⟨active, ordered⟩ := loops
    refine .inl ⟨⟨active, ordered⟩, ?_⟩
    have before : wrap course.loop.inSamples course.loop.outSamples position <
        course.lastRenderableFrame := (Wrapping.wrap_lt ordered).trans_le (inside active)
    simp only [settle, wrapHead, active, if_true, wrapPositionWithinRange_eq]
    rw [if_neg fun reached => absurd reached.2 (not_le.mpr before)]
  · refine .inr ⟨loops, ?_⟩
    have unlooped : (if course.loop.active then
        wrapPositionWithinRange id position course.loop.inSamples course.loop.outSamples
        else position) = position := by
      split
      · rename_i active
        rw [wrapPositionWithinRange_eq,
          Wrapping.wrap_of_degenerate (not_lt.mp fun ordered => loops ⟨active, ordered⟩)]
      · rfl
    simp only [settle, wrapHead]
    rw [unlooped, wrapPositionWithinRange_eq]
    cases repeats : course.repeats with
    | false => simp
    | true =>
        by_cases reached : course.lastRenderableFrame ≤ position
        · simp [reached]
        · simp [reached, Wrapping.wrap_of_lt (not_le.mp reached)]

/-- Settling before a step forward does not show after it. -/
theorem settle_settle_add (inside : course.loop.active = true →
      course.loop.outSamples ≤ course.lastRenderableFrame) (position : ℚ) {step : ℚ}
    (forward : 0 ≤ step) :
    course.settle (course.settle position + step) = course.settle (position + step) := by
  have settled := course.settle_eq inside
  rcases settled position with ⟨loops, here⟩ | ⟨unlooped, here⟩
  · rcases settled (course.settle position + step) with ⟨_, there⟩ | ⟨not, _⟩
    · rcases settled (position + step) with ⟨_, far⟩ | ⟨not, _⟩
      · rw [there, far, here, Wrapping.wrap_wrap_add forward]
      · exact absurd loops not
    · exact absurd loops not
  · rcases settled (course.settle position + step) with ⟨loops, _⟩ | ⟨_, there⟩
    · exact absurd loops unlooped
    · rcases settled (position + step) with ⟨loops, _⟩ | ⟨_, far⟩
      · exact absurd loops unlooped
      · rw [there, far, here]
        split
        · rw [Wrapping.wrap_wrap_add forward]
        · rfl

/-- The next frame after so many comes from where the whole distance leads. -/
theorem settle_headAt (inside : course.loop.active = true →
      course.loop.outSamples ≤ course.lastRenderableFrame) (forward : 0 ≤ course.ratio)
    (start : ℚ) (count : ℕ) :
    course.settle (course.headAt start count) = course.settle (start + count * course.ratio) := by
  induction count with
  | zero => simp [headAt]
  | succ count ih =>
      have step : course.headAt start (count + 1) =
          course.settle (course.headAt start count) + course.ratio := rfl
      rw [step, ih, settle_settle_add inside _ forward, add_assoc]
      congr 2
      push_cast
      ring

end Course

namespace Playback

/-- A deck in mid-track, at a constant tempo. -/
structure AtTempo (course : Course) (audio : LoadedAudio) (tempo : ℚ) (playback : Playback) :
    Prop where
  onCourse : OnCourse course audio playback
  sampled : audio.numSamples ≠ 0
  playing : playback.source.playing = true
  tempo : playback.source.rate.value = tempo
  carry : playback.renderer.pullAccumulator < 1

/-- The device asks for blocks that are not empty, and that the scratch buffers hold at twice
the tempo. -/
def Asks (playback : Playback) (numOutput : ℕ) : Prop :=
  0 < numOutput ∧ 2 * numOutput ≤ playback.renderer.capacityFrames

variable {course : Course} {audio : LoadedAudio} {tempo : ℚ} {playback : Playback}
  {outputLatencyFrames : ℚ → ℕ}

theorem pullCount_of_asks {source : BufferPlaybackSource} {renderer : Renderer} {numOutput : ℕ}
    (carry : renderer.pullAccumulator < 1) (some : 0 < numOutput)
    (room : 2 * numOutput ≤ renderer.capacityFrames) (fastest : source.rate.value ≤ 2) :
    ((pullCount id source renderer numOutput).1 : ℤ) =
        paid renderer.pullAccumulator (numOutput * source.rate.value) ∧
      (pullCount id source renderer numOutput).2 =
        leftOver renderer.pullAccumulator (numOutput * source.rate.value) := by
  refine ⟨?_, rfl⟩
  have amount : (numOutput : ℚ) * source.rate.value ≤ numOutput * 2 :=
    mul_le_mul_of_nonneg_left fastest (Nat.cast_nonneg _)
  have floor : ⌊renderer.pullAccumulator + numOutput * source.rate.value⌋ < 2 * numOutput + 1 := by
    rw [Int.floor_lt]
    push_cast
    linarith
  have bounds : 1 ≤ paid renderer.pullAccumulator (numOutput * source.rate.value) ∧
      paid renderer.pullAccumulator (numOutput * source.rate.value) ≤
        renderer.capacityFrames := by
    unfold paid
    omega
  have unfolded : (pullCount id source renderer numOutput).1 =
      min (paid renderer.pullAccumulator (numOutput * source.rate.value)).toNat
        renderer.capacityFrames := rfl
  rw [unfolded]
  omega

/-- A block at a constant tempo that does not run dry pulls what the accumulator charges. -/
theorem AtTempo.block (atTempo : AtTempo course audio tempo playback) (fastest : tempo ≤ 2)
    {numOutput : ℕ} (asks : playback.Asks numOutput)
    (flowing : ∀ rendered, (playback.step id outputLatencyFrames (.block numOutput)).2 =
      some rendered → rendered.pulled.ranDry = false) :
    let stepped := playback.step id outputLatencyFrames (.block numOutput)
    ∃ rendered, stepped.2 = some rendered ∧
      (rendered.pulled.frames.length : ℤ) =
        paid playback.renderer.pullAccumulator (numOutput * tempo) ∧
      AtTempo course audio tempo stepped.1 ∧
      stepped.1.renderer.capacityFrames = playback.renderer.capacityFrames ∧
      stepped.1.renderer.pullAccumulator =
        leftOver playback.renderer.pullAccumulator (numOutput * tempo) := by
  obtain ⟨onCourse, sampled, playing, rfl, carry⟩ := atTempo
  obtain ⟨some, room⟩ := asks
  obtain ⟨taken, source⟩ := @afterRequests_of_nothingAsked outputLatencyFrames _ onCourse.asked
  have heard : audible (playback.afterRequests outputLatencyFrames).source
      (playback.afterRequests outputLatencyFrames).renderer numOutput = .some audio := by
    have fits : ¬ playback.renderer.capacityFrames < numOutput := by omega
    have prepared : playback.renderer.capacityFrames ≠ 0 := by omega
    simp [audible, source, taken, onCourse.buffer, sampled, playing, some.ne', fits, prepared]
  obtain ⟨next, moved⟩ :=
    @OnCourse.step outputLatencyFrames _ _ _ onCourse (.block numOutput) rfl
  rcases playback.step_block id outputLatencyFrames numOutput with
    ⟨other, again, stepped⟩ | ⟨silent, _⟩
  · obtain rfl : audio = other := Option.some.inj (heard.symm.trans again)
    have output := congrArg Prod.snd stepped
    have after := congrArg Prod.fst stepped
    have flows := flowing _ output
    obtain ⟨count, carried⟩ := @pullCount_of_asks playback.source playback.renderer numOutput carry
      some room fastest
    have same : pullCount id (playback.afterRequests outputLatencyFrames).source
        (playback.afterRequests outputLatencyFrames).renderer numOutput =
        pullCount id playback.source playback.renderer numOutput := by
      rw [source, taken]
      rfl
    rcases moved with ⟨quiet, _⟩ | ⟨rendered, reported, pulled, dry, _⟩
    · cases quiet.symm.trans output
    · cases reported.symm.trans output
      rw [dry] at flows
      obtain ⟨whole, _⟩ := ReadHead.read_of_not_dry _ _ _ flows
      refine ⟨_, output, ?_, ⟨next, sampled, ?_, ?_, ?_⟩, ?_, ?_⟩
      · rw [pulled]
        change ((ReadHead.read _ _ _ _ _).frames.length : ℤ) = _
        rw [whole, ReadHead.length_items, ← count, ← same]
        rfl
      all_goals rw [after, renderBlock_eq]
      · have runs : (report id (playback.afterRequests outputLatencyFrames).source
            (playback.afterRequests outputLatencyFrames).renderer audio numOutput).stops = false := by
          have wet := flowing _ output
          simp only [report] at wet ⊢
          rw [wet]
          rfl
        have kept : (playback.afterRequests outputLatencyFrames).source.playing = true := by
          rw [source]
          exact playing
        simp only [runs, kept]
        rfl
      · simp only [source]
      · simp only [same, carried]
        exact FractionalCarry.leftOver_lt_one _ _
      · simp only [taken]
      · simp only [same, carried]
  · cases heard.symm.trans silent

theorem AtTempo.run (atTempo : AtTempo course audio tempo playback) (fastest : tempo ≤ 2)
    {blocks : List ℕ} (asks : ∀ numOutput ∈ blocks, playback.Asks numOutput)
    (flowing : ∀ row ∈ Machine.trace (Playback.step id outputLatencyFrames) playback
      (blocks.map .block), ∀ rendered, row.output = some rendered →
        rendered.pulled.ranDry = false) :
    ((pulledFrames (Machine.trace (Playback.step id outputLatencyFrames) playback
        (blocks.map .block))).length : ℤ) =
        charged playback.renderer.pullAccumulator
          (blocks.map fun numOutput : ℕ => numOutput * tempo) ∧
      AtTempo course audio tempo (Machine.run (Playback.step id outputLatencyFrames) playback
        (blocks.map .block)) := by
  induction blocks generalizing playback with
  | nil => exact ⟨rfl, atTempo⟩
  | cons numOutput blocks ih =>
      obtain ⟨own, others⟩ := List.forall_mem_cons.mp asks
      rw [List.map_cons, Machine.trace] at flowing
      obtain ⟨first, later⟩ := List.forall_mem_cons.mp flowing
      obtain ⟨rendered, output, count, next, room, carried⟩ :=
        @AtTempo.block _ _ _ _ outputLatencyFrames atTempo fastest _ own first
      obtain ⟨rest, final⟩ :=
        ih next (fun other member => by rw [Asks, room]; exact others other member) later
      refine ⟨?_, final⟩
      rw [List.map_cons, Machine.trace, pulledFrames_cons, List.length_append]
      simp only [Machine.entry, output, Option.elim_some]
      push_cast
      rw [rest, count, carried]
      rfl

/-- Where the next frame is pulled from, in seconds. -/
def nextPullSeconds (playback : Playback) (audio : LoadedAudio) : ℚ :=
  (playback.course audio).settle playback.pullHead / audio.sampleRate

end Playback

end DjApp.Engine
