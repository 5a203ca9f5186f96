import DjApp.Engine.PullHead
import DjApp.Library.ExactRounding

/-! The end of a track: a block that runs dry starts a drain of the stretcher's latency, and
the block that completes it stops the playback. -/

set_option autoImplicit false

namespace DjApp.Engine

open Library
open Library.BinaryRounding (binary64 double double_nonneg representable_double Representable)

/-!
## Positions ahead of a wrap
-/

section Wraps

variable {loop : LoopState} {repeats : Bool} {numSamples : ℕ} {position : ℚ}

theorem fmod_nonneg {value modulus : ℚ} (nonneg : 0 ≤ value) (length : 0 ≤ modulus) :
    0 ≤ fmod value modulus := by
  rcases eq_or_lt_of_le length with rfl | positive
  · simpa [fmod] using nonneg
  · have floor := (le_div_iff₀ positive).mp (Int.floor_le (value / modulus))
    rw [fmod]
    linarith

theorem fmod_lt {value modulus : ℚ} (positive : 0 < modulus) : fmod value modulus < modulus := by
  have floor := (div_lt_iff₀ positive).mp (Int.lt_floor_add_one (value / modulus))
  rw [fmod]
  linarith

/-- A head that the pull stage may meet. -/
structure Ahead (position : ℚ) : Prop where
  nonneg : 0 ≤ position
  representable : Representable binary64 position

theorem ahead_double {value : ℚ} (nonneg : 0 ≤ value) : Ahead (double value) :=
  ⟨double_nonneg nonneg, representable_double value⟩

theorem Ahead.wrap {rangeStart rangeEnd : ℚ} (ahead : Ahead position) (after : 0 ≤ rangeStart) :
    Ahead (wrapPositionWithinRange double position rangeStart rangeEnd) := by
  unfold wrapPositionWithinRange
  split
  · rename_i inside
    refine ahead_double (add_nonneg after (fmod_nonneg ?_ ?_))
    · exact double_nonneg (by linarith [inside.1, inside.2])
    · exact double_nonneg (by linarith [inside.1])
  · exact ahead

/-- The last renderable frame of a track that has a sample. -/
def lastFrame (numSamples : ℕ) : ℚ := (numSamples : ℚ) - 1

theorem lastFrame_succ (numSamples : ℕ) : lastFrame (numSamples + 1) = numSamples := by
  simp [lastFrame]

theorem representable_lastFrame (some : numSamples ≠ 0) (short : numSamples < 2 ^ 52) :
    Representable binary64 (lastFrame numSamples) := by
  obtain ⟨count, rfl⟩ := Nat.exists_eq_succ_of_ne_zero some
  rw [lastFrame_succ]
  apply BinaryRounding.representable_natCast (by decide)
  have wide : (2 : ℕ) ^ binary64.precision = 2 ^ 53 := rfl
  omega

/-- The repeat of a whole track always wraps to before its last frame. -/
theorem wrap_repeat_lt (ahead : Ahead position) (several : 2 ≤ numSamples)
    (short : numSamples < 2 ^ 52) (reached : lastFrame numSamples ≤ position) :
    wrapPositionWithinRange double position 0 (lastFrame numSamples) < lastFrame numSamples := by
  have positive : 0 < lastFrame numSamples := by
    have count : (2 : ℚ) ≤ numSamples := by exact_mod_cast several
    rw [lastFrame]
    linarith
  have last := representable_lastFrame (by omega) short
  have remainder := ahead.representable.fmod last ahead.nonneg positive
  rw [wrapPositionWithinRange, if_pos ⟨positive, reached⟩, sub_zero, sub_zero, zero_add,
    ahead.representable.double_eq, last.double_eq, fmod, remainder.double_eq]
  exact fmod_lt positive

end Wraps

/-!
## The courses of a block
-/

namespace Playback

variable (fl : ℚ → ℚ) (playback : Playback) (audio : LoadedAudio) (numOutput : ℕ)

def courseIn : Course :=
  { playback.course audio with ratio := srcToDeviceRatio fl playback.renderer audio }

def start : ℚ := fl (playback.source.positionSamples + playback.renderer.lastLaggedSourceFrames)

def pullFrames : ℕ := (pullCount fl playback.source playback.renderer numOutput).1

theorem pullBlock_eq_readIn :
    pullBlock fl playback.source playback.renderer audio numOutput =
      ⟨((playback.courseIn fl audio).readIn fl (playback.pullFrames fl numOutput)
          (playback.start fl)).frames,
        ((playback.courseIn fl audio).readIn fl (playback.pullFrames fl numOutput)
          (playback.start fl)).head,
        ((playback.courseIn fl audio).readIn fl (playback.pullFrames fl numOutput)
          (playback.start fl)).ranDry⟩ :=
  (playback.courseIn fl audio).pullFrom_eq_readIn fl _ _

def looped (position : ℚ) : ℚ :=
  if playback.source.activeLoop.active then
    wrapPositionWithinRange fl position playback.source.activeLoop.inSamples
      playback.source.activeLoop.outSamples
  else position

theorem settleIn_eq (position : ℚ) :
    (playback.courseIn fl audio).settleIn fl position =
      if playback.source.repeats = true ∧
          lastFrame audio.numSamples ≤ playback.looped fl position then
        wrapPositionWithinRange fl (playback.looped fl position) 0 (lastFrame audio.numSamples)
      else playback.looped fl position := rfl

/-- The region loop is on, and its bounds are in order. -/
def Looping : Prop :=
  playback.source.activeLoop.active = true ∧
    playback.source.activeLoop.inSamples < playback.source.activeLoop.outSamples

/-- Nothing wraps the head. -/
def Plain : Prop := playback.source.repeats = false ∧ ¬ playback.Looping

/-- The loop or the repeat should keep the head on the track. -/
def Endless : Prop :=
  playback.source.repeats = true ∧ 2 ≤ audio.numSamples ∨ playback.Looping

/-- The wrap of the loop puts a head of the block on the last renderable frame or past it. -/
def Overshoots : Prop :=
  ∃ index < playback.pullFrames fl numOutput,
    let head := ReadHead.headAt ((playback.courseIn fl audio).settleIn fl)
      ((playback.courseIn fl audio).advanceIn fl) (playback.start fl) index
    playback.source.activeLoop.outSamples ≤ head ∧
      lastFrame audio.numSamples ≤ wrapPositionWithinRange fl head
        playback.source.activeLoop.inSamples playback.source.activeLoop.outSamples

end Playback

section Course

variable {playback : Playback} {audio : LoadedAudio} {position : ℚ}

/-- What the calls and blocks of a run keep of a loaded track. -/
structure OnTrack (audio : LoadedAudio) (playback : Playback) : Prop where
  buffer : playback.source.activeBuffer = some audio
  current : playback.source.messageThreadCurrentBuffer = some audio
  sampled : audio.numSamples ≠ 0
  short : audio.numSamples < 2 ^ 52
  asked : playback.NothingAsked
  head : 0 ≤ playback.start double
  forward : 0 ≤ playback.source.rate.value
  loopIn : 0 ≤ playback.source.activeLoop.inSamples
  loopOut : playback.source.activeLoop.outSamples ≤ lastFrame audio.numSamples

theorem srcToDeviceRatio_nonneg (renderer : Renderer) (audio : LoadedAudio) :
    0 ≤ srcToDeviceRatio double renderer audio := by
  unfold srcToDeviceRatio
  extract_lets sourceSampleRate
  split
  · rename_i device
    refine double_nonneg (div_nonneg ?_ device.le)
    unfold sourceSampleRate
    split
    · rename_i rate
      exact rate.le
    · exact device.le
  · exact zero_le_one

theorem OnTrack.ahead (onTrack : OnTrack audio playback) : Ahead (playback.start double) :=
  ⟨onTrack.head, representable_double _⟩

theorem OnTrack.last_nonneg (onTrack : OnTrack audio playback) :
    0 ≤ lastFrame audio.numSamples := by
  obtain ⟨count, samples⟩ := Nat.exists_eq_succ_of_ne_zero onTrack.sampled
  rw [samples, lastFrame_succ]
  exact Nat.cast_nonneg count

theorem OnTrack.looped (onTrack : OnTrack audio playback) (ahead : Ahead position) :
    Ahead (playback.looped double position) := by
  unfold Playback.looped
  split
  · exact ahead.wrap onTrack.loopIn
  · exact ahead

theorem OnTrack.settleIn (onTrack : OnTrack audio playback) (ahead : Ahead position) :
    Ahead ((playback.courseIn double audio).settleIn double position) := by
  have looped := onTrack.looped ahead
  rw [playback.settleIn_eq]
  split
  · exact looped.wrap le_rfl
  · exact looped

theorem Ahead.advanceIn (ahead : Ahead position) :
    Ahead ((playback.courseIn double audio).advanceIn double position) :=
  ahead_double (add_nonneg ahead.nonneg (srcToDeviceRatio_nonneg _ _))

theorem OnTrack.headAt (onTrack : OnTrack audio playback) (index : ℕ) :
    Ahead (ReadHead.headAt ((playback.courseIn double audio).settleIn double)
      ((playback.courseIn double audio).advanceIn double) (playback.start double) index) :=
  ReadHead.headAt_of_kept _ _ Ahead (fun _ ahead => onTrack.settleIn ahead)
    (fun _ ahead => ahead.advanceIn) onTrack.ahead index

/-- A block runs dry exactly if one of its heads settles on the last frame or past it. -/
theorem OnTrack.ranDry_iff (onTrack : OnTrack audio playback) (numOutput : ℕ) :
    (pullBlock double playback.source playback.renderer audio numOutput).ranDry = true ↔
      ∃ index < playback.pullFrames double numOutput,
        lastFrame audio.numSamples ≤ (playback.courseIn double audio).settleIn double
          (ReadHead.headAt ((playback.courseIn double audio).settleIn double)
            ((playback.courseIn double audio).advanceIn double) (playback.start double) index) := by
  rw [playback.pullBlock_eq_readIn]
  refine (ReadHead.read_dry_iff _ _ _).trans (exists_congr fun index => and_congr_right fun _ => ?_)
  exact or_iff_right (not_lt.mpr (onTrack.settleIn (onTrack.headAt index)).nonneg)

theorem settleIn_of_plain (plain : playback.Plain) :
    (playback.courseIn double audio).settleIn double position = position := by
  obtain ⟨once, still⟩ := plain
  have looped : playback.looped double position = position := by
    unfold Playback.looped
    split
    · rename_i active
      rw [wrapPositionWithinRange, if_neg fun inside => still ⟨active, inside.1⟩]
    · rfl
  rw [playback.settleIn_eq, looped, once]
  simp

theorem settleIn_lt_of_repeat (onTrack : OnTrack audio playback)
    (repeats : playback.source.repeats = true) (several : 2 ≤ audio.numSamples)
    (ahead : Ahead position) :
    (playback.courseIn double audio).settleIn double position < lastFrame audio.numSamples := by
  rw [playback.settleIn_eq]
  split
  · rename_i reached
    exact wrap_repeat_lt (onTrack.looped ahead) several onTrack.short reached.2
  · rename_i before
    exact not_le.mp fun reached => before ⟨repeats, reached⟩

/-- With the repeat off, only the wrap of the loop itself can leave the head at the end. -/
theorem last_le_settleIn_iff (onTrack : OnTrack audio playback) (looping : playback.Looping)
    (once : playback.source.repeats = false) :
    lastFrame audio.numSamples ≤ (playback.courseIn double audio).settleIn double position ↔
      playback.source.activeLoop.outSamples ≤ position ∧
        lastFrame audio.numSamples ≤ wrapPositionWithinRange double position
          playback.source.activeLoop.inSamples playback.source.activeLoop.outSamples := by
  have looped : playback.looped double position =
      wrapPositionWithinRange double position playback.source.activeLoop.inSamples
        playback.source.activeLoop.outSamples := if_pos looping.1
  have settled : (playback.courseIn double audio).settleIn double position =
      wrapPositionWithinRange double position playback.source.activeLoop.inSamples
        playback.source.activeLoop.outSamples := by
    rw [playback.settleIn_eq, once, if_neg fun both => Bool.noConfusion both.1, looped]
  rw [settled]
  refine (and_iff_right_of_imp fun reached => ?_).symm
  by_contra inside
  rw [wrapPositionWithinRange, if_neg fun wraps => inside wraps.2] at reached
  exact inside (onTrack.loopOut.trans reached)

end Course

/-!
## Tracks that stay loaded
-/

section Run

abbrev PlaybackRow := Machine.Entry Playback PlaybackEvent (Option Rendered)

/-- Blocks and calls that leave the track and its position alone, with the values that the
range checks let through. -/
def PlaybackEvent.KeepsTrack : PlaybackEvent → Prop
  | .call (.load _) | .call (.seek _) => False
  | .call (.setLoop (some points)) => 0 ≤ points.inSeconds
  | .call (.setPlaybackRate rate) => 0 ≤ rate.value
  | _ => True

/-- The latency in source frames is far from the limit of exact whole doubles. -/
def Moderate (row : PlaybackRow) : Prop :=
  ∀ rendered, row.output = some rendered →
    row.after.renderer.lastLaggedSourceFrames ≤ 2 ^ 53

variable {playback : Playback} {audio : LoadedAudio} {outputLatencyFrames : ℚ → ℕ}

theorem OnTrack.afterRequests (onTrack : OnTrack audio playback) :
    OnTrack audio (playback.afterRequests outputLatencyFrames) ∧
      (playback.afterRequests outputLatencyFrames).start double = playback.start double := by
  obtain ⟨renderer, source⟩ := @afterRequests_of_nothingAsked outputLatencyFrames _ onTrack.asked
  have start : (playback.afterRequests outputLatencyFrames).start double =
      playback.start double := by
    rw [Playback.start, renderer, source]
    rfl
  refine ⟨⟨?_, ?_, onTrack.sampled, onTrack.short, ⟨?_, ?_⟩, ?_, ?_, ?_, ?_⟩, start⟩
  · rw [source]
    exact onTrack.buffer
  · rw [source]
    exact onTrack.current
  · rw [source]
    exact onTrack.asked.seek
  · rw [source]
    exact onTrack.asked.reset
  · rw [start]
    exact onTrack.head
  · rw [source]
    exact onTrack.forward
  · rw [source]
    exact onTrack.loopIn
  · rw [source]
    exact onTrack.loopOut

theorem OnTrack.loopStateFor (onTrack : OnTrack audio playback)
    {loop : Option Client.LoopPoints}
    (after : ∀ points, loop = some points → 0 ≤ points.inSeconds) :
    0 ≤ (playback.source.loopStateFor loop).inSamples ∧
      (playback.source.loopStateFor loop).outSamples ≤ lastFrame audio.numSamples := by
  have last := onTrack.last_nonneg
  unfold BufferPlaybackSource.loopStateFor
  cases loop with
  | none => exact ⟨le_rfl, last⟩
  | some points =>
      simp only [onTrack.current]
      split
      · rename_i rate
        have start := double_nonneg (mul_nonneg (after points rfl) rate.le)
        exact ⟨le_min start last, min_le_right _ _⟩
      · exact ⟨le_rfl, last⟩

theorem laggedFrames_nonneg {source : BufferPlaybackSource} (forward : 0 ≤ source.rate.value)
    (renderer : Renderer) (audio : LoadedAudio) (numOutput : ℕ) :
    0 ≤ laggedFrames double source renderer audio numOutput :=
  double_nonneg (mul_nonneg (double_nonneg (mul_nonneg (Nat.cast_nonneg _) forward))
    (srcToDeviceRatio_nonneg renderer audio))

/-- Where a rendered block leaves the head: past every frame that the pull had reached. -/
theorem start_renderBlock (onTrack : OnTrack audio playback) {numOutput whole : ℕ}
    (small : whole < 2 ^ 52)
    (moderate : laggedFrames double playback.source playback.renderer audio numOutput ≤ 2 ^ 53)
    (reached : (whole : ℚ) ≤
      (pullBlock double playback.source playback.renderer audio numOutput).head) :
    (whole : ℚ) ≤ Playback.start double
      ⟨(renderBlock double playback.source playback.renderer audio numOutput).1,
        (renderBlock double playback.source playback.renderer audio numOutput).2⟩ := by
  rw [renderBlock_eq]
  refine BinaryRounding.natCast_le_round_round_sub_add (by decide) (by decide) ?_
    (representable_double _) (laggedFrames_nonneg onTrack.forward _ _ _) moderate reached
  have width : (binary64.precision - 1 : ℤ) = (52 : ℕ) := rfl
  rw [width, zpow_natCast]
  exact_mod_cast small

theorem OnTrack.pulled_nonneg (onTrack : OnTrack audio playback) (numOutput : ℕ) :
    0 ≤ (pullBlock double playback.source playback.renderer audio numOutput).head := by
  rw [playback.pullBlock_eq_readIn]
  exact (ReadHead.read_head_of_kept _ _ _ Ahead (fun _ ahead => onTrack.settleIn ahead)
    (fun _ ahead => ahead.advanceIn) onTrack.ahead _).nonneg

theorem OnTrack.step (onTrack : OnTrack audio playback) {event : PlaybackEvent}
    (keeps : event.KeepsTrack)
    (moderate :
      Moderate (Machine.entry (Playback.step double outputLatencyFrames) playback event)) :
    OnTrack audio (playback.step double outputLatencyFrames event).1 := by
  cases event with
  | call call =>
      cases call with
      | load => exact absurd keeps id
      | seek => exact absurd keeps id
      | setLoop loop =>
          have bounds := @OnTrack.loopStateFor _ _ onTrack loop fun points some => by
            subst some
            exact keeps
          refine { onTrack with
            loopIn := ?_, loopOut := ?_, asked := ⟨onTrack.asked.seek, onTrack.asked.reset⟩ }
          · simpa only [Playback.step, BufferPlaybackSource.perform, BufferPlaybackSource.setLoop,
              activeLoop_publishLoop] using bounds.1
          · simpa only [Playback.step, BufferPlaybackSource.perform, BufferPlaybackSource.setLoop,
              activeLoop_publishLoop] using bounds.2
      | setPlaybackRate rate =>
          exact { onTrack with
            forward := keeps, asked := ⟨onTrack.asked.seek, onTrack.asked.reset⟩ }
      | play | pause | setGain | setPitchOffsetSemitones | setRepeat =>
          exact { onTrack with asked := ⟨onTrack.asked.seek, onTrack.asked.reset⟩ }
  | prepareToPlay => exact { onTrack with asked := ⟨onTrack.asked.seek, onTrack.asked.reset⟩ }
  | block numOutput =>
      obtain ⟨taken, start⟩ := @OnTrack.afterRequests _ _ outputLatencyFrames onTrack
      rcases playback.step_block double outputLatencyFrames numOutput with
        ⟨other, heard, rendered⟩ | ⟨_, silent⟩
      · obtain rfl : audio = other :=
          Option.some.inj (taken.buffer.symm.trans (audible_some heard).1)
        have lag := moderate _ (congrArg Prod.snd rendered)
        simp only [Machine.entry, rendered, renderBlock_eq] at lag
        have head := @start_renderBlock _ _ taken numOutput 0 (by norm_num) lag
          (by exact_mod_cast taken.pulled_nonneg numOutput)
        rw [rendered]
        exact { taken with
          head := by exact_mod_cast head, asked := ⟨taken.asked.seek, taken.asked.reset⟩ }
      · rw [silent]
        have same := haltIfSilent_of_samples taken.buffer taken.sampled
        rw [same]
        exact taken

/-!
## The countdown of the drain
-/

/-- The dry spell after a block: it grows until it has outlasted the latency. -/
def Rendered.spell (latency count : ℕ) (rendered : Rendered) : ℕ :=
  if rendered.pulled.ranDry = true ∧ count + rendered.numOutput ≤ latency then
    count + rendered.numOutput
  else 0

/-- The output frames of the dry blocks since the last block that was not dry or stopped. -/
def drySpell (latency : ℕ) (rows : List PlaybackRow) : ℕ :=
  rows.foldl (fun count row => row.output.elim count (Rendered.spell latency count)) 0

/-- The output frames rendered since the start of the first dry block. -/
def framesSinceDry (rows : List PlaybackRow) : ℕ :=
  rows.foldl (fun count row => row.output.elim count fun rendered =>
    if count ≠ 0 ∨ rendered.pulled.ranDry = true then count + rendered.numOutput else 0) 0

theorem drySpell_concat (latency : ℕ) (rows : List PlaybackRow) (row : PlaybackRow) :
    drySpell latency (rows ++ [row]) =
      row.output.elim (drySpell latency rows) (Rendered.spell latency (drySpell latency rows)) := by
  rw [drySpell, List.foldl_append]
  rfl

theorem framesSinceDry_concat (rows : List PlaybackRow) (row : PlaybackRow) :
    framesSinceDry (rows ++ [row]) = row.output.elim (framesSinceDry rows) fun rendered =>
      if framesSinceDry rows ≠ 0 ∨ rendered.pulled.ranDry = true then
        framesSinceDry rows + rendered.numOutput
      else 0 := by
  rw [framesSinceDry, List.foldl_append]
  rfl

/-- The countdown of the renderer, in terms of the dry spell. -/
structure Countdown (latency count : ℕ) (renderer : Renderer) : Prop where
  cached : renderer.outputLatencyFrames = latency
  remaining : renderer.drainFramesRemaining = if count = 0 then 0 else latency + 1 - count
  short : count ≤ latency

theorem Countdown.drainAfter {latency count numOutput : ℕ} {renderer : Renderer}
    (countdown : Countdown latency count renderer) (some : numOutput ≠ 0) (ranDry : Bool) :
    let spell := if ranDry = true ∧ count + numOutput ≤ latency then count + numOutput else 0
    (Engine.drainAfter renderer ranDry numOutput).1 =
        (if spell = 0 then 0 else latency + 1 - spell) ∧ spell ≤ latency ∧
      ((Engine.drainAfter renderer ranDry numOutput).2 = true ↔
        ranDry = true ∧ latency < count + numOutput) := by
  obtain ⟨same, remaining, short⟩ := countdown
  cases ranDry with
  | false => simp [Engine.drainAfter]
  | true =>
      have armed : (if renderer.drainFramesRemaining = 0 then renderer.outputLatencyFrames + 1
          else renderer.drainFramesRemaining) = latency + 1 - count := by
        rw [same, remaining]
        split_ifs <;> omega
      simp only [Engine.drainAfter, ↓reduceIte, armed, true_and, decide_eq_true_eq]
      split_ifs <;> omega

/-- A step carries the countdown on, and a block stops a playing source exactly if it is dry
and its dry spell outlasts the latency. -/
theorem Countdown.step {latency count : ℕ} (onTrack : OnTrack audio playback)
    (countdown : Countdown latency count playback.renderer) {event : PlaybackEvent} :
    let row := Machine.entry (Playback.step double outputLatencyFrames) playback event
    Countdown latency (row.output.elim count (Rendered.spell latency count)) row.after.renderer ∧
      ∀ rendered, row.output = some rendered → rendered.numOutput ≠ 0 ∧
        (rendered.stops = true ↔
          rendered.pulled.ranDry = true ∧ latency < count + rendered.numOutput) ∧
        row.after.source.playing = !rendered.stops := by
  cases event with
  | call call => exact ⟨countdown, fun _ none => by cases none⟩
  | prepareToPlay =>
      exact
        ⟨⟨countdown.cached, countdown.remaining, countdown.short⟩, fun _ none => by cases none⟩
  | block numOutput =>
      have taken : Countdown latency count
          (playback.afterRequests outputLatencyFrames).renderer := by
        rw [(afterRequests_of_nothingAsked onTrack.asked).1]
        exact countdown
      rcases playback.step_block double outputLatencyFrames numOutput with
        ⟨other, heard, rendered⟩ | ⟨_, silent⟩
      · obtain ⟨_, _, playing, some, _⟩ := audible_some heard
        obtain ⟨remaining, short, stops⟩ := taken.drainAfter some
          (pullBlock double (playback.afterRequests outputLatencyFrames).source
            (playback.afterRequests outputLatencyFrames).renderer other numOutput).ranDry
        simp only [Machine.entry, rendered, renderBlock_eq, Option.elim_some]
        refine ⟨⟨taken.cached, remaining, short⟩, fun _ same => ?_⟩
        cases same
        refine ⟨some, stops, ?_⟩
        rw [playing, Bool.true_and]
      · simp only [Machine.entry, silent]
        exact ⟨taken, fun _ none => by cases none⟩

/-- What a rendered block pulled, and where it leaves the head. -/
theorem OnTrack.rendered (onTrack : OnTrack audio playback) {event : PlaybackEvent}
    {rendered : Rendered} :
    let row := Machine.entry (Playback.step double outputLatencyFrames) playback event
    row.output = some rendered → Moderate row →
      rendered.pulled = pullBlock double playback.source playback.renderer audio
        rendered.numOutput ∧
      playback.pullFrames double rendered.numOutput ≠ 0 ∧
      (rendered.pulled.ranDry = true →
        lastFrame audio.numSamples ≤ row.after.start double) := by
  intro row output moderate
  cases event with
  | call call => cases output
  | prepareToPlay => cases output
  | block numOutput =>
      have taken := (@OnTrack.afterRequests _ _ outputLatencyFrames onTrack).1
      obtain ⟨renderer, source⟩ := @afterRequests_of_nothingAsked outputLatencyFrames _ onTrack.asked
      rcases playback.step_block double outputLatencyFrames numOutput with
        ⟨other, heard, block⟩ | ⟨_, silent⟩
      · obtain ⟨buffer, _, _, _, capacity, _⟩ := audible_some heard
        obtain rfl : audio = other := Option.some.inj (taken.buffer.symm.trans buffer)
        have lag := moderate rendered output
        simp only [row, Machine.entry, block, renderBlock_eq] at lag output
        cases output
        refine ⟨?_, ?_, fun dry => ?_⟩
        · simp only [report, renderer, source]
          rfl
        · rw [renderer] at capacity
          have least : 1 ≤ (max 1 ⌊double (playback.renderer.pullAccumulator +
              double (numOutput * playback.source.rate.value))⌋).toNat := by omega
          exact (Nat.lt_min.mpr ⟨least, Nat.pos_of_ne_zero capacity⟩).ne'
        · obtain ⟨whole, samples⟩ := Nat.exists_eq_succ_of_ne_zero onTrack.sampled
          have reached : lastFrame audio.numSamples ≤ (pullBlock double
              (playback.afterRequests outputLatencyFrames).source
              (playback.afterRequests outputLatencyFrames).renderer audio numOutput).head := by
            have nonneg := taken.pulled_nonneg numOutput
            have stuck := dry
            rw [report, Playback.pullBlock_eq_readIn] at stuck
            rw [Playback.pullBlock_eq_readIn] at nonneg ⊢
            exact (ReadHead.read_of_dry _ _ _ stuck).2.1.resolve_left (not_lt.mpr nonneg)
          rw [samples, lastFrame_succ] at reached ⊢
          have short := onTrack.short
          have after := start_renderBlock taken (by omega) lag reached
          simp only [row, Machine.entry, block]
          exact after
      · simp only [row, Machine.entry, silent] at output
        cases output

/-- Calls and blocks that are not rendered leave the head where it is. -/
theorem OnTrack.start_eq (onTrack : OnTrack audio playback) {event : PlaybackEvent}
    (keeps : event.KeepsTrack) :
    let row := Machine.entry (Playback.step double outputLatencyFrames) playback event
    row.output = none → row.after.start double = playback.start double := by
  intro row output
  cases event with
  | call call =>
      cases call with
      | load => exact absurd keeps id
      | seek => exact absurd keeps id
      | play | pause | setGain | setPlaybackRate | setPitchOffsetSemitones | setLoop | setRepeat =>
          rfl
  | prepareToPlay => rfl
  | block numOutput =>
      obtain ⟨_, start⟩ := @OnTrack.afterRequests _ _ outputLatencyFrames onTrack
      rcases playback.step_block double outputLatencyFrames numOutput with
        ⟨other, heard, block⟩ | ⟨_, silent⟩
      · simp only [row, Machine.entry, block] at output
        cases output
      · simp only [row, Machine.entry, silent]
        exact start

/-- What self-stop should do in a step, after the steps before it. -/
structure DrainsRight (latency : ℕ) (audio : LoadedAudio) (earlier : List PlaybackRow)
    (row : PlaybackRow) : Prop where
  -- A block that is not rendered stops nothing.
  silent : ∀ numOutput, row.input = .block numOutput → row.output = none →
    row.after.source.playing = row.before.source.playing
  -- Where nothing ever wraps the head, the first block to reach the end of the drain stops.
  first : ∀ rendered, row.output = some rendered →
    (∀ each ∈ earlier ++ [row], each.before.Plain) →
    (∀ each ∈ earlier, ∀ rendered, each.output = some rendered → rendered.stops = false) →
      (row.after.source.playing = false ↔ latency < framesSinceDry (earlier ++ [row]))
  -- In every run, a block stops if it is dry and its dry spell outlasts the latency.
  afresh : ∀ rendered, row.output = some rendered →
    (row.after.source.playing = false ↔
      rendered.pulled.ranDry = true ∧ latency < drySpell latency earlier + rendered.numOutput)
  -- A block that finds audio again cancels the drain.
  recovers : ∀ rendered, row.output = some rendered → rendered.pulled.ranDry = false →
    row.after.renderer.drainFramesRemaining = 0
  endless : ∀ rendered, row.output = some rendered → row.before.Endless audio →
    row.after.source.playing = true

/-- The rounded wrap of a loop leaves the head at the end of the track in the block that
completes the drain. -/
def Slips (latency : ℕ) (audio : LoadedAudio) (earlier : List PlaybackRow)
    (row : PlaybackRow) : Prop :=
  ∃ rendered, row.output = some rendered ∧ row.before.Looping ∧
    row.before.source.repeats = false ∧
    row.before.Overshoots double audio rendered.numOutput ∧
    latency < drySpell latency earlier + rendered.numOutput

/-- What the steps so far leave for the next one. -/
structure Drained (latency : ℕ) (audio : LoadedAudio) (earlier : List PlaybackRow)
    (playback : Playback) : Prop where
  onTrack : OnTrack audio playback
  countdown : Countdown latency (drySpell latency earlier) playback.renderer
  parked : (∀ each ∈ earlier, each.before.Plain) →
    (∀ each ∈ earlier, ∀ rendered, each.output = some rendered → rendered.stops = false) →
      framesSinceDry earlier = drySpell latency earlier ∧
        (framesSinceDry earlier ≠ 0 → lastFrame audio.numSamples ≤ playback.start double)

/-!
## Steps and runs
-/

section Row

variable {latency : ℕ} {earlier : List PlaybackRow} {event : PlaybackEvent} {rendered : Rendered}

theorem pulled_dry_of_parked (onTrack : OnTrack audio playback) (plain : playback.Plain)
    (parked : lastFrame audio.numSamples ≤ playback.start double) {numOutput : ℕ}
    (some : playback.pullFrames double numOutput ≠ 0) :
    (pullBlock double playback.source playback.renderer audio numOutput).ranDry = true := by
  refine (onTrack.ranDry_iff numOutput).mpr ⟨0, Nat.pos_of_ne_zero some, ?_⟩
  rw [settleIn_of_plain plain]
  exact parked

/-- With the repeat on, or with a loop, a block runs dry only by the rounding of the loop's
wrap. -/
theorem ranDry_iff_of_endless (onTrack : OnTrack audio playback) (endless : playback.Endless audio)
    (numOutput : ℕ) :
    (pullBlock double playback.source playback.renderer audio numOutput).ranDry = true ↔
      playback.Looping ∧ playback.source.repeats = false ∧
        playback.Overshoots double audio numOutput := by
  have several : playback.Looping → 2 ≤ audio.numSamples := by
    rintro ⟨_, ordered⟩
    have last : 0 < lastFrame audio.numSamples :=
      lt_of_le_of_lt onTrack.loopIn (ordered.trans_le onTrack.loopOut)
    have count : (1 : ℚ) < audio.numSamples := by
      rw [lastFrame] at last
      linarith
    exact_mod_cast count
  rw [onTrack.ranDry_iff]
  cases repeats : playback.source.repeats with
  | true =>
      have count : 2 ≤ audio.numSamples := endless.elim And.right several
      refine iff_of_false ?_ fun both => Bool.noConfusion both.2.1
      rintro ⟨index, _, reached⟩
      exact not_lt.mpr reached
        (settleIn_lt_of_repeat onTrack repeats count (onTrack.headAt index))
  | false =>
      have looping : playback.Looping :=
        endless.resolve_left fun both => by rw [repeats] at both; cases both.1
      refine Iff.trans (exists_congr fun index => and_congr_right fun _ => ?_)
        (and_iff_right looping |>.trans (and_iff_right rfl)).symm
      exact last_le_settleIn_iff onTrack looping repeats

/-- What stops in a step, given what the steps before it left. -/
theorem Drained.stops_iff (drained : Drained latency audio earlier playback) :
    let row := Machine.entry (Playback.step double outputLatencyFrames) playback event
    row.output = some rendered →
      (row.after.source.playing = false ↔
        rendered.pulled.ranDry = true ∧ latency < drySpell latency earlier + rendered.numOutput) := by
  intro row output
  obtain ⟨_, stops, playing⟩ :=
    (@Countdown.step _ _ outputLatencyFrames _ _ drained.onTrack drained.countdown event).2 _ output
  rw [playing, Bool.not_eq_false', stops]

theorem Drained.step (drained : Drained latency audio earlier playback)
    (keeps : event.KeepsTrack) :
    let row := Machine.entry (Playback.step double outputLatencyFrames) playback event
    Moderate row → Drained latency audio (earlier ++ [row]) row.after := by
  intro row moderate
  obtain ⟨countdown, each⟩ :=
    @Countdown.step _ _ outputLatencyFrames _ _ drained.onTrack drained.countdown event
  refine ⟨drained.onTrack.step keeps moderate, ?_, fun plain going => ?_⟩
  · rw [drySpell_concat]
    exact countdown
  obtain ⟨before, own⟩ := List.forall_mem_append.mp plain
  obtain ⟨running, ownGoing⟩ := List.forall_mem_append.mp going
  have ownPlain : playback.Plain := own row (List.mem_singleton_self row)
  have ownRunning := ownGoing row (List.mem_singleton_self row)
  obtain ⟨same, parked⟩ := drained.parked before running
  rw [framesSinceDry_concat, drySpell_concat]
  cases output : row.output with
  | none =>
      refine ⟨same, fun dry => ?_⟩
      rw [drained.onTrack.start_eq keeps output]
      exact parked dry
  | some rendered =>
      obtain ⟨pulled, some, leaves⟩ := drained.onTrack.rendered output moderate
      obtain ⟨_, stops, _⟩ := each rendered output
      have persists : framesSinceDry earlier ≠ 0 → rendered.pulled.ranDry = true := fun dry => by
        rw [pulled]
        exact pulled_dry_of_parked drained.onTrack ownPlain (parked dry) some
      have within : rendered.pulled.ranDry = true →
          drySpell latency earlier + rendered.numOutput ≤ latency := fun dry => by
        by_contra exceeds
        have stopped := stops.mpr ⟨dry, not_le.mp exceeds⟩
        rw [ownRunning rendered output] at stopped
        cases stopped
      simp only [Option.elim_some, Rendered.spell]
      by_cases dry : rendered.pulled.ranDry = true
      · rw [if_pos (Or.inr dry), if_pos ⟨dry, within dry⟩, same]
        exact ⟨rfl, fun _ => leaves dry⟩
      · have fresh : ¬ (framesSinceDry earlier ≠ 0 ∨ rendered.pulled.ranDry = true) :=
          fun either => dry (either.elim persists id)
        rw [if_neg fresh, if_neg fun both => dry both.1]
        exact ⟨rfl, fun none => absurd rfl none⟩

/-- A step does what self-stop should, except where the loop's wrap slips. -/
theorem Drained.drainsRight_iff (drained : Drained latency audio earlier playback)
    (keeps : event.KeepsTrack) :
    let row := Machine.entry (Playback.step double outputLatencyFrames) playback event
    Moderate row → (DrainsRight latency audio earlier row ↔ ¬ Slips latency audio earlier row) := by
  intro row moderate
  obtain ⟨countdown, each⟩ :=
    @Countdown.step _ _ outputLatencyFrames _ _ drained.onTrack drained.countdown event
  have exact_endless : ∀ rendered, row.output = some rendered → playback.Endless audio →
      (row.after.source.playing = false ↔ Slips latency audio earlier row) := by
    intro rendered output endless
    obtain ⟨pulled, _, _⟩ := drained.onTrack.rendered output moderate
    rw [drained.stops_iff output, pulled, ranDry_iff_of_endless drained.onTrack endless]
    constructor
    · rintro ⟨⟨looping, once, ended⟩, outlasts⟩
      exact ⟨rendered, output, looping, once, ended, outlasts⟩
    · rintro ⟨other, same, looping, once, ended, outlasts⟩
      rw [output] at same
      cases same
      exact ⟨⟨looping, once, ended⟩, outlasts⟩
  constructor
  · intro right slips
    have ⟨rendered, output, looping, _⟩ := slips
    have plays := right.endless rendered output (.inr looping)
    have stopped := (exact_endless rendered output (.inr looping)).mpr slips
    rw [plays] at stopped
    cases stopped
  · intro sound
    refine ⟨fun numOutput input output => ?_, fun rendered output plain going => ?_,
      fun rendered output => drained.stops_iff output, fun rendered output flowing => ?_,
      fun rendered output endless => ?_⟩
    · obtain ⟨taken, _⟩ := @OnTrack.afterRequests _ _ outputLatencyFrames drained.onTrack
      have block : event = .block numOutput := input
      subst block
      rcases playback.step_block double outputLatencyFrames numOutput with
        ⟨other, heard, block⟩ | ⟨_, silent⟩
      · simp only [row, Machine.entry, block] at output
        cases output
      · simp only [row, Machine.entry, silent]
        rw [haltIfSilent_of_samples taken.buffer taken.sampled,
          (afterRequests_of_nothingAsked drained.onTrack.asked).2]
    · obtain ⟨before, own⟩ := List.forall_mem_append.mp plain
      obtain ⟨same, parked⟩ := drained.parked before going
      obtain ⟨pulled, some, _⟩ := drained.onTrack.rendered output moderate
      rw [drained.stops_iff output, framesSinceDry_concat, output, Option.elim_some, same]
      by_cases dry : rendered.pulled.ranDry = true
      · rw [if_pos (Or.inr dry)]
        exact and_iff_right dry
      · have fresh : ¬ (drySpell latency earlier ≠ 0 ∨ rendered.pulled.ranDry = true) := by
          rintro (spell | ranDry)
          · rw [← same] at spell
            apply dry
            rw [pulled]
            exact pulled_dry_of_parked drained.onTrack (own row (List.mem_singleton_self row))
              (parked spell) some
          · exact dry ranDry
        rw [if_neg fresh]
        exact iff_of_false (fun both => dry both.1) (Nat.not_lt_zero latency)
    · have remaining := countdown.remaining
      rw [show (Machine.entry (Playback.step double outputLatencyFrames) playback event).output =
        some rendered from output, Option.elim_some, Rendered.spell, flowing] at remaining
      simpa using remaining
    · by_contra stopped
      exact sound ((exact_endless rendered output endless).mp (Bool.not_eq_true _ ▸ stopped))

end Row

theorem drained_run {latency : ℕ} {events : List PlaybackEvent} (onTrack : OnTrack audio playback)
    (cached : playback.renderer.outputLatencyFrames = latency)
    (rested : playback.renderer.drainFramesRemaining = 0)
    (keeps : ∀ event ∈ events, event.KeepsTrack)
    (moderate : ∀ row ∈ Machine.trace (Playback.step double outputLatencyFrames) playback events,
      Moderate row) :
    Drained latency audio
      (Machine.trace (Playback.step double outputLatencyFrames) playback events)
      (Machine.run (Playback.step double outputLatencyFrames) playback events) := by
  refine Machine.history_invariant_of _ (fun row => row.input.KeepsTrack ∧ Moderate row)
    (Drained latency audio) ⟨onTrack, ⟨cached, rested, Nat.zero_le latency⟩, fun _ _ => ?_⟩
    (fun earlier state input drained allowed => drained.step allowed.1 allowed.2)
    fun row member => ⟨keeps _ (Machine.input_mem _ member), moderate row member⟩
  exact ⟨rfl, fun none => absurd rfl none⟩

/-- In a run on a loaded track, without load or seek, self-stop comes exactly at the end of
the track and of the drain, and not while a repeat or a loop keeps the head on the track, if
and only if no block completes a drain that the rounding of the loop's wrap has started. -/
theorem selfStop_iff (outputLatencyFrames : ℚ → ℕ) (playback : Playback) (audio : LoadedAudio)
    (events : List PlaybackEvent) (onTrack : OnTrack audio playback)
    (rested : playback.renderer.drainFramesRemaining = 0)
    (keeps : ∀ event ∈ events, event.KeepsTrack)
    (moderate : ∀ row ∈ Machine.trace (Playback.step double outputLatencyFrames) playback events,
      Moderate row) :
    (∀ earlier row later,
      Machine.trace (Playback.step double outputLatencyFrames) playback events =
          earlier ++ row :: later →
        DrainsRight playback.renderer.outputLatencyFrames audio earlier row) ↔
      ∀ earlier row later,
        Machine.trace (Playback.step double outputLatencyFrames) playback events =
            earlier ++ row :: later →
          ¬ Slips playback.renderer.outputLatencyFrames audio earlier row := by
  have each : ∀ earlier row later,
      Machine.trace (Playback.step double outputLatencyFrames) playback events =
          earlier ++ row :: later →
        (DrainsRight playback.renderer.outputLatencyFrames audio earlier row ↔
          ¬ Slips playback.renderer.outputLatencyFrames audio earlier row) := by
    intro earlier row later shape
    rw [shape] at moderate
    obtain ⟨before, others⟩ := List.forall_mem_append.mp moderate
    obtain ⟨own, _⟩ := List.forall_mem_cons.mp others
    obtain ⟨first, input, rest, rfl, rfl, rfl, _⟩ := Machine.trace_split _ shape
    obtain ⟨firstKeeps, restKeeps⟩ := List.forall_mem_append.mp keeps
    have drained := drained_run onTrack rfl rested firstKeeps before
    exact drained.drainsRight_iff (List.forall_mem_cons.mp restKeeps).1 own
  constructor
  · intro right earlier row later shape
    exact (each earlier row later shape).mp (right earlier row later shape)
  · intro sound earlier row later shape
    exact (each earlier row later shape).mpr (sound earlier row later shape)

end Run

/-!
## A track played to its end
-/

section Examples

/-- Three samples of silence, played once through a stretcher with a latency of seven frames. -/
def playedOnce : Playback :=
  Machine.run (Playback.step double 7) {}
    [.prepareToPlay 512 44100, .call (.load (some (.silence 3 44100))), .call (.setRepeat false),
      .block 512, .call .play]

theorem onTrack_playedOnce : OnTrack (.silence 3 44100) playedOnce := by
  refine ⟨rfl, rfl, by decide, by decide, ⟨rfl, rfl⟩, ?_, ?_, le_rfl, ?_⟩
  · decide +kernel
  · decide +kernel
  · decide +kernel

def playedOnceRows : List PlaybackRow :=
  Machine.trace (Playback.step double 7) playedOnce [.block 2, .block 5, .block 3]

theorem selfStop_iff_playedOnce :
    playedOnceRows.map (·.after.source.playing) = [true, true, false] ∧
      ∀ earlier row later, playedOnceRows = earlier ++ row :: later →
        DrainsRight 7 (.silence 3 44100) earlier row := by
  have small : playedOnceRows.all (fun row =>
      row.after.renderer.lastLaggedSourceFrames ≤ 2 ^ 53 ∧
        row.before.source.activeLoop.active = false) = true := by
    decide +kernel
  have each := fun row member => of_decide_eq_true (List.all_eq_true.mp small row member)
  have sound := (selfStop_iff 7 playedOnce (.silence 3 44100) [.block 2, .block 5, .block 3]
    onTrack_playedOnce rfl (by simp [PlaybackEvent.KeepsTrack])
    fun row member _ _ => (each row member).1).mpr
  refine ⟨by decide +kernel, sound fun earlier row later shape slips => ?_⟩
  obtain ⟨_, _, looping, _⟩ := slips
  have member : row ∈ playedOnceRows := by
    rw [playedOnceRows, shape]
    simp
  have still := (each row member).2
  rw [looping.1] at still
  cases still

/-- One second of silence in a loop to its end, and a seek to far behind it. -/
def seekedBehind : Playback :=
  Machine.run (Playback.step double 0) {}
    [.prepareToPlay 512 44100, .call (.load (some (.silence 44100 44100))),
      .call (.setLoop (some ⟨4686252599195018 / 2 ^ 54, 2⟩)),
      .call (.seek (5583683107596194 / 2 ^ 51)), .call (.setRepeat false), .block 512, .call .play]

theorem onTrack_seekedBehind : OnTrack (.silence 44100 44100) seekedBehind := by
  refine ⟨rfl, rfl, by decide, by decide, ⟨rfl, rfl⟩, ?_, ?_, ?_, ?_⟩
  · decide +kernel
  · decide +kernel
  · decide +kernel
  · decide +kernel

/-- The wrap of the loop is rounded up to the last frame, where the first block runs dry and
stops. -/
theorem loop_selfStops :
    ¬ ∀ (outputLatencyFrames : ℚ → ℕ) (playback : Playback) (audio : LoadedAudio)
      (events : List PlaybackEvent), OnTrack audio playback →
      playback.renderer.drainFramesRemaining = 0 → (∀ event ∈ events, event.KeepsTrack) →
      (∀ row ∈ Machine.trace (Playback.step double outputLatencyFrames) playback events,
        Moderate row) →
      ∀ earlier row later,
        Machine.trace (Playback.step double outputLatencyFrames) playback events =
            earlier ++ row :: later →
          DrainsRight playback.renderer.outputLatencyFrames audio earlier row := by
  intro right
  let block := Machine.entry (Playback.step double 0) seekedBehind (.block 1)
  have lag : block.after.renderer.lastLaggedSourceFrames ≤ 2 ^ 53 := by decide +kernel
  have drains := right 0 seekedBehind (.silence 44100 44100) [.block 1] onTrack_seekedBehind rfl
    (by simp [PlaybackEvent.KeepsTrack])
    (fun row member _ _ => by rw [List.mem_singleton.mp member]; exact lag) [] block [] rfl
  have looping : seekedBehind.Looping := ⟨rfl, by decide +kernel⟩
  have rendered : block.output.isSome = true := by decide +kernel
  obtain ⟨rendered, output⟩ := Option.isSome_iff_exists.mp rendered
  have plays := drains.endless rendered output (.inr looping)
  have stopped : block.after.source.playing = false := by decide +kernel
  rw [stopped] at plays
  cases plays

end Examples

end DjApp.Engine
