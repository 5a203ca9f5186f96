import DjApp.Engine.Playback
import DjApp.Library.FractionalCarry

/-! The tempo accumulator over a whole run: it loses nothing as long as every block
completes a frame, and a block that completes none is charged for one all the same. -/

set_option autoImplicit false

namespace DjApp.Engine

open Library
open Library.BinaryRounding (binary64 double Representable)
open Library.FractionalCarry (paid leftOver)

section Grid

/-- A multiple of the spacing of the floats below one. -/
def OnGrid (value : ℚ) : Prop := ∃ multiple : ℤ, value = multiple * 2 ^ (-24 : ℤ)

theorem onGrid_intCast (value : ℤ) : OnGrid value := by
  refine ⟨value * 2 ^ 24, ?_⟩
  push_cast
  norm_num
  ring

theorem OnGrid.add {left right : ℚ} (first : OnGrid left) (second : OnGrid right) :
    OnGrid (left + right) := by
  obtain ⟨first, rfl⟩ := first
  obtain ⟨second, rfl⟩ := second
  exact ⟨first + second, by push_cast; ring⟩

theorem OnGrid.sub {left right : ℚ} (first : OnGrid left) (second : OnGrid right) :
    OnGrid (left - right) := by
  obtain ⟨first, rfl⟩ := first
  obtain ⟨second, rfl⟩ := second
  exact ⟨first - second, by push_cast; ring⟩

theorem OnGrid.natCast_mul {value : ℚ} (grid : OnGrid value) (count : ℕ) :
    OnGrid (count * value) := by
  obtain ⟨multiple, rfl⟩ := grid
  exact ⟨count * multiple, by push_cast; ring⟩

theorem OnGrid.fract {value : ℚ} (grid : OnGrid value) : OnGrid (Int.fract value) :=
  grid.sub (onGrid_intCast _)

/-- The doubles are fine enough for the grid, up to here. -/
theorem OnGrid.double_eq {value : ℚ} (grid : OnGrid value) (small : |value| ≤ 2 ^ 29) :
    double value = value := by
  obtain ⟨multiple, rfl⟩ := grid
  refine Representable.round_eq (by decide) ⟨multiple, -24, ?_, by decide, rfl⟩
  rw [abs_mul, abs_of_pos (by positivity : (0 : ℚ) < 2 ^ (-24 : ℤ))] at small
  have bound : (|multiple| : ℚ) ≤ 2 ^ 53 := by
    rw [zpow_neg, ← div_eq_mul_inv, div_le_iff₀ (by positivity)] at small
    exact small.trans (by norm_num)
  exact_mod_cast bound

theorem onGrid_rate {rate : Client.Single} (fast : 1 / 2 ≤ rate.value) : OnGrid rate.value := by
  have positive : 0 < rate.value := lt_of_lt_of_le (by norm_num) fast
  have reached : ((2 : ℕ) : ℚ) ^ (-1 : ℤ) ≤ |rate.value| := by
    rw [abs_of_pos positive]
    norm_num at fast ⊢
    exact fast
  have log := (Int.zpow_le_iff_le_log (by decide) (abs_pos.mpr positive.ne')).mp reached
  have coarse : -24 ≤ BinaryRounding.quantumExponent BinaryRounding.binary32 rate.value := by
    refine le_trans ?_ (le_max_right _ _)
    have precision : (BinaryRounding.binary32.precision : ℤ) = 24 := rfl
    omega
  obtain ⟨gap, split⟩ := Int.le.dest coarse
  have same := rate.single
  rw [BinaryRounding.round] at same
  refine ⟨BinaryRounding.roundHalfEven (rate.value /
    2 ^ BinaryRounding.quantumExponent BinaryRounding.binary32 rate.value) * 2 ^ gap, ?_⟩
  conv_lhs => rw [← same]
  rw [← split, zpow_add₀ two_ne_zero, zpow_natCast]
  push_cast
  ring

end Grid

section Block

variable {source : BufferPlaybackSource} {renderer : Renderer} {numOutput : ℕ} {asked : ℚ}

/-- A block's share of the tempo. -/
def share (source : BufferPlaybackSource) (numOutput : ℕ) : ℚ := numOutput * source.rate.value

/-- What a device may ask of a block: a length that doubles can add up, at a rate the range
check lets through. -/
structure Regular (source : BufferPlaybackSource) (numOutput : ℕ) : Prop where
  short : numOutput < 2 ^ 28
  slowest : 1 / 2 ≤ source.rate.value
  fastest : source.rate.value ≤ 2

theorem Regular.share_bounds (regular : Regular source numOutput) :
    0 ≤ share source numOutput ∧ share source numOutput ≤ 2 * numOutput := by
  have rate : 0 ≤ source.rate.value := le_trans (by norm_num) regular.slowest
  have count : (0 : ℚ) ≤ numOutput := Nat.cast_nonneg numOutput
  have fastest := regular.fastest
  constructor
  · exact mul_nonneg count rate
  · rw [share, mul_comm]
    exact mul_le_mul_of_nonneg_right fastest count

theorem Regular.share_lt (regular : Regular source numOutput) :
    share source numOutput + 1 ≤ 2 ^ 29 := by
  have bounds := regular.share_bounds
  have short : (numOutput : ℚ) + 1 ≤ 2 ^ 28 := by exact_mod_cast regular.short
  linarith [bounds.2]

/-- The double arithmetic of a block loses nothing. -/
theorem pullCount_exact (regular : Regular source numOutput) (grid : OnGrid asked)
    (carry : renderer.pullAccumulator = Int.fract asked) :
    wantedFrames double source renderer numOutput =
        paid (Int.fract asked) (share source numOutput) ∧
      (pullCount double source renderer numOutput).2 =
        leftOver (Int.fract asked) (share source numOutput) := by
  have shareGrid : OnGrid (share source numOutput) := (onGrid_rate regular.slowest).natCast_mul _
  obtain ⟨nonneg, _⟩ := regular.share_bounds
  have below := regular.share_lt
  have fractNonneg := Int.fract_nonneg asked
  have fractLt := Int.fract_lt_one asked
  have product : double (numOutput * source.rate.value) = share source numOutput := by
    apply shareGrid.double_eq
    rw [abs_of_nonneg nonneg]
    linarith
  have sum : double (Int.fract asked + share source numOutput) =
      Int.fract asked + share source numOutput := by
    apply (grid.fract.add shareGrid).double_eq
    rw [abs_of_nonneg (by linarith)]
    linarith
  have wanted : wantedFrames double source renderer numOutput =
      paid (Int.fract asked) (share source numOutput) := by
    rw [wantedFrames, carry, product, sum, paid]
  refine ⟨wanted, ?_⟩
  have rest : double (leftOver (Int.fract asked) (share source numOutput)) =
      leftOver (Int.fract asked) (share source numOutput) := by
    apply ((grid.fract.add shareGrid).sub (onGrid_intCast _)).double_eq
    exact (FractionalCarry.abs_leftOver_le (by linarith)).trans (by norm_num)
  rw [← rest, leftOver, ← wanted, ← sum, ← product, ← carry]
  rfl

end Block

/-- A playback with its tempo balance since the last stretcher reset: the frames that the
rendered blocks asked for by their rates, and the frames that they pulled. -/
structure Metered where
  playback : Playback := {}
  -- The block size of the last preparation.
  prepared : ℕ := 0
  asked : ℚ := 0
  pulled : ℤ := 0

namespace Metered

variable (fl : ℚ → ℚ) (outputLatencyFrames : ℚ → ℕ) (metered : Metered)

/-- The balance starts afresh in a block that resets the stretcher. -/
def settle : Metered :=
  if metered.playback.source.forceStretcherReset then { metered with asked := 0, pulled := 0 }
  else metered

/-- The balance after a block of the source, if it was rendered. -/
def charge (rendered : Option Rendered) : Metered :=
  match rendered with
  | none => metered
  | some rendered =>
      { metered with
        asked := metered.asked + share metered.playback.source rendered.numOutput
        pulled := metered.pulled + rendered.pullFrames }

def step (event : PlaybackEvent) : Metered × Option Rendered :=
  let stepped := metered.playback.step fl outputLatencyFrames event
  match event with
  | .call _ => ({ metered with playback := stepped.1 }, stepped.2)
  | .prepareToPlay samplesPerBlockExpected _ =>
      ({ metered with playback := stepped.1, prepared := samplesPerBlockExpected }, stepped.2)
  | .block _ => ({ metered.settle.charge stepped.2 with playback := stepped.1 }, stepped.2)

end Metered

abbrev MeteredStep := Machine.Entry Metered PlaybackEvent (Option Rendered)

/-- A rendered block is no longer than the source was prepared for, and regular. -/
def Admitted (row : MeteredStep) : Prop :=
  ∀ rendered, row.output = some rendered →
    rendered.numOutput ≤ row.before.prepared ∧
      Regular row.before.playback.source rendered.numOutput

/-- The carry is a fraction, the scratch buffers hold every pull, and less than one frame is
owed or paid in advance. -/
structure NoDrift (row : MeteredStep) : Prop where
  nonneg : 0 ≤ row.after.playback.renderer.pullAccumulator
  fraction : row.after.playback.renderer.pullAccumulator < 1
  unclamped : ∀ rendered, row.output = some rendered → (rendered.pullFrames : ℤ) = rendered.wanted
  balanced : |(row.after.pulled : ℚ) - row.after.asked| < 1

/-- A rendered block completes a frame of the tempo: the whole frames asked for since the
last reset grow with it. -/
def CompletesFrame (row : MeteredStep) : Prop :=
  ∀ rendered, row.output = some rendered →
    ⌊row.before.settle.asked⌋ <
      ⌊row.before.settle.asked + share row.before.playback.source rendered.numOutput⌋

/-- All that was asked for in whole frames has been pulled, and the rest is carried. -/
structure Balanced (metered : Metered) : Prop where
  grid : OnGrid metered.asked
  carry : metered.playback.renderer.pullAccumulator = Int.fract metered.asked
  pulled : metered.pulled = ⌊metered.asked⌋
  capacity : metered.playback.renderer.capacityFrames = 0 ∨
    metered.playback.renderer.capacityFrames = max metered.prepared 512 * 4 + 4096

theorem balanced_initial : Balanced {} where
  grid := by exact_mod_cast onGrid_intCast 0
  carry := by simp
  pulled := by simp
  capacity := .inl rfl

theorem Balanced.bounds {metered : Metered} (balanced : Balanced metered) :
    0 ≤ metered.playback.renderer.pullAccumulator ∧
      metered.playback.renderer.pullAccumulator < 1 ∧
      |(metered.pulled : ℚ) - metered.asked| < 1 := by
  rw [balanced.carry, balanced.pulled, abs_sub_comm, ← Int.fract,
    abs_of_nonneg (Int.fract_nonneg _)]
  exact ⟨Int.fract_nonneg _, Int.fract_lt_one _, Int.fract_lt_one _⟩

section Step

variable {metered : Metered} {outputLatencyFrames : ℚ → ℕ}

/-- Taking the requests settles the balance. -/
theorem Balanced.afterRequests (balanced : Balanced metered) :
    Balanced { metered.settle with
      playback := metered.playback.afterRequests outputLatencyFrames } := by
  obtain ⟨grid, carry, pulled, capacity⟩ := balanced
  unfold Metered.settle Playback.afterRequests takeRequests
  cases metered.playback.source.forceStretcherReset with
  | false => exact ⟨grid, carry, pulled, capacity⟩
  | true => exact ⟨balanced_initial.grid, balanced_initial.carry, balanced_initial.pulled, capacity⟩

theorem settle_playback (metered : Metered) : metered.settle.playback = metered.playback := by
  unfold Metered.settle
  split <;> rfl

theorem settle_prepared (metered : Metered) : metered.settle.prepared = metered.prepared := by
  unfold Metered.settle
  split <;> rfl

/-- A block pulls at most twice its length and one frame more. -/
theorem pullFrames_eq_wanted {source : BufferPlaybackSource} {renderer : Renderer}
    {numOutput prepared : ℕ} {asked : ℚ} (regular : Regular source numOutput)
    (grid : OnGrid asked) (carry : renderer.pullAccumulator = Int.fract asked)
    (fits : numOutput ≤ prepared)
    (capacity : renderer.capacityFrames = max prepared 512 * 4 + 4096) :
    ((pullCount double source renderer numOutput).1 : ℤ) =
      wantedFrames double source renderer numOutput := by
  have wanted := (pullCount_exact regular grid carry).1
  have most : Int.fract asked + share source numOutput < 2 * numOutput + 1 := by
    linarith [regular.share_bounds.2, Int.fract_lt_one asked]
  have floor : ⌊Int.fract asked + share source numOutput⌋ < 2 * numOutput + 1 :=
    Int.floor_lt.mpr (by exact_mod_cast most)
  have bounds : 1 ≤ wantedFrames double source renderer numOutput ∧
      wantedFrames double source renderer numOutput ≤ 2 * numOutput + 1 := by
    rw [wanted]
    exact ⟨le_max_left _ _, max_le (by omega) (by omega)⟩
  change ((min (wantedFrames double source renderer numOutput).toNat renderer.capacityFrames : ℕ) : ℤ) =
    wantedFrames double source renderer numOutput
  omega

variable {taken : Playback} {numOutput : ℕ}

/-- A block that is not rendered leaves the balance as the requests left it. -/
theorem Balanced.step_silent (balanced : Balanced metered)
    (requests : metered.playback.afterRequests outputLatencyFrames = taken)
    (silent : metered.playback.step double outputLatencyFrames (.block numOutput) =
      (⟨haltIfSilent taken.source, taken.renderer⟩, none)) :
    Balanced (metered.step double outputLatencyFrames (.block numOutput)).1 := by
  subst requests
  have settled := @Balanced.afterRequests _ outputLatencyFrames balanced
  simp only [Metered.step, silent]
  exact ⟨settled.grid, settled.carry, settled.pulled, settled.capacity⟩

variable {audio : LoadedAudio} (balanced : Balanced metered)
  (requests : metered.playback.afterRequests outputLatencyFrames = taken)
  (heard : audible taken.source taken.renderer numOutput = some audio)
  (fits : numOutput ≤ metered.prepared) (regular : Regular metered.playback.source numOutput)
  (rendered : metered.playback.step double outputLatencyFrames (.block numOutput) =
    (⟨(renderBlock double taken.source taken.renderer audio numOutput).1,
      (renderBlock double taken.source taken.renderer audio numOutput).2⟩,
      some (report double taken.source taken.renderer audio numOutput)))

include balanced requests heard fits regular rendered

/-- What a rendered block leaves in the accumulator and takes from the source. -/
theorem step_rendered :
    let after := (metered.step double outputLatencyFrames (.block numOutput)).1
    let amount := share metered.playback.source numOutput
    let frames := (report double taken.source taken.renderer audio numOutput).pullFrames
    after.playback.renderer.pullAccumulator = leftOver (Int.fract metered.settle.asked) amount ∧
      after.asked = metered.settle.asked + amount ∧
      after.pulled = ⌊metered.settle.asked⌋ + frames ∧
      (frames : ℤ) = (report double taken.source taken.renderer audio numOutput).wanted ∧
      (frames : ℤ) = paid (Int.fract metered.settle.asked) amount := by
  subst requests
  have settled := @Balanced.afterRequests _ outputLatencyFrames balanced
  have capacity : (metered.playback.afterRequests outputLatencyFrames).renderer.capacityFrames =
      max metered.prepared 512 * 4 + 4096 := by
    have known := settled.capacity
    rw [settle_prepared] at known
    exact known.resolve_left (audible_some heard).2.2.2.2.1
  have same : Regular (metered.playback.afterRequests outputLatencyFrames).source numOutput :=
    ⟨regular.short, regular.slowest, regular.fastest⟩
  obtain ⟨wanted, carried⟩ := pullCount_exact same settled.grid settled.carry
  have unclamped := pullFrames_eq_wanted same settled.grid settled.carry fits capacity
  simp only [Metered.step, rendered, Metered.charge, settle_playback]
  refine ⟨carried, rfl, ?_, unclamped, unclamped.trans wanted⟩
  exact congrArg (· + _) settled.pulled

theorem Balanced.step_rendered
    (due : ⌊metered.settle.asked⌋ <
      ⌊metered.settle.asked + share metered.playback.source numOutput⌋) :
    Balanced (metered.step double outputLatencyFrames (.block numOutput)).1 := by
  obtain ⟨carried, asked, pulled, _, frames⟩ :=
    Engine.step_rendered balanced requests heard fits regular rendered
  have settled := @Balanced.afterRequests _ outputLatencyFrames balanced
  have shareGrid : OnGrid (share metered.playback.source numOutput) :=
    (onGrid_rate regular.slowest).natCast_mul _
  refine ⟨?_, ?_, ?_, ?_⟩
  · rw [asked]
    exact settled.grid.add shareGrid
  · rw [carried, asked, FractionalCarry.leftOver_fract due]
  · rw [pulled, asked, frames, FractionalCarry.paid_fract due]
    omega
  · subst requests
    simp only [Metered.step, rendered, Metered.charge]
    exact settled.capacity

theorem noDrift_rendered_iff :
    NoDrift (Machine.entry (Metered.step double outputLatencyFrames) metered (.block numOutput)) ↔
      ⌊metered.settle.asked⌋ <
        ⌊metered.settle.asked + share metered.playback.source numOutput⌋ := by
  obtain ⟨carried, asked, pulled, unclamped, frames⟩ :=
    Engine.step_rendered balanced requests heard fits regular rendered
  constructor
  · intro noDrift
    have nonneg := noDrift.nonneg
    change 0 ≤ (metered.step double outputLatencyFrames
      (.block numOutput)).1.playback.renderer.pullAccumulator at nonneg
    rw [carried] at nonneg
    exact (FractionalCarry.leftOver_fract_nonneg_iff regular.share_bounds.1).mp nonneg
  · intro due
    have after := balanced.step_rendered requests heard fits regular rendered due
    obtain ⟨nonneg, fraction, drift⟩ := after.bounds
    refine ⟨nonneg, fraction, ?_, drift⟩
    intro reported output
    have same : (metered.step double outputLatencyFrames (.block numOutput)).2 =
        some (report double taken.source taken.renderer audio numOutput) := by
      simp only [Metered.step, rendered]
    cases same.symm.trans output
    exact unclamped

omit balanced requests heard fits regular rendered

end Step

theorem noDrift_of_quiet {row : MeteredStep} (after : Balanced row.after)
    (quiet : row.output = none) : NoDrift row := by
  obtain ⟨nonneg, fraction, drift⟩ := after.bounds
  refine ⟨nonneg, fraction, ?_, drift⟩
  intro rendered output
  rw [quiet] at output
  cases output

theorem completesFrame_of_quiet {row : MeteredStep} (quiet : row.output = none) :
    CompletesFrame row := by
  intro rendered output
  rw [quiet] at output
  cases output

/-- In a balanced state a step shows no drift exactly if it completes the frame it has to, and
then it leaves a balanced state. -/
theorem Balanced.step {metered : Metered} (balanced : Balanced metered) (outputLatencyFrames : ℚ → ℕ)
    (event : PlaybackEvent)
    (admitted : Admitted
      (Machine.entry (Metered.step double outputLatencyFrames) metered event)) :
    (NoDrift (Machine.entry (Metered.step double outputLatencyFrames) metered event) ↔
      CompletesFrame (Machine.entry (Metered.step double outputLatencyFrames) metered event)) ∧
    (CompletesFrame (Machine.entry (Metered.step double outputLatencyFrames) metered event) →
      Balanced (metered.step double outputLatencyFrames event).1) := by
  have quietly (after : Balanced (metered.step double outputLatencyFrames event).1)
      (quiet : (metered.step double outputLatencyFrames event).2 = none) :
      (NoDrift (Machine.entry (Metered.step double outputLatencyFrames) metered event) ↔
        CompletesFrame (Machine.entry (Metered.step double outputLatencyFrames) metered event)) ∧
      (CompletesFrame (Machine.entry (Metered.step double outputLatencyFrames) metered event) →
        Balanced (metered.step double outputLatencyFrames event).1) :=
    ⟨iff_of_true (noDrift_of_quiet after quiet) (completesFrame_of_quiet quiet), fun _ => after⟩
  cases event with
  | call call =>
      exact quietly ⟨balanced.grid, balanced.carry, balanced.pulled, balanced.capacity⟩ rfl
  | prepareToPlay samplesPerBlockExpected sampleRate =>
      exact quietly ⟨balanced.grid, balanced.carry, balanced.pulled, .inr rfl⟩ rfl
  | block numOutput =>
      rcases metered.playback.step_block double outputLatencyFrames numOutput with
        ⟨audio, heard, rendered⟩ | ⟨_, silent⟩
      · have output : (metered.step double outputLatencyFrames (.block numOutput)).2 =
            some (report double (metered.playback.afterRequests outputLatencyFrames).source
              (metered.playback.afterRequests outputLatencyFrames).renderer audio numOutput) := by
          simp only [Metered.step, rendered]
        obtain ⟨fits, regular⟩ := admitted _ output
        have due : CompletesFrame (Machine.entry (Metered.step double outputLatencyFrames) metered
            (.block numOutput)) ↔
            ⌊metered.settle.asked⌋ <
              ⌊metered.settle.asked + share metered.playback.source numOutput⌋ := by
          constructor
          · exact fun completes => completes _ output
          · intro due reported same
            cases output.symm.trans same
            exact due
        rw [due]
        exact ⟨noDrift_rendered_iff balanced rfl heard fits regular rendered,
          balanced.step_rendered rfl heard fits regular rendered⟩
      · apply quietly (balanced.step_silent rfl silent)
        simp only [Metered.step, silent]

/-- The carry has no drift in a run exactly if every block that is rendered completes a frame. -/
theorem pullAccumulator_noDrift_iff (outputLatencyFrames : ℚ → ℕ) (events : List PlaybackEvent)
    (admitted : ∀ row ∈ Machine.trace (Metered.step double outputLatencyFrames) {} events,
      Admitted row) :
    (∀ row ∈ Machine.trace (Metered.step double outputLatencyFrames) {} events, NoDrift row) ↔
      ∀ row ∈ Machine.trace (Metered.step double outputLatencyFrames) {} events,
        CompletesFrame row := by
  refine Machine.trace_forall_iff_of _ Admitted Balanced NoDrift CompletesFrame ?_ ?_
    balanced_initial admitted
  · exact fun metered event admitted balanced =>
      (balanced.step outputLatencyFrames event admitted).1
  · intro metered event admitted balanced noDrift
    obtain ⟨exact, next⟩ := balanced.step outputLatencyFrames event admitted
    exact next (exact.mp noDrift)

section Runs

/-- A block of a track that has just been loaded, at one rate. -/
def firstBlock (rate : Client.Single) (numOutput : ℕ) : List PlaybackEvent :=
  [.prepareToPlay 512 44100, .call (.load (some (.silence 1024 44100))),
    .call (.setPlaybackRate rate), .call .play, .block numOutput]

theorem admitted_entry {metered : Metered} {outputLatencyFrames : ℚ → ℕ} {event : PlaybackEvent}
    (regular : ∀ numOutput, event = .block numOutput →
      numOutput ≤ metered.prepared ∧ Regular metered.playback.source numOutput) :
    Admitted (Machine.entry (Metered.step double outputLatencyFrames) metered event) := by
  intro rendered output
  cases event with
  | call call => cases output
  | prepareToPlay samplesPerBlockExpected sampleRate => cases output
  | block numOutput =>
      obtain ⟨audio, _, rfl⟩ := Option.map_eq_some_iff.mp output
      exact regular numOutput rfl

theorem admitted_firstBlock {rate : Client.Single} {numOutput : ℕ} (short : numOutput ≤ 512)
    (slowest : 1 / 2 ≤ rate.value) (fastest : rate.value ≤ 2) :
    ∀ row ∈ Machine.trace (Metered.step double 0) {} (firstBlock rate numOutput),
      Admitted row := by
  simp only [firstBlock, Machine.trace, List.forall_mem_cons]
  refine ⟨admitted_entry ?_, admitted_entry ?_, admitted_entry ?_, admitted_entry ?_,
    admitted_entry ?_, fun row none => absurd none (List.not_mem_nil)⟩
  · rintro _ ⟨⟩
  · rintro _ ⟨⟩
  · rintro _ ⟨⟩
  · rintro _ ⟨⟩
  · rintro _ ⟨⟩
    exact ⟨short, lt_of_le_of_lt short (by norm_num), slowest, fastest⟩

theorem pullAccumulator_noDrift_firstBlock :
    (∀ row ∈ Machine.trace (Metered.step double 0) {} (firstBlock (.ofDouble 1) 512),
        NoDrift row) ↔
      ∀ row ∈ Machine.trace (Metered.step double 0) {} (firstBlock (.ofDouble 1) 512),
        CompletesFrame row :=
  pullAccumulator_noDrift_iff 0 _
    (admitted_firstBlock (by decide) (by decide +kernel) (by decide +kernel))

/-- One frame at half the tempo completes no frame, and the accumulator goes below zero. -/
theorem pullAccumulator_drifts :
    ¬ ∀ events : List PlaybackEvent,
      (∀ row ∈ Machine.trace (Metered.step double 0) {} events, Admitted row) →
        ∀ row ∈ Machine.trace (Metered.step double 0) {} events, NoDrift row := by
  intro noDrift
  have slow : (Client.Single.ofDouble (1 / 2)).value = 1 / 2 := by decide +kernel
  have rows := noDrift (firstBlock (.ofDouble (1 / 2)) 1)
    (admitted_firstBlock (by decide) (by rw [slow]) (by rw [slow]; norm_num))
  have last := rows _ (List.getLast_mem (by simp [firstBlock, Machine.trace]))
  have below : ¬ 0 ≤ (Machine.run (Metered.step double 0) {}
      (firstBlock (.ofDouble (1 / 2)) 1)).playback.renderer.pullAccumulator := by
    decide +kernel
  exact below last.nonneg

end Runs

end DjApp.Engine
