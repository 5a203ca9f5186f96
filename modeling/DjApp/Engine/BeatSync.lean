import Mathlib.Algebra.Order.Floor.Ring
import Mathlib.Algebra.Order.Archimedean.Real.Basic
import DjApp.Client.StateHistory
import DjApp.Engine.EngineAdapter

/-! The sync button: the rate and the position at which a deck beats with the other one, and
that, computed exactly, it goes on doing so. -/

set_option autoImplicit false

namespace DjApp.Engine

open Client

namespace BeatSync

section Phase

variable {K : Type} [Field K] [LinearOrder K] [FloorRing K]

/-- The quotient without its fraction, as an integer division has it. -/
def truncate (quotient : K) : ℤ := if 0 ≤ quotient then ⌊quotient⌋ else ⌈quotient⌉

/-- `std::fmod`: the remainder has the sign of the value. -/
def fmod (value modulus : K) : K := value - modulus * truncate (value / modulus)

def wrappedPhase (fl : K → K) (position firstBeatSeconds interval : K) : K :=
  let phase := fmod (fl (position - firstBeatSeconds)) interval
  if phase < 0 then fl (phase + interval) else phase

end Phase

structure Result where
  playbackRate : ℚ
  positionSeconds : ℚ
  deriving DecidableEq

section Arithmetic

-- `fl` rounds to a double and `narrow` to a float.
variable (fl narrow : ℚ → ℚ)

/-- Step 1: the other deck's audible tempo over this deck's own. -/
def matchedRate (thisGrid otherGrid : BeatGrid) (otherPlaybackRate : ℚ) : ℚ :=
  let effectiveOtherBpm := fl (otherGrid.bpm * otherPlaybackRate)
  let ratio := narrow (fl (effectiveOtherBpm / thisGrid.bpm))
  Ranges.clamp ratio Ranges.playbackRateMin.value Ranges.playbackRateMax.value

/-- Step 2: the position nudged to the other deck's phase the shorter way. -/
def nudgedPosition (thisGrid : BeatGrid) (thisCurrentPositionSeconds : ℚ) (otherGrid : BeatGrid)
    (otherCurrentPositionSeconds : ℚ) : ℚ :=
  let thisBeatInterval := fl (60 / thisGrid.bpm)
  let otherBeatInterval := fl (60 / otherGrid.bpm)
  let thisPhase := wrappedPhase fl thisCurrentPositionSeconds thisGrid.firstBeatSeconds
    thisBeatInterval
  let otherPhase := wrappedPhase fl otherCurrentPositionSeconds otherGrid.firstBeatSeconds
    otherBeatInterval
  let remainder := fmod (fl (fl (otherGrid.bpm / thisGrid.bpm) * otherPhase)) thisBeatInterval
  let targetThisPhase := if remainder < 0 then fl (remainder + thisBeatInterval) else remainder
  let delta := fl (targetThisPhase - thisPhase)
  let delta :=
    if fl (thisBeatInterval / 2) < delta then fl (delta - thisBeatInterval)
    else if delta < fl (-thisBeatInterval / 2) then fl (delta + thisBeatInterval)
    else delta
  fl (thisCurrentPositionSeconds + delta)

/-- A nudge out of a track whose duration is known is dropped. -/
def keptPosition (thisCurrentPositionSeconds nudged thisDurationSeconds : ℚ) : ℚ :=
  if 0 < thisDurationSeconds ∧ (nudged < 0 ∨ thisDurationSeconds < nudged) then
    thisCurrentPositionSeconds
  else nudged

def computeBeatSync (thisGrid : BeatGrid) (thisCurrentPositionSeconds : ℚ) (otherGrid : BeatGrid)
    (otherCurrentPositionSeconds otherPlaybackRate thisDurationSeconds : ℚ) : Option Result :=
  if thisGrid.bpm ≤ 0 ∨ otherGrid.bpm ≤ 0 then none
  else
    let targetPosition := keptPosition thisCurrentPositionSeconds
      (nudgedPosition fl thisGrid thisCurrentPositionSeconds otherGrid otherCurrentPositionSeconds)
      thisDurationSeconds
    some ⟨matchedRate fl narrow thisGrid otherGrid otherPlaybackRate, clampPosition targetPosition⟩

end Arithmetic

section Exact

variable {K : Type} [Field K] [LinearOrder K] [IsStrictOrderedRing K] [FloorRing K]

/-- The phase of a deck as a fraction of its own beat interval. -/
def phaseFraction (grid : BeatGrid) (position : K) : K :=
  Int.fract ((position - grid.firstBeatSeconds) / (60 / grid.bpm))

omit [IsStrictOrderedRing K] in
theorem fmod_eq_mul (value : K) {modulus : K} (positive : modulus ≠ 0) :
    fmod value modulus = modulus * (value / modulus - truncate (value / modulus)) := by
  rw [fmod, mul_sub, mul_div_cancel₀ value positive]

theorem wrappedPhase_eq (position first : K) {interval : K} (positive : 0 < interval) :
    wrappedPhase id position first interval =
      interval * Int.fract ((position - first) / interval) := by
  simp only [wrappedPhase, id_eq, fmod_eq_mul _ positive.ne']
  generalize (position - first) / interval = beats
  by_cases forward : 0 ≤ beats
  · have plain : beats - truncate beats = Int.fract beats := by
      rw [truncate, if_pos forward, Int.fract]
    have nonneg := mul_nonneg positive.le (Int.fract_nonneg beats)
    rw [plain, if_neg (not_lt.mpr nonneg)]
  · rw [truncate, if_neg forward]
    by_cases whole : (⌈beats⌉ : K) = beats
    · have zero : Int.fract beats = 0 := by
        rw [← whole, Int.fract_intCast]
      rw [whole, sub_self, mul_zero, if_neg (lt_irrefl _), zero, mul_zero]
    · have below : beats < ⌈beats⌉ := lt_of_le_of_ne (Int.le_ceil beats) (Ne.symm whole)
      have floor : ⌊beats⌋ = ⌈beats⌉ - 1 := by
        rw [Int.floor_eq_iff]
        push_cast
        exact ⟨by linarith [Int.ceil_lt_add_one beats], by linarith⟩
      have negative : interval * (beats - ⌈beats⌉) < 0 :=
        mul_neg_of_pos_of_neg positive (sub_neg.mpr below)
      rw [if_pos negative, Int.fract, floor]
      push_cast
      ring

end Exact

/-- A difference of two fractions, brought to the shorter way round. -/
def shorterWay (difference : ℚ) : ℚ :=
  if 1 / 2 < difference then difference - 1
  else if difference < -(1 / 2) then difference + 1
  else difference

theorem abs_shorterWay_le {left right : ℚ} :
    |shorterWay (Int.fract left - Int.fract right)| ≤ 1 / 2 := by
  have leftLow := Int.fract_nonneg left
  have leftHigh := Int.fract_lt_one left
  have rightLow := Int.fract_nonneg right
  have rightHigh := Int.fract_lt_one right
  rw [shorterWay, abs_le]
  split
  · constructor <;> linarith
  · split
    · constructor <;> linarith
    · constructor <;> linarith

theorem exists_shorterWay_eq (difference : ℚ) :
    ∃ turns : ℤ, shorterWay difference = difference + turns := by
  rw [shorterWay]
  split
  · exact ⟨-1, by push_cast; ring⟩
  · split
    · exact ⟨1, by push_cast; ring⟩
    · exact ⟨0, by push_cast; ring⟩

section Grids

def beats (grid : BeatGrid) (position : ℚ) : ℚ :=
  (position - grid.firstBeatSeconds) / (60 / grid.bpm)

variable {thisGrid otherGrid : BeatGrid} (thisDetected : 0 < thisGrid.bpm)
  (otherDetected : 0 < otherGrid.bpm) (position otherPosition : ℚ)

include thisDetected otherDetected

/-- Computed exactly, the nudge is the difference of the two phases in beats, the shorter way
round. The other deck's phase needs no scaling but that of its beat interval. -/
theorem nudgedPosition_eq :
    nudgedPosition id thisGrid position otherGrid otherPosition =
      position + 60 / thisGrid.bpm * shorterWay
        (Int.fract (beats otherGrid otherPosition) - Int.fract (beats thisGrid position)) := by
  have thisPositive : 0 < 60 / thisGrid.bpm := by positivity
  have otherPositive : 0 < 60 / otherGrid.bpm := by positivity
  simp only [nudgedPosition, id_eq, wrappedPhase_eq _ _ thisPositive,
    wrappedPhase_eq _ _ otherPositive]
  change _ = position + _ * shorterWay (Int.fract (beats otherGrid otherPosition) -
    Int.fract (beats thisGrid position))
  rw [show (otherPosition - otherGrid.firstBeatSeconds) / (60 / otherGrid.bpm) =
    beats otherGrid otherPosition from rfl, show (position - thisGrid.firstBeatSeconds) /
    (60 / thisGrid.bpm) = beats thisGrid position from rfl]
  generalize beats otherGrid otherPosition = other
  generalize beats thisGrid position = this
  have otherLow := Int.fract_nonneg other
  have otherHigh := Int.fract_lt_one other
  have scaled : otherGrid.bpm / thisGrid.bpm * (60 / otherGrid.bpm * Int.fract other) =
      60 / thisGrid.bpm * Int.fract other := by
    field_simp
  have remainder : fmod (60 / thisGrid.bpm * Int.fract other) (60 / thisGrid.bpm) =
      60 / thisGrid.bpm * Int.fract other := by
    have whole : truncate (Int.fract other) = 0 := by
      rw [truncate, if_pos otherLow, Int.floor_fract]
    rw [fmod, mul_div_cancel_left₀ _ thisPositive.ne', whole, Int.cast_zero, mul_zero, sub_zero]
  rw [scaled, remainder, if_neg (not_lt.mpr (mul_nonneg thisPositive.le otherLow)), ← mul_sub]
  generalize Int.fract other - Int.fract this = difference
  generalize 60 / thisGrid.bpm = interval at thisPositive ⊢
  have upper : interval / 2 < interval * difference ↔ 1 / 2 < difference := by
    rw [div_eq_mul_one_div, mul_lt_mul_iff_right₀ thisPositive]
  have lower : interval * difference < -interval / 2 ↔ difference < -(1 / 2) := by
    rw [show -interval / 2 = interval * -(1 / 2) by ring, mul_lt_mul_iff_right₀ thisPositive]
  rw [shorterWay]
  split
  · rename_i above
    rw [if_pos (upper.mp above)]
    ring
  · rename_i above
    rw [if_neg (mt upper.mpr above)]
    split
    · rename_i below
      rw [if_pos (lower.mp below)]
      ring
    · rename_i below
      rw [if_neg (mt lower.mpr below)]

/-- The nudged deck has as many beats as the other one, but for whole beats. -/
theorem exists_beats_nudgedPosition :
    ∃ turns : ℤ, beats thisGrid (nudgedPosition id thisGrid position otherGrid otherPosition) -
      beats otherGrid otherPosition = turns := by
  have positive : 60 / thisGrid.bpm ≠ 0 := by positivity
  obtain ⟨turns, way⟩ := exists_shorterWay_eq
    (Int.fract (beats otherGrid otherPosition) - Int.fract (beats thisGrid position))
  rw [nudgedPosition_eq thisDetected otherDetected, way]
  refine ⟨⌊beats thisGrid position⌋ - ⌊beats otherGrid otherPosition⌋ + turns, ?_⟩
  have split : beats thisGrid (position + 60 / thisGrid.bpm * (Int.fract
      (beats otherGrid otherPosition) - Int.fract (beats thisGrid position) + turns)) =
      beats thisGrid position + (Int.fract (beats otherGrid otherPosition) -
        Int.fract (beats thisGrid position) + turns) := by
    simp only [beats]
    rw [add_sub_right_comm, add_div, mul_div_cancel_left₀ _ positive]
  rw [split, Int.fract, Int.fract]
  push_cast
  ring

/-- A deck that beats with the other one is not nudged again. -/
theorem nudgedPosition_nudgedPosition :
    nudgedPosition id thisGrid (nudgedPosition id thisGrid position otherGrid otherPosition)
      otherGrid otherPosition = nudgedPosition id thisGrid position otherGrid otherPosition := by
  have same := Int.fract_eq_fract.mpr
    (exists_beats_nudgedPosition thisDetected otherDetected position otherPosition)
  generalize nudgedPosition id thisGrid position otherGrid otherPosition = nudged at same ⊢
  rw [nudgedPosition_eq thisDetected otherDetected, same, sub_self]
  norm_num [shorterWay]

/-- The move is at most half a beat of the nudged deck. -/
theorem abs_nudgedPosition_sub_le :
    |nudgedPosition id thisGrid position otherGrid otherPosition - position| ≤
      60 / thisGrid.bpm / 2 := by
  have positive : 0 < 60 / thisGrid.bpm := by positivity
  rw [nudgedPosition_eq thisDetected otherDetected, add_sub_cancel_left, abs_mul,
    abs_of_pos positive, div_eq_mul_one_div (60 / thisGrid.bpm) 2]
  exact mul_le_mul_of_nonneg_left abs_shorterWay_le positive.le

/-- Running at the matched rates, two decks keep the difference of their beats. -/
theorem phaseFraction_eq_of_beats {target otherStart : ℚ} {turns : ℤ}
    (aligned : beats thisGrid target - beats otherGrid otherStart = turns)
    (otherPlaybackRate : ℚ) (elapsed : ℝ) :
    phaseFraction thisGrid
        ((target : ℝ) + ((otherGrid.bpm * otherPlaybackRate / thisGrid.bpm : ℚ) : ℝ) * elapsed) =
      phaseFraction otherGrid ((otherStart : ℝ) + (otherPlaybackRate : ℝ) * elapsed) := by
  have thisReal : (0 : ℝ) < thisGrid.bpm := by exact_mod_cast thisDetected
  have otherReal : (0 : ℝ) < otherGrid.bpm := by exact_mod_cast otherDetected
  rw [phaseFraction, phaseFraction, Int.fract_eq_fract]
  refine ⟨turns, ?_⟩
  have cast : ((beats thisGrid target - beats otherGrid otherStart : ℚ) : ℝ) = (turns : ℝ) := by
    exact_mod_cast congrArg (fun value : ℚ => (value : ℝ)) aligned
  rw [← cast]
  simp only [beats]
  push_cast
  field_simp
  ring

end Grids

theorem matchedRate_eq {thisGrid otherGrid : BeatGrid} {otherPlaybackRate : ℚ}
    (within : 1 / 2 ≤ otherGrid.bpm * otherPlaybackRate / thisGrid.bpm ∧
      otherGrid.bpm * otherPlaybackRate / thisGrid.bpm ≤ 2) :
    matchedRate id id thisGrid otherGrid otherPlaybackRate =
      otherGrid.bpm * otherPlaybackRate / thisGrid.bpm :=
  Ranges.clamp_of_mem (playbackRate_bounds.1.le.trans within.1)
    (within.2.trans playbackRate_bounds.2.ge)

theorem computeBeatSync_eq {fl narrow : ℚ → ℚ} {thisGrid otherGrid : BeatGrid}
    (thisDetected : 0 < thisGrid.bpm) (otherDetected : 0 < otherGrid.bpm)
    (position otherPosition otherPlaybackRate thisDurationSeconds : ℚ) :
    computeBeatSync fl narrow thisGrid position otherGrid otherPosition otherPlaybackRate
      thisDurationSeconds = some ⟨matchedRate fl narrow thisGrid otherGrid otherPlaybackRate,
        clampPosition (keptPosition position
          (nudgedPosition fl thisGrid position otherGrid otherPosition) thisDurationSeconds)⟩ := by
  rw [computeBeatSync, if_neg]
  exact not_or.mpr ⟨not_le.mpr thisDetected, not_le.mpr otherDetected⟩

/-- Computed exactly, a sync moves the deck by half a beat at most, to a position where both
decks are at the same phase; they stay so for as long as they run at the returned and the other
deck's rate, and a second sync changes nothing. A nudge out of the track is dropped, and the
rate is matched all the same. -/
theorem beat_sync_aligns (thisGrid otherGrid : BeatGrid)
    (position otherPosition otherPlaybackRate thisDurationSeconds : ℚ)
    (thisDetected : 0 < thisGrid.bpm) (otherDetected : 0 < otherGrid.bpm)
    (here : 0 ≤ position ∧ position ≤ 86400) :
    let target := nudgedPosition id thisGrid position otherGrid otherPosition
    let rate := otherGrid.bpm * otherPlaybackRate / thisGrid.bpm
    (1 / 2 ≤ rate → rate ≤ 2 → 0 ≤ target → target ≤ 86400 →
      (0 < thisDurationSeconds → target ≤ thisDurationSeconds) →
        computeBeatSync id id thisGrid position otherGrid otherPosition otherPlaybackRate
            thisDurationSeconds = some ⟨rate, target⟩ ∧
          |target - position| ≤ 60 / thisGrid.bpm / 2 ∧
          (∀ elapsed : ℝ, 0 ≤ elapsed →
            phaseFraction thisGrid ((target : ℝ) + (rate : ℝ) * elapsed) =
              phaseFraction otherGrid
                ((otherPosition : ℝ) + (otherPlaybackRate : ℝ) * elapsed)) ∧
          computeBeatSync id id thisGrid target otherGrid otherPosition otherPlaybackRate
            thisDurationSeconds = some ⟨rate, target⟩) ∧
      (0 < thisDurationSeconds → target < 0 ∨ thisDurationSeconds < target →
        computeBeatSync id id thisGrid position otherGrid otherPosition otherPlaybackRate
            thisDurationSeconds =
          some ⟨matchedRate id id thisGrid otherGrid otherPlaybackRate, position⟩) := by
  intro target rate
  constructor
  · intro slow fast start stop inside
    have matched : matchedRate id id thisGrid otherGrid otherPlaybackRate = rate :=
      matchedRate_eq ⟨slow, fast⟩
    have kept (current : ℚ) : keptPosition current target thisDurationSeconds = target := by
      rw [keptPosition, if_neg]
      rintro ⟨known, before | after⟩
      · exact absurd before (not_lt.mpr start)
      · exact absurd after (not_lt.mpr (inside known))
    have clamped : clampPosition target = target := Ranges.clamp_of_mem start stop
    obtain ⟨turns, aligned⟩ :=
      exists_beats_nudgedPosition thisDetected otherDetected position otherPosition
    refine ⟨?_, abs_nudgedPosition_sub_le thisDetected otherDetected position otherPosition,
      fun elapsed _ => ?_, ?_⟩
    · rw [computeBeatSync_eq thisDetected otherDetected, kept, clamped, matched]
    · exact phaseFraction_eq_of_beats thisDetected otherDetected aligned otherPlaybackRate elapsed
    · rw [computeBeatSync_eq thisDetected otherDetected,
        nudgedPosition_nudgedPosition thisDetected otherDetected, kept, clamped, matched]
  · intro known outside
    have clamped : clampPosition position = position := Ranges.clamp_of_mem here.1 here.2
    rw [computeBeatSync_eq thisDetected otherDetected, keptPosition, if_pos ⟨known, outside⟩,
      clamped]

/-- Two decks at 120 and 130 beats a minute, both ten seconds in. -/
theorem beat_sync_aligns_differing :
    computeBeatSync id id ⟨120, 0⟩ 10 ⟨130, 0⟩ 10 1 0 = some ⟨13 / 12, 59 / 6⟩ ∧
      |(59 / 6 : ℚ) - 10| ≤ 60 / 120 / 2 := by
  have nudged : nudgedPosition id ⟨120, 0⟩ 10 ⟨130, 0⟩ 10 = 59 / 6 := by decide +kernel
  have rate : (130 : ℚ) * 1 / 120 = 13 / 12 := by norm_num
  have synced := (beat_sync_aligns ⟨120, 0⟩ ⟨130, 0⟩ 10 10 1 0 (by norm_num) (by norm_num)
    (by norm_num)).1
  simp only [nudged, rate] at synced
  have aligned := synced (by norm_num) (by norm_num) (by norm_num) (by norm_num) (by norm_num)
  exact ⟨aligned.1, aligned.2.1⟩

end BeatSync

end DjApp.Engine
