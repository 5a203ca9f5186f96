import DjApp.Engine.EngineAdapter
import DjApp.Library.Median
import Mathlib.Data.List.GetD

/-! The beat detector around the beat tracker: what the tracker is given of a track, and the
grid that is made of the beats it finds. -/

set_option autoImplicit false

namespace DjApp.Engine

open Library
open Library.BinaryRounding (binary64 double Representable)
open Library.Median (Misheard goodSteps within)
open Client (Single)

namespace QmDspBeatDetector

def frameLength : ℕ := 1024

def stepSize : ℕ := 512

/-- The detection function, with its memory of earlier windows, and the tempo tracker, which
finds beats in its values in units of a step. -/
structure BeatTracking where
  Memory : Type
  create : Memory
  processTimeDomain : Memory → List ℚ → Memory × ℚ
  calculateBeats : Single → List ℚ → List ℚ

/-- The channels are added up in order and scaled. -/
def mixToMonoDouble (audio : LoadedAudio) : List ℚ :=
  (List.range audio.numSamples).map fun i =>
    let sum := audio.channels.foldl (fun sum channel =>
      double (sum + (channel.getD i (.ofDouble 0)).value)) 0
    if audio.channels.isEmpty then sum else double (sum * double (1 / audio.channels.length))

/-- One window, padded with silence past the end of the track. -/
def windowAt (mono : List ℚ) (start : ℕ) : List ℚ :=
  (List.range frameLength).map fun i => mono.getD (start + i) 0

/-- The starts of the windows, one step after the other. -/
def startsFrom (numSamples start : ℕ) : List ℕ :=
  if start < numSamples then start :: startsFrom numSamples (start + stepSize) else []
termination_by numSamples - start
decreasing_by
  simp only [stepSize]
  omega

def detect (tracking : BeatTracking) : tracking.Memory → List (List ℚ) → List ℚ
  | _, [] => []
  | memory, window :: rest =>
      let processed := tracking.processTimeDomain memory window
      processed.2 :: detect tracking processed.1 rest

def detectionValues (tracking : BeatTracking) (audio : LoadedAudio) : List ℚ :=
  detect tracking tracking.create
    ((startsFrom audio.numSamples 0).map (windowAt (mixToMonoDouble audio)))

def beatsOf (tracking : BeatTracking) (audio : LoadedAudio) : List ℚ :=
  tracking.calculateBeats (.ofDouble audio.sampleRate) (detectionValues tracking audio)

def intervalSeconds (sampleRate earlier later : ℚ) : ℚ :=
  double (double (double (later - earlier) * stepSize) / sampleRate)

def intervalsSeconds (sampleRate : ℚ) : List ℚ → List ℚ
  | first :: second :: rest =>
      intervalSeconds sampleRate first second :: intervalsSeconds sampleRate (second :: rest)
  | [] | [_] => []

def medianInterBeatIntervalSeconds (beatsInSteps : List ℚ) (sampleRate : ℚ) : ℚ :=
  let sorted := (intervalsSeconds sampleRate beatsInSteps).mergeSort (· ≤ ·)
  let n := sorted.length
  if n % 2 = 1 then sorted.getD (n / 2) 0
  else double (1 / 2 * double (sorted.getD (n / 2 - 1) 0 + sorted.getD (n / 2) 0))

/-- Nothing is analysed of a track without samples, channels or a sample rate. -/
def analyze (tracking : BeatTracking) (audio : LoadedAudio) : BeatGrid :=
  if audio.sampleRate ≤ 0 ∨ audio.numSamples = 0 ∨ audio.channels = [] then {}
  else
    match beatsOf tracking audio with
    | first :: second :: rest =>
        let medianIbi := medianInterBeatIntervalSeconds (first :: second :: rest) audio.sampleRate
        { bpm := if 0 < medianIbi then double (60 / medianIbi) else 0
          firstBeatSeconds := double (double (first * stepSize) / audio.sampleRate) }
    | [] | [_] => {}

section Windows

variable (mono : List ℚ) (start : ℕ)

/-- The first half of a window is the next step of the track, or what is left of it. -/
theorem take_windowAt : (windowAt mono start).take stepSize =
    (mono.drop start).take stepSize ++
      List.replicate (stepSize - (mono.length - start)) 0 := by
  apply List.ext_getElem
  · simp only [windowAt, frameLength, stepSize, List.length_take, List.length_map,
      List.length_range, List.length_append, List.length_drop, List.length_replicate]
    omega
  · intro i inside _
    simp only [windowAt, List.getElem_take, List.getElem_map, List.getElem_range]
    by_cases present : start + i < mono.length
    · rw [List.getElem_append_left]
      · rw [List.getD_eq_getElem _ _ present, List.getElem_take, List.getElem_drop]
      · simp only [windowAt, frameLength, stepSize, List.length_take, List.length_map,
          List.length_range, List.length_drop] at inside ⊢
        omega
    · rw [List.getElem_append_right]
      · rw [List.getD_eq_default _ _ (not_lt.mp present), List.getElem_replicate]
      · simp only [List.length_take, List.length_drop]
        omega

/-- The first halves of the windows, one after the other, are the track and less than a step
of silence. -/
theorem windows_tile :
    ∃ silence < stepSize, ((startsFrom mono.length start).map (windowAt mono)).flatMap
        (·.take stepSize) = mono.drop start ++ List.replicate silence 0 := by
  induction start using startsFrom.induct mono.length with
  | case1 start before ih =>
      obtain ⟨silence, short, tiled⟩ := ih
      rw [startsFrom, if_pos before, List.map_cons, List.flatMap_cons, tiled, take_windowAt]
      rcases Nat.lt_or_ge (start + stepSize) mono.length with inside | last
      · have full : stepSize - (mono.length - start) = 0 := by omega
        refine ⟨silence, short, ?_⟩
        rw [full, List.replicate_zero, List.append_nil, ← List.append_assoc, ← List.drop_drop,
          List.take_append_drop]
      · have rest : mono.drop (start + stepSize) = [] := List.drop_eq_nil_of_le last
        have taken : (mono.drop start).take stepSize = mono.drop start :=
          List.take_of_length_le (by rw [List.length_drop]; omega)
        have ended : silence = 0 := by
          rw [startsFrom, if_neg (not_lt.mpr last), rest] at tiled
          exact (List.replicate_eq_nil_iff (0 : ℚ)).mp tiled.symm
        rw [rest, taken, ended, List.replicate_zero, List.append_nil, List.append_nil]
        exact ⟨_, by simp only [stepSize]; omega, rfl⟩
  | case2 start past =>
      rw [startsFrom, if_neg past, List.drop_eq_nil_of_le (not_lt.mp past)]
      exact ⟨0, by decide, rfl⟩

end Windows

section Median

/-- The mean of two doubles, as it is computed, lies between them. -/
theorem double_mean {left right : ℚ} (leftDouble : Representable binary64 left)
    (rightDouble : Representable binary64 right) (ordered : left ≤ right) :
    left ≤ double (1 / 2 * double (left + right)) ∧
      double (1 / 2 * double (left + right)) ≤ right := by
  have twice : ∀ value, Representable binary64 value → double (2 * value) = 2 * value := by
    rintro value ⟨significand, exponent, small, large, rfl⟩
    have doubled : Representable binary64 (2 * (significand * 2 ^ exponent)) :=
      ⟨significand, exponent + 1, small, large.trans (by omega), by
        rw [zpow_add_one₀ (by norm_num)]; ring⟩
    exact doubled.double_eq
  have low : 2 * left ≤ double (left + right) := by
    rw [← twice left leftDouble]
    exact BinaryRounding.double_mono (by linarith)
  have high : double (left + right) ≤ 2 * right := by
    rw [← twice right rightDouble]
    exact BinaryRounding.double_mono (by linarith)
  constructor
  · rw [← leftDouble.double_eq]
    exact BinaryRounding.double_mono (by rw [leftDouble.double_eq]; linarith)
  · rw [← rightDouble.double_eq]
    exact BinaryRounding.double_mono (by rw [rightDouble.double_eq]; linarith)

variable (sampleRate : ℚ) (beats : List ℚ) {low high : ℚ}

theorem length_intervalsSeconds :
    (intervalsSeconds sampleRate beats).length = beats.length - 1 := by
  induction beats with
  | nil => rfl
  | cons first rest ih =>
      cases rest with
      | nil => rfl
      | cons second rest =>
          rw [intervalsSeconds, List.length_cons, ih]
          simp only [List.length_cons]
          omega

theorem representable_intervalsSeconds :
    ∀ interval ∈ intervalsSeconds sampleRate beats, Representable binary64 interval := by
  induction beats with
  | nil => exact fun _ => nofun
  | cons first rest ih =>
      cases rest with
      | nil => exact fun _ => nofun
      | cons second rest =>
          rw [intervalsSeconds, List.forall_mem_cons]
          exact ⟨BinaryRounding.representable_double _, ih⟩

theorem countP_intervalsSeconds : (intervalsSeconds sampleRate beats).countP (within low high) =
    goodSteps (fun earlier later => within low high (intervalSeconds sampleRate earlier later))
      beats := by
  induction beats with
  | nil => rfl
  | cons first rest ih =>
      cases rest with
      | nil => rfl
      | cons second rest =>
          rw [intervalsSeconds, List.countP_cons, ih, goodSteps, Nat.add_comm]

variable {sampleRate beats}

/-- The median lies where most of the intervals do. -/
theorem median_within (some : 2 ≤ beats.length)
    (most : beats.length - 1 < 2 * goodSteps
      (fun earlier later => within low high (intervalSeconds sampleRate earlier later)) beats) :
    low ≤ medianInterBeatIntervalSeconds beats sampleRate ∧
      medianInterBeatIntervalSeconds beats sampleRate ≤ high := by
  let sorted := (intervalsSeconds sampleRate beats).mergeSort (· ≤ ·)
  have perm : sorted.Perm (intervalsSeconds sampleRate beats) := List.mergeSort_perm _ _
  have ordered : sorted.Pairwise (· ≤ ·) := List.pairwise_mergeSort' (· ≤ ·) _
  have size : sorted.length = beats.length - 1 :=
    perm.length_eq.trans (length_intervalsSeconds sampleRate beats)
  have majority : sorted.length < 2 * sorted.countP (within low high) := by
    rw [size, perm.countP_eq, countP_intervalsSeconds]
    exact most
  have doubles : ∀ index (present : index < sorted.length), Representable binary64 sorted[index] :=
    fun index present => representable_intervalsSeconds sampleRate beats _
      (perm.mem_iff.mp (List.getElem_mem present))
  have middle : ∀ index (present : index < sorted.length), 2 * index ≤ sorted.length →
      sorted.length ≤ 2 * (index + 1) → low ≤ sorted[index] ∧ sorted[index] ≤ high :=
    fun index present early late => Median.within_of_middle ordered present majority early late
  have unfolded : medianInterBeatIntervalSeconds beats sampleRate =
      if sorted.length % 2 = 1 then sorted.getD (sorted.length / 2) 0
      else double (1 / 2 * double (sorted.getD (sorted.length / 2 - 1) 0 +
        sorted.getD (sorted.length / 2) 0)) := rfl
  have last : sorted.length / 2 < sorted.length := by omega
  rw [unfolded, List.getD_eq_getElem _ _ last]
  split
  · exact middle _ last (by omega) (by omega)
  · have before : sorted.length / 2 - 1 < sorted.length := by omega
    rw [List.getD_eq_getElem _ _ before]
    have lower := middle _ before (by omega) (by omega)
    have upper := middle _ last (by omega) (by omega)
    have rising : sorted[sorted.length / 2 - 1] ≤ sorted[sorted.length / 2] :=
      List.pairwise_iff_getElem.mp ordered _ _ before last (by omega)
    obtain ⟨above, below⟩ := double_mean (doubles _ before) (doubles _ last) rising
    exact ⟨lower.1.trans above, below.trans upper.2⟩

end Median

/-- The tempo is that of the track's own beats, as long as the tracker makes fewer than one
error for every three of their intervals. -/
theorem detected_tempo_robust (tracking : BeatTracking) {audio : LoadedAudio}
    (playable : 0 < audio.sampleRate) (samples : audio.numSamples ≠ 0)
    (channels : audio.channels ≠ []) {low high : ℚ} (positive : 0 < low) {beats : List ℚ}
    (steady : beats.IsChain fun earlier later =>
      within low high (intervalSeconds audio.sampleRate earlier later) = true)
    {errors : ℕ} (misheard : Misheard errors beats (beatsOf tracking audio))
    (few : 3 * errors + 1 < beats.length) :
    double (60 / high) ≤ (analyze tracking audio).bpm ∧
      (analyze tracking audio).bpm ≤ double (60 / low) := by
  obtain ⟨most, some⟩ := misheard.most steady few
  obtain ⟨above, below⟩ := median_within some most
  have median : 0 < medianInterBeatIntervalSeconds (beatsOf tracking audio) audio.sampleRate :=
    positive.trans_le above
  have found : (analyze tracking audio).bpm = double (60 /
      medianInterBeatIntervalSeconds (beatsOf tracking audio) audio.sampleRate) := by
    unfold analyze
    rw [if_neg (by simp [playable, samples, channels])]
    cases heard : beatsOf tracking audio with
    | nil => simp [heard] at some
    | cons first rest =>
        cases rest with
        | nil => simp [heard] at some
        | cons second rest =>
            rw [heard] at median
            exact if_pos median
  rw [found]
  constructor
  · exact BinaryRounding.double_mono (div_le_div_of_nonneg_left (by norm_num) median below)
  · exact BinaryRounding.double_mono (div_le_div_of_nonneg_left (by norm_num) positive above)

/-- A tracker that hears one beat too many in every track. -/
def hasty : BeatTracking where
  Memory := Unit
  create := ()
  processTimeDomain := fun memory _ => (memory, 0)
  calculateBeats := fun _ _ => [0, 1, 2, 3, 7 / 2, 4]

/-- A beat each second, and one that is none. -/
theorem detected_tempo_robust_hasty : (analyze hasty (.silence 2560 512)).bpm = double 60 := by
  have heard : Misheard 1 [0, 1, 2, 3, 4] (beatsOf hasty (.silence 2560 512)) :=
    @Misheard.spurious _ 0 [0, 1, 2, 3, 4] [0, 1, 2, 3] [4] (7 / 2) (.faithful _)
  obtain ⟨above, below⟩ := @detected_tempo_robust hasty (.silence 2560 512)
    (by norm_num [LoadedAudio.silence]) (by decide) (by decide) 1 1 one_pos _ (by decide +kernel) 1
    heard (by decide)
  have same : (60 : ℚ) / 1 = 60 := by norm_num
  rw [same] at above below
  exact le_antisymm below above

end QmDspBeatDetector

end DjApp.Engine
