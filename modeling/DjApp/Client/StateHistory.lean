import DjApp.Client.SoundStates
import DjApp.Library.Machine

/-! What holds in every run of the state manager: its states stay in range, and what it
announces to its listeners is all they need to follow them. -/

set_option autoImplicit false

namespace DjApp.Client

open Library

section InRange

structure LoopPoints.InRange (points : LoopPoints) : Prop where
  start : 0 ≤ points.inSeconds
  ordered : points.inSeconds < points.outSeconds
  stop : points.outSeconds ≤ 86400

structure PlaybackState.InRange (state : PlaybackState) : Prop where
  positionSeconds : 0 ≤ state.positionSeconds ∧ state.positionSeconds ≤ 86400
  gain : 0 ≤ state.gain.value ∧ state.gain.value ≤ 2
  playbackRate : 1 / 2 ≤ state.playbackRate.value ∧ state.playbackRate.value ≤ 2
  pitchOffsetSemitones :
    -12 ≤ state.pitchOffsetSemitones.value ∧ state.pitchOffsetSemitones.value ≤ 12
  loop : ∀ points, state.loop = some points → points.InRange

/-- The same of the fields that a delta has. -/
structure StateDelta.InRange (delta : StateDelta) : Prop where
  positionSeconds : ∀ value, delta.positionSeconds = some value → 0 ≤ value ∧ value ≤ 86400
  gain : ∀ value, delta.gain = some value → 0 ≤ value.value ∧ value.value ≤ 2
  playbackRate : ∀ value, delta.playbackRate = some value →
    1 / 2 ≤ value.value ∧ value.value ≤ 2
  pitchOffsetSemitones : ∀ value, delta.pitchOffsetSemitones = some value →
    -12 ≤ value.value ∧ value.value ≤ 12
  loop : ∀ points, delta.loop = some (some points) → points.InRange

theorem Ranges.clamp_of_mem {value low high : ℚ} (above : low ≤ value) (below : value ≤ high) :
    Ranges.clamp value low high = value := by
  rw [Ranges.clamp, if_neg (not_lt.mpr above), if_neg (not_lt.mpr below)]

theorem Single.clamp_of_mem {value low high : Single} (above : low.value ≤ value.value)
    (below : value.value ≤ high.value) : value.clamp low high = value := by
  rw [Single.clamp, if_neg (not_lt.mpr above), if_neg (not_lt.mpr below)]

theorem gain_bounds : Ranges.gainMin.value = 0 ∧ Ranges.gainMax.value = 2 :=
  ⟨sharedRange_gain.low, sharedRange_gain.high⟩

theorem playbackRate_bounds :
    Ranges.playbackRateMin.value = 1 / 2 ∧ Ranges.playbackRateMax.value = 2 :=
  ⟨sharedRange_playbackRate.low, sharedRange_playbackRate.high⟩

theorem pitchOffsetSemitones_bounds :
    Ranges.pitchOffsetSemitonesMin.value = -12 ∧ Ranges.pitchOffsetSemitonesMax.value = 12 :=
  ⟨sharedRange_pitchOffsetSemitones.low, sharedRange_pitchOffsetSemitones.high⟩

theorem inRange_clamp (delta : StateDelta) : delta.clamp.InRange where
  positionSeconds value clamped := by
    obtain ⟨original, _, rfl⟩ := Option.map_eq_some_iff.mp clamped
    exact clampPosition_holds original
  gain value clamped := by
    obtain ⟨original, _, rfl⟩ := Option.map_eq_some_iff.mp clamped
    exact sharedRange_gain.holds_clamp (by norm_num [Server.FieldRange.gain]) original
  playbackRate value clamped := by
    obtain ⟨original, _, rfl⟩ := Option.map_eq_some_iff.mp clamped
    exact sharedRange_playbackRate.holds_clamp (by norm_num [Server.FieldRange.playbackRate])
      original
  pitchOffsetSemitones value clamped := by
    obtain ⟨original, _, rfl⟩ := Option.map_eq_some_iff.mp clamped
    exact sharedRange_pitchOffsetSemitones.holds_clamp
      (by norm_num [Server.FieldRange.pitchOffsetSemitones]) original
  loop points clamped := by
    obtain ⟨original, _, same⟩ := Option.map_eq_some_iff.mp clamped
    have valid := clampLoop_valid same
    exact ⟨valid.start, valid.ordered, valid.stop⟩

theorem LoopPoints.InRange.clampLoop {points : LoopPoints} (within : points.InRange) :
    clampLoop (some points) = some points := by
  have start := Ranges.clamp_of_mem within.start (within.ordered.le.trans within.stop)
  have stop := Ranges.clamp_of_mem (within.start.trans within.ordered.le) within.stop
  have same : points.clamp = points := by
    cases points
    exact congrArg₂ LoopPoints.mk start stop
  rw [Client.clampLoop, Option.bind_some, same, if_neg (not_le.mpr within.ordered)]

theorem map_eq_self_of_kept {Value : Type} {source : Option Value} {change : Value → Value}
    (kept : ∀ value, source = some value → change value = value) : source.map change = source := by
  cases source with
  | none => rfl
  | some value => exact congrArg some (kept value rfl)

/-- Clamping leaves a delta alone whose fields are in range. -/
theorem StateDelta.InRange.clamp_eq {delta : StateDelta} (within : delta.InRange) :
    delta.clamp = delta := by
  have position : delta.positionSeconds.map clampPosition = delta.positionSeconds :=
    map_eq_self_of_kept fun value present =>
      Ranges.clamp_of_mem (within.positionSeconds value present).1
        (within.positionSeconds value present).2
  have gain : delta.gain.map clampGain = delta.gain := map_eq_self_of_kept fun value present =>
    Single.clamp_of_mem (gain_bounds.1.le.trans (within.gain value present).1)
      ((within.gain value present).2.trans gain_bounds.2.ge)
  have rate : delta.playbackRate.map clampRate = delta.playbackRate :=
    map_eq_self_of_kept fun value present =>
      Single.clamp_of_mem (playbackRate_bounds.1.le.trans (within.playbackRate value present).1)
        ((within.playbackRate value present).2.trans playbackRate_bounds.2.ge)
  have pitch : delta.pitchOffsetSemitones.map clampPitch = delta.pitchOffsetSemitones :=
    map_eq_self_of_kept fun value present =>
      Single.clamp_of_mem
        (pitchOffsetSemitones_bounds.1.le.trans (within.pitchOffsetSemitones value present).1)
        ((within.pitchOffsetSemitones value present).2.trans pitchOffsetSemitones_bounds.2.ge)
  have loop : delta.loop.map clampLoop = delta.loop := map_eq_self_of_kept fun value present => by
    cases value with
    | none => rfl
    | some points => exact (within.loop points present).clampLoop
  rw [StateDelta.clamp, position, gain, rate, pitch, loop]

theorem inRange_default : PlaybackState.InRange {} := by
  have valid := sound_default
  exact ⟨valid.positionSeconds, valid.gain, valid.playbackRate, valid.pitchOffsetSemitones,
    fun _ none => by cases none⟩

theorem getD_holds {Value : Type} (holds : Value → Prop) {source : Option Value} {old : Value}
    (kept : holds old) (given : ∀ value, source = some value → holds value) :
    holds (source.getD old) := by
  cases source with
  | none => exact kept
  | some value => exact given value rfl

theorem PlaybackState.InRange.merge {state : PlaybackState} {delta : StateDelta}
    (stored : state.InRange) (within : delta.InRange) : (state.merge delta).InRange where
  positionSeconds := getD_holds (fun value : ℚ => 0 ≤ value ∧ value ≤ 86400)
    stored.positionSeconds within.positionSeconds
  gain := getD_holds (fun value : Single => 0 ≤ value.value ∧ value.value ≤ 2) stored.gain
    within.gain
  playbackRate := getD_holds (fun value : Single => 1 / 2 ≤ value.value ∧ value.value ≤ 2)
    stored.playbackRate within.playbackRate
  pitchOffsetSemitones := getD_holds (fun value : Single => -12 ≤ value.value ∧ value.value ≤ 12)
    stored.pitchOffsetSemitones within.pitchOffsetSemitones
  loop := getD_holds (fun loop : Option LoopPoints => ∀ points, loop = some points → points.InRange)
    stored.loop fun _ present points same => within.loop points (by rw [present, same])

theorem StateDelta.InRange.withPosition {delta : StateDelta} {state : PlaybackState}
    (within : delta.InRange) (stored : state.InRange) (source : DeltaSource) :
    (delta.withPosition source state).InRange := by
  unfold StateDelta.withPosition
  split
  · refine { within with positionSeconds := fun value present => ?_ }
    cases present
    exact stored.positionSeconds
  · exact within

end InRange

/-- The states with a delta laid over the one of its deck. -/
def StateDelta.onto (delta : StateDelta) (states : DeckId → PlaybackState) :
    DeckId → PlaybackState :=
  Function.update states delta.deck ((states delta.deck).merge delta)

/-- The states with deltas laid over them, one after the other. -/
def overlay (states : DeckId → PlaybackState) (deltas : List StateDelta) :
    DeckId → PlaybackState :=
  deltas.foldl (fun states delta => delta.onto states) states

/-- Two states differ at most in the fields of a delta. -/
structure PlaybackState.SameOutside (delta : StateDelta) (before after : PlaybackState) :
    Prop where
  trackId : delta.trackId = none → after.trackId = before.trackId
  playing : delta.playing = none → after.playing = before.playing
  positionSeconds : delta.positionSeconds = none → after.positionSeconds = before.positionSeconds
  gain : delta.gain = none → after.gain = before.gain
  playbackRate : delta.playbackRate = none → after.playbackRate = before.playbackRate
  pitchOffsetSemitones : delta.pitchOffsetSemitones = none →
    after.pitchOffsetSemitones = before.pitchOffsetSemitones
  loop : delta.loop = none → after.loop = before.loop
  repeats : delta.repeats = none → after.repeats = before.repeats

theorem sameOutside_merge (delta : StateDelta) (state : PlaybackState) :
    PlaybackState.SameOutside delta state (state.merge delta) := by
  constructor <;> intro absent <;> simp only [PlaybackState.merge, absent, Option.getD_none]

namespace StateManager

theorem applyDelta_of_empty {delta : StateDelta} (manager : StateManager) (source : DeltaSource)
    (empty : delta.empty = true) : manager.applyDelta delta source = (manager, none) := by
  rw [applyDelta, if_pos empty]

def call (manager : StateManager) (call : StateDelta × DeltaSource) :
    StateManager × Option Notification :=
  manager.applyDelta call.1 call.2

def InRange (manager : StateManager) : Prop := ∀ deck, (manager.getState deck).InRange

/-- A call that notifies its listeners changes the deck it names, in the fields it notifies. -/
structure Announces (row : Machine.Entry StateManager (StateDelta × DeltaSource)
    (Option Notification)) (notified : Notification) : Prop where
  deck : notified.applied.deck = row.input.1.deck
  source : notified.source = row.input.2
  newState : notified.newState = row.after.getState row.input.1.deck
  other : ∀ deck, deck ≠ row.input.1.deck → row.after.getState deck = row.before.getState deck
  fields : PlaybackState.SameOutside notified.applied (row.before.getState row.input.1.deck)
    (row.after.getState row.input.1.deck)
  position : notified.source = .own → notified.applied.playing = some true →
    notified.applied.positionSeconds.isSome = true
  clamped : notified.applied.clamp = notified.applied

variable {manager : StateManager}

theorem InRange.prepare (within : manager.InRange) (delta : StateDelta) (source : DeltaSource) :
    (manager.prepare delta source).InRange :=
  (inRange_clamp delta).withPosition (within delta.deck) source

theorem prepare_position (manager : StateManager) (delta : StateDelta)
    (starts : (manager.prepare delta .own).playing = some true) :
    (manager.prepare delta .own).positionSeconds.isSome = true := by
  unfold prepare StateDelta.withPosition at starts ⊢
  split
  · rfl
  · rename_i given
    rw [if_neg given] at starts
    have present : delta.clamp.positionSeconds ≠ none := fun none => given ⟨rfl, starts, none⟩
    exact Option.isSome_iff_ne_none.mpr present

theorem states_applyDelta {delta : StateDelta} (present : delta.empty = false)
    (source : DeltaSource) :
    (manager.applyDelta delta source).1.states =
      (manager.prepare delta source).onto manager.states := by
  simp only [applyDelta, present, Bool.false_eq_true, ↓reduceIte, StateDelta.onto, deck_prepare]
  rfl

theorem InRange.call (within : manager.InRange) (call : StateDelta × DeltaSource) :
    (manager.call call).1.InRange := by
  obtain ⟨delta, source⟩ := call
  cases present : delta.empty with
  | true =>
      simp only [StateManager.call, applyDelta_of_empty manager source present]
      exact within
  | false =>
      intro deck
      rw [getState, StateManager.call, states_applyDelta present, StateDelta.onto, deck_prepare]
      by_cases named : deck = delta.deck
      · rw [named, Function.update_self]
        exact (within delta.deck).merge (within.prepare delta source)
      · rw [Function.update_of_ne named]
        exact within deck

/-- What a call does: it drops an empty delta, and announces any other. -/
theorem InRange.announces (within : manager.InRange) (call : StateDelta × DeltaSource) :
    let row := Machine.entry StateManager.call manager call
    (row.output = none ∧ row.after = row.before) ∨
      ∃ notified, row.output = some notified ∧ Announces row notified ∧
        row.after.states = notified.applied.onto row.before.states := by
  obtain ⟨delta, source⟩ := call
  cases present : delta.empty with
  | true =>
      refine .inl ?_
      simp only [Machine.entry, StateManager.call, applyDelta_of_empty manager source present]
      exact ⟨trivial, trivial⟩
  | false =>
      have changed := @states_applyDelta manager _ present source
      refine .inr ⟨⟨manager.prepare delta source, (manager.getState delta.deck).merge
        (manager.prepare delta source), source⟩, ?_, ?_, changed⟩
      · simp only [Machine.entry, StateManager.call, applyDelta, present, Bool.false_eq_true,
          ↓reduceIte]
      · have stored : (manager.applyDelta delta source).1.getState delta.deck =
            (manager.getState delta.deck).merge (manager.prepare delta source) := by
          rw [getState, changed, StateDelta.onto, deck_prepare, Function.update_self]
          rfl
        constructor
        · exact deck_prepare manager delta source
        · rfl
        · exact stored.symm
        · intro deck (other : deck ≠ delta.deck)
          change (manager.applyDelta delta source).1.states deck = _
          rw [changed, StateDelta.onto, deck_prepare, Function.update_of_ne other]
          rfl
        · change PlaybackState.SameOutside _ (manager.getState delta.deck)
            ((manager.applyDelta delta source).1.getState delta.deck)
          rw [stored]
          exact sameOutside_merge _ _
        · intro own starts
          obtain rfl : source = .own := own
          exact prepare_position manager delta starts
        · exact (within.prepare delta source).clamp_eq

end StateManager

end DjApp.Client
