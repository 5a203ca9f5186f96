import Mathlib.Tactic.Linarith
import DjApp.Server.Validate

/-! What the validators guarantee about everything they accept. -/

set_option autoImplicit false

namespace DjApp.Server

open Library

/-- A number within a range of the field reference. -/
def Range.Holds (range : Range) (value : ℚ) : Prop := range.min ≤ value ∧ value ≤ range.max

@[simp] theorem Range.contains_iff (range : Range) (value : ℚ) :
    range.contains value = true ↔ range.Holds value := by
  simp [Range.contains, Range.Holds]

structure Loop.Valid (loop : Loop) : Prop where
  start : 0 ≤ loop.inSeconds
  ordered : loop.inSeconds < loop.outSeconds
  stop : loop.outSeconds ≤ 86400

/-- Every field of the deck lies in the range of the field reference. -/
structure Deck.Valid (deck : Deck) : Prop where
  trackId : ∀ id, deck.trackId = some id → isValidTrackId id = true
  positionSeconds : FieldRange.positionSeconds.Holds deck.positionSeconds
  gain : FieldRange.gain.Holds deck.gain
  playbackRate : FieldRange.playbackRate.Holds deck.playbackRate
  pitchOffsetSemitones : FieldRange.pitchOffsetSemitones.Holds deck.pitchOffsetSemitones
  loop : ∀ loop, deck.loop = some loop → loop.Valid

/-- Every field that is present lies in its range, and a start says from where. -/
structure Changes.Valid (changes : Changes) : Prop where
  trackId : ∀ id, changes.trackId = some (some id) → isValidTrackId id = true
  positionSeconds : ∀ value, changes.positionSeconds = some value →
    FieldRange.positionSeconds.Holds value
  gain : ∀ value, changes.gain = some value → FieldRange.gain.Holds value
  playbackRate : ∀ value, changes.playbackRate = some value → FieldRange.playbackRate.Holds value
  pitchOffsetSemitones : ∀ value, changes.pitchOffsetSemitones = some value →
    FieldRange.pitchOffsetSemitones.Holds value
  loop : ∀ loop, changes.loop = some (some loop) → loop.Valid
  starts : changes.playing = some true → changes.positionSeconds ≠ none

/-- What every accepted name satisfies. -/
structure ValidName (name : JsString) : Prop where
  nonempty : 1 ≤ name.length
  bounded : name.length ≤ nameMaxLength
  printable : hasControlChars name = false
  wellFormed : Utf16.isWellFormed name = true

theorem defaultDeckState_valid : defaultDeckState.Valid where
  trackId := by simp [defaultDeckState]
  positionSeconds := by simp [defaultDeckState, FieldRange.positionSeconds, Range.Holds]
  gain := by norm_num [defaultDeckState, FieldRange.gain, Range.Holds]
  playbackRate := by norm_num [defaultDeckState, FieldRange.playbackRate, Range.Holds]
  pitchOffsetSemitones := by simp [defaultDeckState, FieldRange.pitchOffsetSemitones, Range.Holds]
  loop := by simp [defaultDeckState]

theorem validateNumericField_ok_iff {name : String} {range : Range} {value : JsValue} {x : ℚ} :
    validateNumericField name range value = .ok x ↔
      value = .num (.finite x) ∧ range.Holds x := by
  cases value with
  | num number =>
      cases number with
      | finite actual =>
          by_cases inside : range.contains actual = true
          · have holds := (range.contains_iff actual).mp inside
            simp only [validateNumericField, inside, ↓reduceIte, Except.ok.injEq, Json.num.injEq,
              JsNumber.finite.injEq]
            constructor
            · rintro rfl
              exact ⟨rfl, holds⟩
            · exact fun shape => shape.1
          · simp only [validateNumericField, inside, Bool.false_eq_true, ↓reduceIte, reduceCtorEq,
              Json.num.injEq, JsNumber.finite.injEq, false_iff, not_and]
            rintro rfl
            exact fun holds => inside ((range.contains_iff actual).mpr holds)
      | infinite | nan => simp [validateNumericField]
  | null | bool | str | arr | obj => simp [validateNumericField]

theorem validateTrackId_ok_valid {value : JsValue} {id : JsString}
    (accepted : validateTrackId value = .ok (some id)) : isValidTrackId id = true := by
  cases value with
  | str units =>
      by_cases valid : isValidTrackId units = true
      · simp only [validateTrackId, valid, ↓reduceIte, Except.ok.injEq, Option.some.injEq] at accepted
        exact accepted ▸ valid
      · simp [validateTrackId, valid] at accepted
  | null | bool | num | arr | obj => simp [validateTrackId] at accepted

theorem validateLoopBounds_ok_valid {bounds loop : Loop}
    (accepted : validateLoopBounds bounds = .ok (some loop)) : loop = bounds ∧ loop.Valid := by
  unfold validateLoopBounds at accepted
  split at accepted
  · cases accepted
  · split at accepted
    · rename_i inside ordered
      cases accepted
      simp only [Bool.not_eq_true', Bool.not_eq_false, Bool.and_eq_true, Range.contains_iff,
        FieldRange.loopSeconds, Range.Holds] at inside
      exact ⟨rfl, inside.1.1, ordered, inside.2.2⟩
    · cases accepted

theorem validateLoop_ok_valid {value : JsValue} {loop : Loop}
    (accepted : validateLoop value = .ok (some loop)) : loop.Valid := by
  cases value with
  | obj fields =>
      simp only [validateLoop] at accepted
      split at accepted
      · split at accepted
        · exact (validateLoopBounds_ok_valid accepted).2
        · cases accepted
      · cases accepted
  | null | bool | num | str | arr => simp [validateLoop] at accepted

theorem validateField_ok_some {Value : Type} {fields : Fields} {key : String}
    {validate : JsValue → Except String Value} {value : Value}
    (accepted : validateField fields key validate = .ok (some value)) :
    ∃ json, fields.lookup (js key) = some json ∧ validate json = .ok value := by
  unfold validateField at accepted
  cases found : fields.lookup (js key) with
  | none => simp [found] at accepted
  | some json =>
      refine ⟨json, rfl, ?_⟩
      cases checked : validate json with
      | error reason => simp [found, checked, Except.map] at accepted
      | ok actual =>
          simp only [found, checked, Except.map, Except.ok.injEq, Option.some.injEq] at accepted
          rw [accepted]

/-- The stages of a successful check of the fields of `changes`. -/
structure KnownChangesChecked (fields : Fields) (changes : Changes) : Prop where
  trackId : validateField fields "trackId" validateTrackId = .ok changes.trackId
  playing : validateField fields "playing" (validateBoolean "playing") = .ok changes.playing
  repeats : validateField fields "repeat" (validateBoolean "repeat") = .ok changes.repeats
  positionSeconds : validateField fields "positionSeconds"
    (validateNumericField "positionSeconds" FieldRange.positionSeconds) = .ok changes.positionSeconds
  gain : validateField fields "gain" (validateNumericField "gain" FieldRange.gain) =
    .ok changes.gain
  playbackRate : validateField fields "playbackRate"
    (validateNumericField "playbackRate" FieldRange.playbackRate) = .ok changes.playbackRate
  pitchOffsetSemitones : validateField fields "pitchOffsetSemitones"
    (validateNumericField "pitchOffsetSemitones" FieldRange.pitchOffsetSemitones) =
      .ok changes.pitchOffsetSemitones
  loop : validateField fields "loop" validateLoop = .ok changes.loop
  starts : ¬(changes.playing = some true ∧ changes.positionSeconds = none)

theorem validateKnownChanges_ok_iff {fields : Fields} {changes : Changes} :
    validateKnownChanges fields = .ok changes ↔ KnownChangesChecked fields changes := by
  unfold validateKnownChanges
  simp only [bind_eq_ok_iff]
  constructor
  · rintro ⟨trackId, trackIdOk, playing, playingOk, repeats, repeatsOk, positionSeconds,
      positionOk, gain, gainOk, playbackRate, rateOk, pitch, pitchOk, loop, loopOk, finished⟩
    split at finished
    · cases finished
    · rename_i starts
      cases finished
      exact ⟨trackIdOk, playingOk, repeatsOk, positionOk, gainOk, rateOk, pitchOk, loopOk, starts⟩
  · intro checked
    refine ⟨_, checked.trackId, _, checked.playing, _, checked.repeats, _, checked.positionSeconds,
      _, checked.gain, _, checked.playbackRate, _, checked.pitchOffsetSemitones, _, checked.loop, ?_⟩
    rw [if_neg checked.starts]

theorem KnownChangesChecked.valid {fields : Fields} {changes : Changes}
    (checked : KnownChangesChecked fields changes) : changes.Valid where
  trackId id present := by
    obtain ⟨_, _, accepted⟩ := validateField_ok_some (present ▸ checked.trackId)
    exact validateTrackId_ok_valid accepted
  positionSeconds value present := by
    obtain ⟨_, _, accepted⟩ := validateField_ok_some (present ▸ checked.positionSeconds)
    exact (validateNumericField_ok_iff.mp accepted).2
  gain value present := by
    obtain ⟨_, _, accepted⟩ := validateField_ok_some (present ▸ checked.gain)
    exact (validateNumericField_ok_iff.mp accepted).2
  playbackRate value present := by
    obtain ⟨_, _, accepted⟩ := validateField_ok_some (present ▸ checked.playbackRate)
    exact (validateNumericField_ok_iff.mp accepted).2
  pitchOffsetSemitones value present := by
    obtain ⟨_, _, accepted⟩ := validateField_ok_some (present ▸ checked.pitchOffsetSemitones)
    exact (validateNumericField_ok_iff.mp accepted).2
  loop loop present := by
    obtain ⟨_, _, accepted⟩ := validateField_ok_some (present ▸ checked.loop)
    exact validateLoop_ok_valid accepted
  starts playing absent := checked.starts ⟨playing, absent⟩

theorem validateChanges_ok_valid {value : JsValue} {changes : Changes}
    (accepted : validateChanges value = .ok changes) : changes.Valid := by
  cases value with
  | obj fields =>
      simp only [validateChanges] at accepted
      split at accepted
      · cases accepted
      · split at accepted
        · cases accepted
        · exact (validateKnownChanges_ok_iff.mp accepted).valid
  | null | bool | num | str | arr => simp [validateChanges] at accepted

theorem validateDelta_ok {msg : JsValue} {deck : DeckId} {changes : Changes}
    (accepted : validateDelta msg = .ok (deck, changes)) :
    typeField? msg = some (js "delta") ∧ ∃ value, validateChanges value = .ok changes := by
  cases msg with
  | obj fields =>
      simp only [validateDelta] at accepted
      split at accepted
      · rename_i type typeFound
        split at accepted
        · rename_i isDelta
          refine ⟨by simp [typeField?, typeFound, isDelta], ?_⟩
          split at accepted
          · split at accepted
            · split at accepted
              · obtain ⟨actual, checked, shape⟩ := bind_eq_ok_iff.mp accepted
                cases shape
                exact ⟨_, checked⟩
              · cases accepted
            · cases accepted
          · cases accepted
        · cases accepted
      · cases accepted
  | null | bool | num | str | arr => simp [validateDelta] at accepted

theorem validateDelta_ok_valid {msg : JsValue} {deck : DeckId} {changes : Changes}
    (accepted : validateDelta msg = .ok (deck, changes)) : changes.Valid := by
  obtain ⟨_, _, checked⟩ := validateDelta_ok accepted
  exact validateChanges_ok_valid checked

theorem validateEnvelope_ok {msg : JsValue} {type : MessageType}
    (accepted : validateEnvelope msg = .ok type) : typeField? msg = some (js type.text) := by
  cases msg with
  | obj fields =>
      simp only [validateEnvelope] at accepted
      split at accepted
      · rename_i units typeFound
        split at accepted
        · cases accepted
        · rename_i found
          have named := List.find?_some found
          split at accepted
          · cases accepted
          · cases accepted
            simp only [decide_eq_true_eq] at named
            simp [typeField?, typeFound, named]
      · cases accepted
  | null | bool | num | str | arr => simp [validateEnvelope] at accepted

theorem MessageType.text_injective : Function.Injective MessageType.text := by
  intro left right same
  cases left <;> cases right <;> first | rfl | simp [MessageType.text] at same

theorem validateHelloFields_ok {fields : Fields} {expected : Expected} {hello : Hello}
    (accepted : validateHelloFields fields expected = .ok hello) :
    ValidName hello.name ∧ hello.room = expected.roomCode ∧
      fields.lookup (js "name") = some (.str hello.name) ∧
      fields.lookup (js "room") = some (.str expected.roomCode) := by
  unfold validateHelloFields at accepted
  split at accepted
  · split at accepted
    · rename_i name room nameFound roomFound
      split at accepted
      · cases accepted
      · split at accepted
        · cases accepted
        · split at accepted
          · cases accepted
          · split at accepted
            · rename_i nameLength nameShape _ sameRoom
              cases accepted
              simp only [Bool.or_eq_true, decide_eq_true_eq, not_or, not_lt] at nameLength
              simp only [Bool.or_eq_true, Bool.not_eq_true', not_or, Bool.not_eq_true,
                Bool.not_eq_false] at nameShape
              exact ⟨⟨nameLength.1, nameLength.2, nameShape.1, nameShape.2⟩, sameRoom, nameFound,
                sameRoom ▸ roomFound⟩
            · cases accepted
    · cases accepted
  · cases accepted

/-- An accepted hello is of the expected version, and its fields are checked. -/
theorem validateHello_ok_checked {msg : JsValue} {expected : Expected} {hello : Hello}
    (accepted : validateHello msg expected = .ok hello) :
    ∃ fields, msg = .obj fields ∧ fields.lookup (js "type") = some (.str (js "hello")) ∧
      fields.lookup (js "protocolVersion") = some (.number expected.protocolVersion) ∧
      validateHelloFields fields expected = .ok hello := by
  cases msg with
  | obj fields =>
      simp only [validateHello] at accepted
      split at accepted
      · rename_i type typeFound
        split at accepted
        · rename_i isHello
          split at accepted
          · rename_i version versionFound
            split at accepted
            · rename_i sameVersion
              exact ⟨fields, rfl, isHello ▸ typeFound, sameVersion ▸ versionFound, accepted⟩
            · cases accepted
          · cases accepted
        · cases accepted
      · cases accepted
  | null | bool | num | str | arr => simp [validateHello] at accepted

/-- An accepted hello carries the expected version and room code. -/
theorem validateHello_ok_fields {msg : JsValue} {expected : Expected} {hello : Hello}
    (accepted : validateHello msg expected = .ok hello) :
    ∃ fields, msg = .obj fields ∧ fields.lookup (js "type") = some (.str (js "hello")) ∧
      fields.lookup (js "protocolVersion") = some (.number expected.protocolVersion) ∧
      fields.lookup (js "name") = some (.str hello.name) ∧
      fields.lookup (js "room") = some (.str expected.roomCode) := by
  obtain ⟨fields, shape, typed, version, checked⟩ := validateHello_ok_checked accepted
  obtain ⟨_, _, name, room⟩ := validateHelloFields_ok checked
  exact ⟨fields, shape, typed, version, name, room⟩

theorem validateHello_ok {msg : JsValue} {expected : Expected} {hello : Hello}
    (accepted : validateHello msg expected = .ok hello) :
    typeField? msg = some (js "hello") ∧ ValidName hello.name ∧
      hello.room = expected.roomCode := by
  obtain ⟨fields, rfl, typed, _, checked⟩ := validateHello_ok_checked accepted
  obtain ⟨named, room, _⟩ := validateHelloFields_ok checked
  exact ⟨by simp [typeField?, typed], named, room⟩

end DjApp.Server
