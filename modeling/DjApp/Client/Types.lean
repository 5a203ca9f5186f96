import DjApp.Library.BinaryRounding
import DjApp.Server.Protocol

/-! The playback state of one deck on the client and the deltas that change it. -/

set_option autoImplicit false

namespace DjApp.Client

open Library

/-- A finite `float`; `double` values are plain rationals. -/
structure Single where
  value : ℚ
  single : BinaryRounding.round BinaryRounding.binary32 value = value

namespace Single

@[ext] theorem ext {left right : Single} (same : left.value = right.value) : left = right := by
  cases left
  cases right
  cases same
  rfl

instance : DecidableEq Single := fun left right =>
  decidable_of_iff (left.value = right.value) ⟨ext, congrArg value⟩

/-- `static_cast<float>`. -/
def ofDouble (value : ℚ) : Single :=
  ⟨BinaryRounding.round BinaryRounding.binary32 value,
    BinaryRounding.round_round _ (by decide) value⟩

/-- Widening to `double` and narrowing again loses nothing. -/
@[simp] theorem ofDouble_value (value : Single) : ofDouble value.value = value :=
  ext value.single

theorem representable_value {value : ℚ}
    (representable : BinaryRounding.Representable BinaryRounding.binary32 value) :
    (ofDouble value).value = value :=
  representable.round_eq (by decide)

end Single

structure LoopPoints where
  inSeconds : ℚ
  outSeconds : ℚ
  deriving DecidableEq

/-- An empty `trackId` stands for no track. -/
structure PlaybackState where
  trackId : String := ""
  playing : Bool := false
  positionSeconds : ℚ := 0
  gain : Single := .ofDouble 1
  playbackRate : Single := .ofDouble 1
  pitchOffsetSemitones : Single := .ofDouble 0
  loop : Option LoopPoints := none
  repeats : Bool := true
  deriving DecidableEq

/-- An absent field is `none`; a present `loop` may be null. -/
structure StateDelta where
  deck : DeckId
  trackId : Option String := none
  playing : Option Bool := none
  positionSeconds : Option ℚ := none
  gain : Option Single := none
  playbackRate : Option Single := none
  pitchOffsetSemitones : Option Single := none
  loop : Option (Option LoopPoints) := none
  repeats : Option Bool := none
  deriving DecidableEq

def StateDelta.empty (delta : StateDelta) : Bool :=
  delta.trackId.isNone && delta.playing.isNone && delta.positionSeconds.isNone &&
    delta.gain.isNone && delta.playbackRate.isNone && delta.pitchOffsetSemitones.isNone &&
    delta.loop.isNone && delta.repeats.isNone

/-- Every field of a deck's state, for a resync that leaves nothing to chance. -/
def fullResyncDelta (deck : DeckId) (state : PlaybackState) : StateDelta where
  deck := deck
  trackId := some state.trackId
  playing := some state.playing
  positionSeconds := some state.positionSeconds
  gain := some state.gain
  playbackRate := some state.playbackRate
  pitchOffsetSemitones := some state.pitchOffsetSemitones
  loop := some state.loop
  repeats := some state.repeats

/-- The delta of `loadTrackToDeck`: a fresh load starts stopped at the beginning. -/
def loadTrackDelta (deck : DeckId) (trackId : String) : StateDelta where
  deck := deck
  trackId := some trackId
  playing := some false
  positionSeconds := some 0

end DjApp.Client
