import DjApp.Client.Types

/-! The field ranges of the protocol and the clamping of values already parsed. -/

set_option autoImplicit false

namespace DjApp.Client

namespace Ranges

def clamp (value low high : ℚ) : ℚ :=
  if value < low then low else if high < value then high else value

def positionSecondsMin : ℚ := 0
def positionSecondsMax : ℚ := 86400
def gainMin : Single := .ofDouble 0
def gainMax : Single := .ofDouble 2
def playbackRateMin : Single := .ofDouble (1 / 2)
def playbackRateMax : Single := .ofDouble 2
def pitchOffsetSemitonesMin : Single := .ofDouble (-12)
def pitchOffsetSemitonesMax : Single := .ofDouble 12
def loopSecondsMin : ℚ := 0
def loopSecondsMax : ℚ := 86400

end Ranges

def Single.clamp (value low high : Single) : Single :=
  if value.value < low.value then low else if high.value < value.value then high else value

open Ranges

def clampPosition (seconds : ℚ) : ℚ := Ranges.clamp seconds positionSecondsMin positionSecondsMax

def clampGain (gain : Single) : Single := gain.clamp gainMin gainMax

def clampRate (rate : Single) : Single := rate.clamp playbackRateMin playbackRateMax

def clampPitch (semitones : Single) : Single :=
  semitones.clamp pitchOffsetSemitonesMin pitchOffsetSemitonesMax

def LoopPoints.clamp (loop : LoopPoints) : LoopPoints where
  inSeconds := Ranges.clamp loop.inSeconds loopSecondsMin loopSecondsMax
  outSeconds := Ranges.clamp loop.outSeconds loopSecondsMin loopSecondsMax

/-- A loop that is not strictly ordered once clamped is no loop. -/
def clampLoop (loop : Option LoopPoints) : Option LoopPoints :=
  loop.bind fun points =>
    if points.clamp.outSeconds ≤ points.clamp.inSeconds then none else some points.clamp

def PlaybackState.clamp (state : PlaybackState) : PlaybackState :=
  { state with
    positionSeconds := clampPosition state.positionSeconds
    gain := clampGain state.gain
    playbackRate := clampRate state.playbackRate
    pitchOffsetSemitones := clampPitch state.pitchOffsetSemitones
    loop := clampLoop state.loop }

def StateDelta.clamp (delta : StateDelta) : StateDelta :=
  { delta with
    positionSeconds := delta.positionSeconds.map clampPosition
    gain := delta.gain.map clampGain
    playbackRate := delta.playbackRate.map clampRate
    pitchOffsetSemitones := delta.pitchOffsetSemitones.map clampPitch
    loop := delta.loop.map clampLoop }

end DjApp.Client
