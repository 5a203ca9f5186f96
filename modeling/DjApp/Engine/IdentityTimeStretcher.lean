import DjApp.Engine.PullHead

/-! The samples of a block through the stretcher that stretches nothing: at the track's own
rate the output is the pulled frames themselves, however it is divided into blocks. -/

set_option autoImplicit false

namespace DjApp

namespace Client.Single

def zero : Single := .ofDouble 0

def add (left right : Single) : Single := .ofDouble (left.value + right.value)

def sub (left right : Single) : Single := .ofDouble (left.value - right.value)

def mul (left right : Single) : Single := .ofDouble (left.value * right.value)

def mix (first second frac : Single) : Single := first.add (frac.mul (second.sub first))

@[simp] theorem zero_value : zero.value = 0 :=
  representable_value ⟨0, 0, by decide, by decide, by norm_num⟩

@[simp] theorem zero_mul (right : Single) : zero.mul right = zero := by
  rw [mul, zero_value, MulZeroClass.zero_mul]
  rfl

@[simp] theorem add_zero (left : Single) : left.add zero = left := by
  rw [add, zero_value, AddMonoid.add_zero, ofDouble_value]

@[simp] theorem mix_zero (first second : Single) : first.mix second zero = first := by
  rw [mix, zero_mul, add_zero]

end Client.Single

namespace Engine

open Client (Single)
open Library

section Samples

def interpolate (channel : List Single) (position : ℚ) : Single :=
  let index0 := ⌊position⌋.toNat
  let frac := Single.ofDouble (position - index0)
  (channel.getD index0 .zero).mix (channel.getD (index0 + 1) .zero) frac

/-- The channel of the track that one of the two rendered channels reads. -/
def sourceChannel (audio : LoadedAudio) (ch : ℕ) : List Single :=
  let numSourceChannels := audio.channels.length
  audio.channels.getD (if numSourceChannels = 1 then 0 else min ch (numSourceChannels - 1)) []

/-- The samples of the pulled frames, with silence from where the pull ran dry. -/
def pullScratch (audio : LoadedAudio) (ch : ℕ) (frames : List ℚ) (pullFrames : ℕ) : List Single :=
  frames.map (interpolate (sourceChannel audio ch)) ++
    List.replicate (pullFrames - frames.length) .zero

end Samples

section Stretching

variable (fl : ℚ → ℚ)

/-- What `process` writes to one channel. -/
def resample (readPos : ℚ) (input : List Single) (numOutput : ℕ) : List Single :=
  let numInput := input.length
  let stepSize := fl (numInput / numOutput)
  (List.range numOutput).map fun o : ℕ =>
    let pos := fl (readPos + fl (o * stepSize))
    let index0 := (max 0 (min ⌊pos⌋ (numInput - 1 : ℤ))).toNat
    let index1 := min (index0 + 1) (numInput - 1)
    (input.getD index0 .zero).mix (input.getD index1 .zero) (.ofDouble (fl (pos - ⌊pos⌋)))

/-- Where `process` leaves the read pointer. -/
def rebase (readPos : ℚ) (numInput numOutput : ℕ) : ℚ :=
  fl (fl (readPos + fl (numOutput * fl (numInput / numOutput))) - numInput)

theorem resample_same (input : List Single) : resample id 0 input input.length = input := by
  apply List.ext_getElem (by simp [resample])
  intro index low high
  have nonempty : (input.length : ℚ) ≠ 0 := by
    exact_mod_cast (Nat.zero_lt_of_lt high).ne'
  have whole : (0 : ℚ) + index * ((input.length : ℚ) / input.length) = (index : ℤ) := by
    rw [div_self nonempty]
    simp
  have place : (max 0 (min (index : ℤ) (input.length - 1 : ℤ))).toNat = index := by omega
  simp only [resample, id_eq, List.getElem_map, List.getElem_range, whole, Int.floor_intCast,
    sub_self, place]
  rw [show Single.ofDouble 0 = .zero from rfl, Single.mix_zero,
    List.getD_eq_getElem?_getD, List.getElem?_eq_getElem high, Option.getD_some]

theorem rebase_same {count : ℕ} (some : count ≠ 0) : rebase id 0 count count = 0 := by
  have nonempty : (count : ℚ) ≠ 0 := by exact_mod_cast some
  simp [rebase, div_self nonempty]

end Stretching

/-- A playback source whose stretcher is the identity, without latency. -/
structure IdentityDeck where
  playback : Playback := {}
  readPos : ℚ := 0

namespace IdentityDeck

variable (fl : ℚ → ℚ) (deck : IdentityDeck)

/-- A block writes the stretched frames to the first two channels of its destination, and
silence to all channels if it is not rendered. -/
def written (numOutput : ℕ) (rendered : Option Rendered) (ch : ℕ) : List Single :=
  let taken := deck.playback.afterRequests 0
  let readPos := if deck.playback.source.forceStretcherReset then 0 else deck.readPos
  match rendered, taken.source.activeBuffer with
  | some rendered, some audio =>
      if ch < 2 then
        (resample fl readPos (pullScratch audio ch rendered.pulled.frames rendered.pullFrames)
          numOutput).map (·.mul taken.source.gain)
      else List.replicate numOutput .zero
  | _, _ => List.replicate numOutput .zero

def step (event : PlaybackEvent) : IdentityDeck × (ℕ → List Single) :=
  let stepped := deck.playback.step fl 0 event
  match event with
  | .block numOutput =>
      let readPos := if deck.playback.source.forceStretcherReset then 0 else deck.readPos
      (⟨stepped.1, stepped.2.elim readPos fun rendered =>
          rebase fl readPos rendered.pullFrames numOutput⟩,
        deck.written fl numOutput stepped.2)
  | _ => ({ deck with playback := stepped.1 }, fun _ => [])

/-- What the blocks of a run write to one channel. -/
def output (deck : IdentityDeck) (events : List PlaybackEvent) (ch : ℕ) : List Single :=
  (Machine.trace (step fl) deck events).flatMap fun row => row.output ch

end IdentityDeck

end Engine

end DjApp
