import DjApp.Engine.LoopSlots

/-! Which commands of the message thread a concurrent block loses: a seek that is flagged while
the block hands over an older one, and a start that comes while the block is about to stop. -/

set_option autoImplicit false

namespace DjApp.Engine

open Library

/-- A block is in its seek hand-over, with the flag still raised. -/
def AudioPc.handsOver : AudioPc → Bool
  | .readPendingSeek | .storeSeek | .clearSeekPending => true
  | _ => false

/-- The two threads with what the message thread last asked of them. -/
structure Commanded (Buffer : Type) where
  threads : Threads Buffer := {}
  -- The position most recently requested, and whether a block has stored it.
  requested : ℚ := 0
  stored : Bool := true
  -- The last `setPlaying` was a start, and no block has started since.
  started : Bool := false

namespace Commanded

variable {Buffer : Type}

/-- What a turn adds to the requests and to what has become of them. -/
def record (commanded : Commanded Buffer) (turn : Turn Buffer) : Commanded Buffer :=
  let message := commanded.threads.message
  let audio := commanded.threads.audio
  match turn with
  | .call (.setPlaying shouldPlay) =>
      if message.pc = .idle then { commanded with started := shouldPlay } else commanded
  | .message =>
      if message.pc = .raiseSeekPending then
        -- The block that is about to clear the flag may have stored this very position.
        { commanded with
          requested := commanded.threads.memory.pendingSeekSamples
          stored := audio.pc = .clearSeekPending &&
            audio.seekSamples = commanded.threads.memory.pendingSeekSamples }
      else commanded
  | .block _ => if audio.pc = .idle then { commanded with started := false } else commanded
  | .audio =>
      if audio.pc = .storeSeek then
        { commanded with stored := commanded.stored || audio.seekSamples = commanded.requested }
      else commanded
  | _ => commanded

variable (decoded : Buffer → LoadedAudio) (fl : ℚ → ℚ) (outputLatencyFrames : ℚ → ℕ)

def step (commanded : Commanded Buffer) (turn : Turn Buffer) : Commanded Buffer × Unit :=
  ({ commanded.record turn with
    threads := (commanded.threads.step decoded fl outputLatencyFrames turn).1 }, ())

/-- The last requested position is flagged or has been stored, unless a newer one is just
being requested; and a start is not undone before the next block. -/
structure Obeyed (commanded : Commanded Buffer) : Prop where
  seek : commanded.threads.message.pc ≠ .raiseSeekPending →
    commanded.threads.memory.seekPending = true ∨ commanded.stored = true
  play : commanded.started = true → commanded.threads.memory.playing = true

/-- A block clears the flag of a newer request than the one it has loaded, or stops a source
that has been started since the block started. -/
def Loses (row : Machine.Entry (Commanded Buffer) (Turn Buffer) Unit) : Prop :=
  row.input = .audio ∧
    (row.before.threads.audio.pc = .clearSeekPending ∧
        row.before.threads.message.pc ≠ .raiseSeekPending ∧
        row.before.threads.audio.seekSamples ≠ row.before.requested ∨
      (row.before.threads.audio.pc = .storeSilent ∨ row.before.threads.audio.pc = .storeStopped) ∧
        row.before.started = true)

/-- What every step keeps, whatever it loses. -/
structure HandedOver (commanded : Commanded Buffer) : Prop where
  flagged : commanded.threads.audio.pc.handsOver = true →
    commanded.threads.memory.seekPending = true
  waiting : commanded.threads.memory.seekPending = true →
    commanded.threads.audio.pc ≠ .clearSeekPending → commanded.stored = false
  clearing : commanded.threads.audio.pc = .clearSeekPending →
    (commanded.stored = true ↔ commanded.threads.audio.seekSamples = commanded.requested)

theorem handedOver_initial : ({} : Commanded Buffer).HandedOver where
  flagged hands := by cases hands
  waiting raised := by cases raised
  clearing pc := by cases pc

theorem obeyed_initial : ({} : Commanded Buffer).Obeyed where
  seek _ := .inr rfl
  play started := by cases started

section Step

variable {decoded fl outputLatencyFrames} {commanded : Commanded Buffer}

/-- The start of a call raises no flag, and leaves the block in flight alone. -/
theorem call_frame (threads : Threads Buffer) (call : MessageCall Buffer) :
    (threads.call decoded call).audio = threads.audio ∧
      (threads.call decoded call).memory.seekPending = threads.memory.seekPending ∧
      (threads.message.pc = .idle →
        (threads.call decoded call).message.pc ≠ .raiseSeekPending) := by
  cases call with
  | load | setLoop => simp [Threads.call]
  | setPlaying | setPlaybackRate | setRepeat =>
      refine ⟨rfl, rfl, fun idle => ?_⟩
      simp [Threads.call, idle]
  | requestSeek seconds =>
      simp only [Threads.call]
      split
      · simp
      · simp

/-- An access of the message thread leaves the block in flight and `playing` alone. -/
theorem stepMessage_frame (threads : Threads Buffer) :
    (threads.stepMessage decoded).audio = threads.audio ∧
      (threads.stepMessage decoded).memory.playing = threads.memory.playing ∧
      (threads.message.pc ≠ .raiseSeekPending →
        (threads.stepMessage decoded).memory.seekPending = threads.memory.seekPending) ∧
      (threads.message.pc = .raiseSeekPending →
        (threads.stepMessage decoded).memory.seekPending = true) := by
  cases pc : threads.message.pc with
  | raiseSeekPending =>
      simp only [Threads.stepMessage, pc]
      exact ⟨trivial, trivial, fun other => absurd rfl other, fun _ => trivial⟩
  | idle | storeStretcherReset | storePendingSeek | readLoopSlot | writeActive | writeInSamples
  | writeOutSamples | publishLoopSlot | storeActiveBuffer | readGeneration
  | retireCurrentBuffer =>
      simp only [Threads.stepMessage, pc]
      simp

theorem HandedOver.congr {after : Commanded Buffer} (handed : commanded.HandedOver)
    (audio : after.threads.audio = commanded.threads.audio)
    (flag : after.threads.memory.seekPending = commanded.threads.memory.seekPending)
    (requested : after.requested = commanded.requested)
    (stored : after.stored = commanded.stored) : after.HandedOver := by
  obtain ⟨flagged, waiting, clearing⟩ := handed
  refine ⟨?_, ?_, ?_⟩
  · rw [audio, flag]
    exact flagged
  · rw [audio, flag, stored]
    exact waiting
  · rw [audio, stored, requested]
    exact clearing

/-- A block outside of the seek hand-over keeps it that way. -/
theorem HandedOver.of_audio {after : Commanded Buffer} (handed : commanded.HandedOver)
    (before : commanded.threads.audio.pc ≠ .clearSeekPending)
    (quiet : after.threads.audio.pc.handsOver = false)
    (flag : after.threads.memory.seekPending = commanded.threads.memory.seekPending)
    (stored : after.stored = commanded.stored) : after.HandedOver := by
  refine ⟨fun hands => ?_, fun raised _ => ?_, fun pc => ?_⟩
  · rw [quiet] at hands
    cases hands
  · rw [flag] at raised
    rw [stored]
    exact handed.waiting raised before
  · rw [pc] at quiet
    cases quiet

theorem HandedOver.stepMessage (handed : commanded.HandedOver) :
    (commanded.step decoded fl outputLatencyFrames .message).1.HandedOver := by
  obtain ⟨audio, _, kept, raised⟩ := @stepMessage_frame _ decoded commanded.threads
  by_cases raises : commanded.threads.message.pc = .raiseSeekPending
  · simp only [step, record, Threads.step, if_pos raises]
    refine ⟨fun _ => raised raises, fun _ other => ?_, fun pc => ?_⟩
    · rw [audio] at other
      simp [other]
    · rw [audio] at pc ⊢
      simp [pc]
  · simp only [step, record, Threads.step, if_neg raises]
    exact handed.congr audio (kept raises) rfl rfl

theorem HandedOver.stepAudio (handed : commanded.HandedOver) :
    (commanded.step decoded fl outputLatencyFrames .audio).1.HandedOver := by
  cases pc : commanded.threads.audio.pc with
  | idle =>
      simp only [step, record, Threads.step, Threads.stepAudio, pc, reduceCtorEq, ↓reduceIte]
      exact handed
  | readSeekPending =>
      simp only [step, record, Threads.step, Threads.stepAudio, pc, reduceCtorEq, ↓reduceIte]
      cases flag : commanded.threads.memory.seekPending with
      | false =>
          exact handed.of_audio (by simp [pc]) rfl rfl rfl
      | true =>
          refine ⟨fun _ => flag, fun _ _ => ?_, fun clears => by cases clears⟩
          exact handed.waiting flag (by simp [pc])
  | readPendingSeek =>
      simp only [step, record, Threads.step, Threads.stepAudio, pc, reduceCtorEq, ↓reduceIte]
      have flag := handed.flagged (by rw [pc]; rfl)
      have waits := handed.waiting flag (by simp [pc])
      exact ⟨fun _ => flag, fun _ _ => waits, fun clears => by cases clears⟩
  | storeSeek =>
      simp only [step, record, Threads.step, Threads.stepAudio, pc, ↓reduceIte]
      have flag := handed.flagged (by rw [pc]; rfl)
      have waits := handed.waiting flag (by simp [pc])
      refine ⟨fun _ => flag, fun _ other => absurd rfl other, fun _ => ?_⟩
      simp [waits]
  | clearSeekPending =>
      simp only [step, record, Threads.step, Threads.stepAudio, pc, reduceCtorEq, ↓reduceIte]
      constructor
      · intro hands
        cases hands
      · intro raised
        cases raised
      · intro clears
        cases clears
  | readActiveBuffer =>
      simp only [step, record, Threads.step, Threads.stepAudio, pc, reduceCtorEq, ↓reduceIte]
      split
      · exact handed.of_audio (by simp [pc]) rfl rfl rfl
      · exact handed.of_audio (by simp [pc]) rfl rfl rfl
  | readPlaying =>
      simp only [step, record, Threads.step, Threads.stepAudio, pc, reduceCtorEq, ↓reduceIte]
      split
      · exact handed.of_audio (by simp [pc]) rfl rfl rfl
      · exact handed.of_audio (by simp [pc]) rfl rfl rfl
  | readPosition =>
      simp only [step, record, Threads.step, Threads.stepAudio, pc, reduceCtorEq, ↓reduceIte]
      cases commanded.threads.audio.audio with
      | none => exact handed.of_audio (by simp [pc]) rfl rfl rfl
      | some buffer =>
          dsimp only
          split
          · exact handed.of_audio (by simp [pc]) rfl rfl rfl
          · exact handed.of_audio (by simp [pc]) rfl rfl rfl
  | exchangeStretcherReset | storeSilent | readRate | readRepeat | readLoopSlot | readActive
  | readInSamples | readOutSamples | storeStopped | storePosition =>
      simp only [step, record, Threads.step, Threads.stepAudio, pc, reduceCtorEq, ↓reduceIte]
      exact handed.of_audio (by simp [pc]) rfl rfl rfl

theorem HandedOver.step (handed : commanded.HandedOver) (turn : Turn Buffer) :
    (commanded.step decoded fl outputLatencyFrames turn).1.HandedOver := by
  cases turn with
  | call call =>
      obtain ⟨audio, flag, _⟩ := @call_frame _ decoded commanded.threads call
      by_cases idle : commanded.threads.message.pc = .idle
      · cases call with
        | setPlaying =>
            simp only [Commanded.step, record, Threads.step, if_pos idle]
            exact handed.congr audio flag rfl rfl
        | load | setPlaybackRate | setLoop | setRepeat | requestSeek =>
            simp only [Commanded.step, record, Threads.step, if_pos idle]
            exact handed.congr audio flag rfl rfl
      · cases call with
        | setPlaying =>
            simp only [Commanded.step, record, Threads.step, if_neg idle]
            exact handed
        | load | setPlaybackRate | setLoop | setRepeat | requestSeek =>
            simp only [Commanded.step, record, Threads.step, if_neg idle]
            exact handed
  | message => exact handed.stepMessage
  | prepareToPlay =>
      simp only [Commanded.step, record, Threads.step]
      split
      · exact ⟨handed.flagged, handed.waiting, handed.clearing⟩
      · exact handed
  | block numOutput =>
      by_cases idle : commanded.threads.audio.pc = .idle
      · simp only [Commanded.step, record, Threads.step, if_pos idle]
        exact handed.of_audio (by simp [idle]) rfl rfl rfl
      · simp only [Commanded.step, record, Threads.step, if_neg idle]
        exact handed
  | audio => exact handed.stepAudio

theorem Obeyed.call (obeyed : commanded.Obeyed) (call : MessageCall Buffer) :
    (commanded.step decoded fl outputLatencyFrames (.call call)).1.Obeyed := by
  obtain ⟨_, flag, next⟩ := @call_frame _ decoded commanded.threads call
  by_cases idle : commanded.threads.message.pc = .idle
  · have seek := obeyed.seek (by simp [idle])
    rw [← flag] at seek
    cases call with
    | setPlaying shouldPlay =>
        simp only [Commanded.step, record, Threads.step, if_pos idle]
        exact ⟨fun _ => seek, id⟩
    | requestSeek seconds =>
        simp only [Commanded.step, record, Threads.step, if_pos idle]
        refine ⟨fun _ => seek, fun started => ?_⟩
        simp only [Threads.call]
        exact obeyed.play started
    | load | setPlaybackRate | setLoop | setRepeat =>
        simp only [Commanded.step, record, Threads.step, if_pos idle]
        exact ⟨fun _ => seek, obeyed.play⟩
  · cases call with
    | setPlaying =>
        simp only [Commanded.step, record, Threads.step, if_neg idle]
        exact obeyed
    | load | setPlaybackRate | setLoop | setRepeat | requestSeek =>
        simp only [Commanded.step, record, Threads.step, if_neg idle]
        exact obeyed

theorem Obeyed.stepMessage (obeyed : commanded.Obeyed) :
    (commanded.step decoded fl outputLatencyFrames .message).1.Obeyed := by
  obtain ⟨_, playing, kept, raised⟩ := @stepMessage_frame _ decoded commanded.threads
  by_cases raises : commanded.threads.message.pc = .raiseSeekPending
  · simp only [Commanded.step, record, Threads.step, if_pos raises]
    refine ⟨fun _ => .inl (raised raises), fun started => ?_⟩
    rw [playing]
    exact obeyed.play started
  · have seek := obeyed.seek raises
    simp only [Commanded.step, record, Threads.step, if_neg raises]
    refine ⟨fun _ => ?_, fun started => ?_⟩
    · rw [kept raises]
      exact seek
    · rw [playing]
      exact obeyed.play started

/-- An access of the audio thread obeys the commands exactly if it loses none. -/
theorem Obeyed.stepAudio_iff (handed : commanded.HandedOver) (obeyed : commanded.Obeyed) :
    let row := Machine.entry (Commanded.step decoded fl outputLatencyFrames) commanded .audio
    row.after.Obeyed ↔ ¬ Loses row := by
  intro row
  have keeps : ∀ {after : Commanded Buffer},
      after.threads.message = commanded.threads.message →
      after.threads.memory.seekPending = commanded.threads.memory.seekPending →
      after.stored = commanded.stored → after.started = commanded.started →
      after.threads.memory.playing = commanded.threads.memory.playing → after.Obeyed := by
    intro after message flag stored started playing
    refine ⟨?_, ?_⟩
    · rw [message, flag, stored]
      exact obeyed.seek
    · rw [started, playing]
      exact obeyed.play
  have quiet (other : commanded.threads.audio.pc ≠ .clearSeekPending)
      (running : commanded.threads.audio.pc ≠ .storeSilent)
      (going : commanded.threads.audio.pc ≠ .storeStopped) : ¬ Loses row := by
    rintro ⟨_, ⟨pc, _⟩ | ⟨pc | pc, _⟩⟩
    · exact other pc
    · exact running pc
    · exact going pc
  cases pc : commanded.threads.audio.pc with
  | clearSeekPending =>
      have stored := handed.clearing pc
      have loses : Loses row ↔ commanded.threads.message.pc ≠ .raiseSeekPending ∧
          commanded.threads.audio.seekSamples ≠ commanded.requested := by
        constructor
        · rintro ⟨_, ⟨_, lost⟩ | ⟨other | other, _⟩⟩
          · exact lost
          · rw [show commanded.threads.audio.pc = .storeSilent from other] at pc
            cases pc
          · rw [show commanded.threads.audio.pc = .storeStopped from other] at pc
            cases pc
        · exact fun lost => ⟨rfl, .inl ⟨pc, lost⟩⟩
      rw [loses]
      simp only [row, Machine.entry, Commanded.step, record, Threads.step, Threads.stepAudio, pc,
        reduceCtorEq, ↓reduceIte]
      constructor
      · rintro after ⟨made, different⟩
        rcases after.seek made with flag | done
        · cases flag
        · exact different (stored.mp done)
      · intro kept
        refine ⟨fun made => .inr (stored.mpr ?_), obeyed.play⟩
        by_contra different
        exact kept ⟨made, different⟩
  | storeSilent | storeStopped =>
      have loses : Loses row ↔ commanded.started = true := by
        constructor
        · rintro ⟨_, ⟨other, _⟩ | ⟨_, lost⟩⟩
          · rw [show commanded.threads.audio.pc = .clearSeekPending from other] at pc
            cases pc
          · exact lost
        · exact fun lost => ⟨rfl, .inr ⟨by first | exact .inl pc | exact .inr pc, lost⟩⟩
      rw [loses]
      simp only [row, Machine.entry, Commanded.step, record, Threads.step, Threads.stepAudio, pc,
        reduceCtorEq, ↓reduceIte]
      constructor
      · intro after lost
        cases after.play lost
      · exact fun kept => ⟨obeyed.seek, fun lost => absurd lost kept⟩
  | storeSeek =>
      refine iff_of_true ?_ (quiet (by simp [pc]) (by simp [pc]) (by simp [pc]))
      simp only [row, Machine.entry, Commanded.step, record, Threads.step, Threads.stepAudio, pc,
        ↓reduceIte]
      refine ⟨fun made => ?_, obeyed.play⟩
      rcases obeyed.seek made with flag | done
      · exact .inl flag
      · exact .inr (by simp [done])
  | readSeekPending =>
      refine iff_of_true ?_ (quiet (by simp [pc]) (by simp [pc]) (by simp [pc]))
      simp only [row, Machine.entry, Commanded.step, record, Threads.step, Threads.stepAudio, pc,
        reduceCtorEq, ↓reduceIte]
      exact keeps rfl rfl rfl rfl rfl
  | readPlaying =>
      refine iff_of_true ?_ (quiet (by simp [pc]) (by simp [pc]) (by simp [pc]))
      simp only [row, Machine.entry, Commanded.step, record, Threads.step, Threads.stepAudio, pc,
        reduceCtorEq, ↓reduceIte]
      split
      · exact keeps rfl rfl rfl rfl rfl
      · exact keeps rfl rfl rfl rfl rfl
  | readPosition =>
      refine iff_of_true ?_ (quiet (by simp [pc]) (by simp [pc]) (by simp [pc]))
      simp only [row, Machine.entry, Commanded.step, record, Threads.step, Threads.stepAudio, pc,
        reduceCtorEq, ↓reduceIte]
      cases commanded.threads.audio.audio with
      | none => exact keeps rfl rfl rfl rfl rfl
      | some buffer => exact keeps rfl rfl rfl rfl rfl
  | idle | exchangeStretcherReset | readPendingSeek | readActiveBuffer | readRate | readRepeat
  | readLoopSlot | readActive | readInSamples | readOutSamples | storePosition =>
      refine iff_of_true ?_ (quiet (by simp [pc]) (by simp [pc]) (by simp [pc]))
      simp only [row, Machine.entry, Commanded.step, record, Threads.step, Threads.stepAudio, pc,
        reduceCtorEq, ↓reduceIte]
      exact keeps rfl rfl rfl rfl rfl

end Step

/-- In a run of the two threads every requested position is flagged until a block stores it,
and every start lasts until the next block, if and only if no block clears the flag of a newer
request or stops a source that has been started meanwhile. -/
theorem obeyed_iff (decoded : Buffer → LoadedAudio) (fl : ℚ → ℚ) (outputLatencyFrames : ℚ → ℕ)
    (turns : List (Turn Buffer)) :
    (∀ row ∈ Machine.trace (step decoded fl outputLatencyFrames) {} turns, row.after.Obeyed) ↔
      ∀ row ∈ Machine.trace (step decoded fl outputLatencyFrames) {} turns, ¬ Loses row := by
  refine Machine.trace_forall_iff (step decoded fl outputLatencyFrames) (fun _ => True)
    (fun commanded => commanded.HandedOver ∧ commanded.Obeyed) _ _ ?_ ?_
    ⟨handedOver_initial, obeyed_initial⟩ fun _ _ => trivial
  · intro commanded turn _ holds
    obtain ⟨handed, obeyed⟩ := holds
    cases turn with
    | audio => exact obeyed.stepAudio_iff handed
    | call call => exact iff_of_true (obeyed.call call) fun loses => by cases loses.1
    | message => exact iff_of_true obeyed.stepMessage fun loses => by cases loses.1
    | prepareToPlay =>
        refine iff_of_true ?_ fun loses => by cases loses.1
        simp only [Machine.entry, step, record, Threads.step]
        split
        · exact ⟨obeyed.seek, obeyed.play⟩
        · exact obeyed
    | block numOutput =>
        refine iff_of_true ?_ fun loses => by cases loses.1
        by_cases idle : commanded.threads.audio.pc = .idle
        · simp only [Machine.entry, step, record, Threads.step, if_pos idle]
          exact ⟨obeyed.seek, fun started => by cases started⟩
        · simp only [Machine.entry, step, record, Threads.step, if_neg idle]
          exact obeyed
  · intro commanded turn _ holds after
    exact ⟨holds.1.step turn, after⟩

section Examples

open Threads (loadTen tenSamples)

/-- A block that hands over the 0 of a load, while a seek to half a second is requested. -/
def seekDuringHandOver : List (Turn Unit) :=
  loadTen ++ .block 512 :: List.replicate 3 .audio ++
    .call (.requestSeek (1 / 2)) :: List.replicate 2 .message ++ List.replicate 2 .audio

/-- A block that has found no track, while one is loaded and started. -/
def startDuringSilence : List (Turn Unit) :=
  .block 512 :: List.replicate 3 .audio ++ loadTen ++ [.call (.setPlaying true), .audio]

/-- The first block clears the flag of a seek it has not stored, and the second one stops a
source that was started after the block. -/
theorem commands_lost :
    (¬ ∀ (decoded : Unit → LoadedAudio) (fl : ℚ → ℚ) (outputLatencyFrames : ℚ → ℕ)
        (turns : List (Turn Unit)),
      let after := Machine.run (step decoded fl outputLatencyFrames) {} turns
      after.threads.message.pc ≠ .raiseSeekPending →
        after.threads.memory.seekPending = true ∨ after.stored = true) ∧
    ¬ ∀ (decoded : Unit → LoadedAudio) (fl : ℚ → ℚ) (outputLatencyFrames : ℚ → ℕ)
        (turns : List (Turn Unit)),
      let after := Machine.run (step decoded fl outputLatencyFrames) {} turns
      after.started = true → after.threads.memory.playing = true := by
  constructor
  · intro kept
    have sought := kept tenSamples id 0 seekDuringHandOver (by decide +kernel)
    let after := Machine.run (step tenSamples id 0) {} seekDuringHandOver
    have lost : ¬ (after.threads.memory.seekPending = true ∨ after.stored = true) := by
      decide +kernel
    exact lost sought
  · intro kept
    have plays := kept tenSamples id 0 startDuringSilence (by decide +kernel)
    have stopped : (Machine.run (step tenSamples id 0) {}
        startDuringSilence).threads.memory.playing = false := by decide +kernel
    rw [stopped] at plays
    cases plays

end Examples

end Commanded

end DjApp.Engine
