import DjApp.Engine.Interleaving
import DjApp.Library.Machine

/-! Epoch reclaim: no interleaving of loads with blocks frees a buffer that a block has read.
A buffer that is replaced while a block uses it carries the generation of that block, and the
counter stands still until the block returns. -/

set_option autoImplicit false

namespace DjApp.Engine

open Library

/-- The load that runs has published its buffer and still holds it. -/
def MessagePc.published : MessagePc → Bool
  | .readGeneration | .retireCurrentBuffer => true
  | _ => false

namespace Threads

variable {Buffer : Type} {decoded : Buffer → LoadedAudio} {fl : ℚ → ℚ} {outputLatencyFrames : ℚ → ℕ}
  {threads : Threads Buffer} {buffer : Buffer}

/-- The load that runs holds this buffer, which it has published. -/
def HeldByLoad (threads : Threads Buffer) (buffer : Buffer) : Prop :=
  threads.message.pc.published = true ∧ threads.message.audio = some buffer

/-- Some shared pointer keeps the buffer alive. -/
def Owned (threads : Threads Buffer) (buffer : Buffer) : Prop :=
  threads.message.messageThreadCurrentBuffer = some buffer ∨
    (∃ generation, (generation, buffer) ∈ threads.message.retireList) ∨
    threads.HeldByLoad buffer

/-- A buffer that the block in flight cannot lose before it returns. -/
inductive Kept (threads : Threads Buffer) (buffer : Buffer) : Prop where
  | current (owned : threads.message.messageThreadCurrentBuffer = some buffer)
      (swapped : threads.message.pc = .retireCurrentBuffer →
        threads.message.generationAtSwap = threads.memory.renderGeneration)
  | retired (entry : (threads.memory.renderGeneration, buffer) ∈ threads.message.retireList)
  | loaded (held : threads.HeldByLoad buffer)

theorem Kept.owned (kept : threads.Kept buffer) : threads.Owned buffer := by
  cases kept with
  | current owned _ => exact .inl owned
  | retired entry => exact .inr (.inl ⟨_, entry⟩)
  | loaded held => exact .inr (.inr held)

/-- Between two swaps a kept buffer stays kept. -/
theorem Kept.of_same {after : Threads Buffer} (kept : threads.Kept buffer)
    (early : threads.message.pc.published = false)
    (late : after.message.pc ≠ .retireCurrentBuffer)
    (current : after.message.messageThreadCurrentBuffer =
      threads.message.messageThreadCurrentBuffer)
    (entries : (threads.memory.renderGeneration, buffer) ∈ threads.message.retireList →
      (after.memory.renderGeneration, buffer) ∈ after.message.retireList) :
    after.Kept buffer := by
  cases kept with
  | current owned _ => exact .current (current.trans owned) fun pc => absurd pc late
  | retired entry => exact .retired (entries entry)
  | loaded held =>
      have published := held.1
      rw [early] at published
      cases published

structure Reclaims (threads : Threads Buffer) : Prop where
  -- What is published is what the load that runs holds, or else the current buffer.
  published : threads.memory.activeBuffer =
    if threads.message.pc.published then threads.message.audio
    else threads.message.messageThreadCurrentBuffer
  inUse : ∀ buffer, threads.audio.audio = some buffer → threads.Kept buffer
  idle : threads.audio.pc = .idle → threads.audio.audio = none

theorem reclaims_initial : ({} : Threads Buffer).Reclaims where
  published := rfl
  inUse _ none := by cases none
  idle _ := rfl

theorem Reclaims.current (reclaims : threads.Reclaims)
    (early : threads.message.pc.published = false) :
    threads.memory.activeBuffer = threads.message.messageThreadCurrentBuffer := by
  rw [reclaims.published, early]
  rfl

theorem mem_retireStaleBuffers {generation : BitVec 64} {retireList : List (BitVec 64 × Buffer)}
    (entry : (generation, buffer) ∈ retireList) :
    (generation, buffer) ∈ retireStaleBuffers generation retireList := by
  refine List.mem_filter.mpr ⟨entry, ?_⟩
  simp

theorem Reclaims.call (reclaims : threads.Reclaims) (idle : threads.message.pc = .idle)
    (call : MessageCall Buffer) : (threads.call decoded call).Reclaims := by
  have early : threads.message.pc.published = false := by rw [idle]; rfl
  have current := reclaims.current early
  cases call with
  | load audio =>
      exact ⟨current, fun buffer inUse => (reclaims.inUse buffer inUse).of_same early nofun rfl
        mem_retireStaleBuffers, reclaims.idle⟩
  | setLoop loop =>
      exact ⟨current, fun buffer inUse => (reclaims.inUse buffer inUse).of_same early nofun rfl id,
        reclaims.idle⟩
  | requestSeek seconds =>
      simp only [Threads.call]
      split
      · exact ⟨current, fun buffer inUse =>
          (reclaims.inUse buffer inUse).of_same early nofun rfl id, reclaims.idle⟩
      · exact ⟨current, fun buffer inUse =>
          (reclaims.inUse buffer inUse).of_same early nofun rfl id, reclaims.idle⟩
  | setPlaying | setPlaybackRate | setRepeat =>
      refine ⟨reclaims.published, fun buffer inUse => ?_, reclaims.idle⟩
      refine (reclaims.inUse buffer inUse).of_same early (fun pc => ?_) rfl id
      rw [show threads.message.pc = .retireCurrentBuffer from pc] at idle
      cases idle

theorem Reclaims.stepMessage (reclaims : threads.Reclaims) :
    (threads.stepMessage decoded).Reclaims := by
  cases pc : threads.message.pc with
  | idle =>
      simp only [Threads.stepMessage, pc]
      exact reclaims
  | storeActiveBuffer =>
      have early : threads.message.pc.published = false := by rw [pc]; rfl
      simp only [Threads.stepMessage, pc]
      exact ⟨rfl, fun buffer inUse => (reclaims.inUse buffer inUse).of_same early nofun rfl id,
        reclaims.idle⟩
  | readGeneration =>
      have published := reclaims.published
      rw [pc] at published
      simp only [Threads.stepMessage, pc]
      refine ⟨published, fun buffer inUse => ?_, reclaims.idle⟩
      cases reclaims.inUse buffer inUse with
      | current owned _ => exact .current owned fun _ => rfl
      | retired entry => exact .retired entry
      | loaded held => exact .loaded ⟨rfl, held.2⟩
  | retireCurrentBuffer =>
      have published := reclaims.published
      rw [pc] at published
      simp only [Threads.stepMessage, pc]
      refine ⟨published, fun buffer inUse => ?_, reclaims.idle⟩
      cases reclaims.inUse buffer inUse with
      | current owned swapped =>
          refine .retired (List.mem_append_right _ ?_)
          simp only [owned, swapped pc, Option.toList_some, List.map_cons, List.map_nil,
            List.mem_singleton]
      | retired entry => exact .retired (List.mem_append_left _ entry)
      | loaded held => exact .current held.2 nofun
  | raiseSeekPending | publishLoopSlot =>
      have early : threads.message.pc.published = false := by rw [pc]; rfl
      have current := reclaims.current early
      simp only [Threads.stepMessage, pc]
      cases threads.message.loading with
      | false => exact ⟨current, fun buffer inUse =>
          (reclaims.inUse buffer inUse).of_same early nofun rfl id, reclaims.idle⟩
      | true => exact ⟨current, fun buffer inUse =>
          (reclaims.inUse buffer inUse).of_same early nofun rfl id, reclaims.idle⟩
  | storeStretcherReset | storePendingSeek | readLoopSlot | writeActive | writeInSamples
  | writeOutSamples =>
      have early : threads.message.pc.published = false := by rw [pc]; rfl
      simp only [Threads.stepMessage, pc]
      exact ⟨reclaims.current early, fun buffer inUse =>
        (reclaims.inUse buffer inUse).of_same early nofun rfl id, reclaims.idle⟩

/-- A block that has read a buffer keeps it until it returns; the accesses that follow leave
the message thread and the counter alone. -/
theorem Kept.of_message {after : Threads Buffer} (kept : threads.Kept buffer)
    (message : after.message = threads.message)
    (generation : after.memory.renderGeneration = threads.memory.renderGeneration) :
    after.Kept buffer := by
  cases kept with
  | current owned swapped =>
      exact .current (by rw [message]; exact owned) (by rw [message, generation]; exact swapped)
  | retired entry => exact .retired (by rw [message, generation]; exact entry)
  | loaded held => exact .loaded (by rw [HeldByLoad, message]; exact held)

theorem Reclaims.stepAudio (reclaims : threads.Reclaims) :
    (threads.stepAudio decoded fl outputLatencyFrames).Reclaims := by
  have published := reclaims.published
  cases pc : threads.audio.pc with
  | idle =>
      simp only [Threads.stepAudio, pc]
      exact reclaims
  | readActiveBuffer =>
      simp only [Threads.stepAudio, pc]
      refine ⟨published, fun buffer inUse => ?_, fun idle => ?_⟩
      · rw [published] at inUse
        split at inUse
        · rename_i load
          exact .loaded ⟨load, inUse⟩
        · rename_i early
          refine .current inUse fun pc => ?_
          rw [show threads.message.pc = .retireCurrentBuffer from pc] at early
          exact absurd rfl early
      · split at idle <;> cases idle
  | readSeekPending =>
      simp only [Threads.stepAudio, pc]
      refine ⟨published, fun buffer inUse => (reclaims.inUse buffer inUse).of_message rfl rfl,
        fun idle => ?_⟩
      split at idle <;> cases idle
  | readPlaying =>
      simp only [Threads.stepAudio, pc]
      split
      · exact ⟨published, fun buffer inUse => (reclaims.inUse buffer inUse).of_message rfl rfl,
          nofun⟩
      · exact ⟨published, nofun, fun _ => rfl⟩
  | readPosition =>
      simp only [Threads.stepAudio, pc]
      cases used : threads.audio.audio with
      | none => exact ⟨published, nofun, fun _ => rfl⟩
      | some buffer =>
          refine ⟨published, fun other inUse => ?_, fun idle => ?_⟩
          · exact (reclaims.inUse other (used.trans inUse)).of_message rfl rfl
          · dsimp only at idle
            split at idle <;> cases idle
  | storePosition =>
      simp only [Threads.stepAudio, pc]
      exact ⟨published, nofun, fun _ => rfl⟩
  | exchangeStretcherReset | readPendingSeek | storeSeek | clearSeekPending
  | storeSilent | readRate | readRepeat | readLoopSlot | readActive | readInSamples
  | readOutSamples | storeStopped =>
      simp only [Threads.stepAudio, pc]
      exact ⟨published, fun buffer inUse => (reclaims.inUse buffer inUse).of_message rfl rfl, nofun⟩

/-- The block that starts has no buffer to lose when it advances the counter. -/
theorem Reclaims.step (reclaims : threads.Reclaims) (turn : Turn Buffer) :
    (threads.step decoded fl outputLatencyFrames turn).1.Reclaims := by
  cases turn with
  | call call =>
      simp only [Threads.step]
      split
      · rename_i idle
        exact reclaims.call idle call
      · exact reclaims
  | message => exact reclaims.stepMessage
  | prepareToPlay =>
      simp only [Threads.step]
      split
      · exact ⟨reclaims.published, fun buffer inUse =>
          (reclaims.inUse buffer inUse).of_message rfl rfl, reclaims.idle⟩
      · exact reclaims
  | block numOutput =>
      simp only [Threads.step]
      split
      · rename_i idle
        refine ⟨reclaims.published, fun buffer inUse => ?_, nofun⟩
        have free := reclaims.idle idle
        rw [show threads.audio.audio = some buffer from inUse] at free
        cases free
      · exact reclaims
  | audio => exact reclaims.stepAudio

/-- In every state that any interleaving of the two threads reaches, the buffer that a block
has read and the buffer that is published are owned: by the message thread, by its list of
retired buffers, or by the load that has published it and has not returned. -/
theorem buffers_owned (decoded : Buffer → LoadedAudio) (fl : ℚ → ℚ) (outputLatencyFrames : ℚ → ℕ)
    (turns : List (Turn Buffer)) :
    let threads := Machine.run (step decoded fl outputLatencyFrames) {} turns
    (∀ buffer, threads.audio.audio = some buffer → threads.Owned buffer) ∧
      (∀ buffer, threads.memory.activeBuffer = some buffer → threads.Owned buffer) ∧
      (threads.message.pc = .idle →
        threads.memory.activeBuffer = threads.message.messageThreadCurrentBuffer) := by
  have reclaims := Machine.run_invariant (step decoded fl outputLatencyFrames) Reclaims
    (fun _ turn reclaims => reclaims.step turn) reclaims_initial turns
  refine ⟨fun buffer inUse => (reclaims.inUse buffer inUse).owned, fun buffer active => ?_,
    fun idle => reclaims.current (by rw [idle]; rfl)⟩
  rw [reclaims.published] at active
  split at active
  · rename_i load
    exact .inr (.inr ⟨load, active⟩)
  · exact .inl active

section Example

/-- A load, up to the store of the buffer, and a block that reads it. -/
def readWhileLoading : List (Turn Unit) :=
  .call (.load (some ())) :: List.replicate 9 .message ++ .block 512 :: List.replicate 6 .audio

/-- Between the store of the new buffer and the end of the load, the block has read a buffer
that neither the message thread nor the list of retired buffers owns. -/
theorem buffer_owned_by_load_alone :
    ¬ ∀ (decoded : Unit → LoadedAudio) (fl : ℚ → ℚ) (outputLatencyFrames : ℚ → ℕ)
      (turns : List (Turn Unit)),
      let threads := Machine.run (step decoded fl outputLatencyFrames) {} turns
      ∀ buffer, threads.audio.audio = some buffer →
        threads.message.messageThreadCurrentBuffer = some buffer ∨
          ∃ generation, (generation, buffer) ∈ threads.message.retireList := by
  intro owned
  have silence := owned (fun _ => .silence 2 44100) id 0 readWhileLoading () rfl
  rcases silence with current | ⟨generation, entry⟩
  · cases current
  · cases entry

end Example

end Threads

end DjApp.Engine
