import DjApp.Engine.Playback

/-! The message thread and the audio thread of one playback source, each atomic access and
each access to a loop field a step of its own. A turn of the scheduler lets one thread take
its next step; what a thread keeps to itself goes with the access before it. -/

set_option autoImplicit false

namespace DjApp.Engine

open Library
open Client (Single LoopPoints)
open Library.BinaryRounding (double)

-- There are two loop slots; a name for the fact keeps it out of the terms of the model.
local instance neZero_two : NeZero 2 := ⟨two_ne_zero⟩

/-- What both threads access. A `Buffer` is the address of a decoded track. -/
structure Memory (Buffer : Type) where
  playing : Bool := false
  rate : Single := .ofDouble 1
  repeats : Bool := true
  positionSamples : ℚ := 0
  pendingSeekSamples : ℚ := 0
  seekPending : Bool := false
  forceStretcherReset : Bool := false
  loopSlots : Fin 2 → LoopState := fun _ => {}
  activeLoopSlot : Fin 2 := 0
  activeBuffer : Option Buffer := none
  renderGeneration : BitVec 64 := 0

inductive MessageCall (Buffer : Type) where
  | load (audio : Option Buffer)
  | setPlaying (shouldPlay : Bool)
  | setPlaybackRate (rate : Single)
  | setLoop (loop : Option LoopPoints)
  | setRepeat (repeats : Bool)
  | requestSeek (seconds : ℚ)

/-- The next access of the call that runs, after the one it starts with. -/
inductive MessagePc where
  | idle
  | storeStretcherReset
  | storePendingSeek
  | raiseSeekPending
  | readLoopSlot
  | writeActive
  | writeInSamples
  | writeOutSamples
  | publishLoopSlot
  | storeActiveBuffer
  | readGeneration
  | retireCurrentBuffer
  deriving DecidableEq

structure MessageThread (Buffer : Type) where
  pc : MessagePc := .idle
  messageThreadSampleRate : ℚ := 0
  messageThreadCurrentBuffer : Option Buffer := none
  retireList : List (BitVec 64 × Buffer) := []
  -- The call that runs: whether it is a load, and of what.
  loading : Bool := false
  audio : Option Buffer := none
  samples : ℚ := 0
  loopState : LoopState := {}
  inactiveLoopSlot : Fin 2 := 0
  generationAtSwap : BitVec 64 := 0

/-- The next access of the block that runs, after the one it starts with. -/
inductive AudioPc where
  | idle
  | exchangeStretcherReset
  | readSeekPending
  | readPendingSeek
  | storeSeek
  | clearSeekPending
  | readActiveBuffer
  | storeSilent
  | readPlaying
  | readRate
  | readRepeat
  | readLoopSlot
  | readActive
  | readInSamples
  | readOutSamples
  | readPosition
  | storeStopped
  | storePosition
  deriving DecidableEq

structure AudioThread (Buffer : Type) where
  pc : AudioPc := .idle
  renderer : Renderer := {}
  -- The locals of the block that runs.
  numOutput : ℕ := 0
  seekSamples : ℚ := 0
  audio : Option Buffer := none
  rate : Single := .ofDouble 1
  repeats : Bool := true
  loopSlot : Fin 2 := 0
  loop : LoopState := {}
  position : ℚ := 0

structure Threads (Buffer : Type) where
  memory : Memory Buffer := {}
  message : MessageThread Buffer := {}
  audio : AudioThread Buffer := {}

/-- A turn of the scheduler. A call or a block starts, with its first access, when its thread
is idle; the device is only prepared between two blocks. -/
inductive Turn (Buffer : Type) where
  | call (call : MessageCall Buffer)
  | message
  | prepareToPlay (samplesPerBlockExpected : ℕ) (sampleRate : ℚ)
  | block (numOutput : ℕ)
  | audio

section

variable {Buffer : Type} (decoded : Buffer → LoadedAudio)

/-- What the message thread itself knows of the source. -/
def MessageThread.known (message : MessageThread Buffer) : BufferPlaybackSource :=
  { BufferPlaybackSource.initial with
    messageThreadSampleRate := message.messageThreadSampleRate
    messageThreadCurrentBuffer := message.messageThreadCurrentBuffer.map decoded }

def AudioThread.finish (audio : AudioThread Buffer) : AudioThread Buffer :=
  { audio with pc := .idle, audio := none }

/-- The source as the block has read it. -/
def AudioThread.read (audio : AudioThread Buffer) (positionSamples : ℚ) :
    BufferPlaybackSource :=
  { BufferPlaybackSource.initial with
    playing := true
    rate := audio.rate
    repeats := audio.repeats
    positionSamples := positionSamples
    loopSlots := fun _ => audio.loop }

namespace Threads

/-- An entry is erased once the counter has moved on by more than the margin, modulo 2^64. -/
def retireStaleBuffers (currentGeneration : BitVec 64) (retireList : List (BitVec 64 × Buffer)) :
    List (BitVec 64 × Buffer) :=
  retireList.filter fun entry =>
    !(BufferPlaybackSource.retireMargin < (currentGeneration - entry.1).toNat)

/-- The start of a call, up to its first access. -/
def call (threads : Threads Buffer) (call : MessageCall Buffer) : Threads Buffer :=
  let memory := threads.memory
  let message := threads.message
  match call with
  | .load audio =>
      { threads with
        message := { message with
          pc := .storeStretcherReset
          loading := true
          audio := audio
          samples := 0
          loopState := {}
          retireList := retireStaleBuffers memory.renderGeneration message.retireList } }
  | .setPlaying shouldPlay => { threads with memory := { memory with playing := shouldPlay } }
  | .setPlaybackRate rate => { threads with memory := { memory with rate := rate } }
  | .setRepeat repeats => { threads with memory := { memory with repeats := repeats } }
  | .setLoop loop =>
      { threads with
        message := { message with
          pc := .writeActive
          loading := false
          audio := none
          loopState := (message.known decoded).loopStateFor loop
          inactiveLoopSlot := 1 - memory.activeLoopSlot } }
  | .requestSeek seconds =>
      let samples := ((message.known decoded).requestSeek seconds).pendingSeekSamples
      { threads with
        message := { message with
          pc := if message.messageThreadSampleRate < |double (samples - memory.positionSamples)|
            then .storeStretcherReset else .storePendingSeek
          loading := false
          audio := none
          samples := samples } }

/-- The next access of the call that runs. -/
def stepMessage (threads : Threads Buffer) : Threads Buffer :=
  let memory := threads.memory
  let message := threads.message
  let slot := message.inactiveLoopSlot
  match message.pc with
  | .idle => threads
  | .storeStretcherReset =>
      { threads with
        memory := { memory with forceStretcherReset := true }
        message := { message with
          pc := .storePendingSeek
          messageThreadSampleRate :=
            if message.loading then message.audio.elim 0 fun audio => (decoded audio).sampleRate
            else message.messageThreadSampleRate } }
  | .storePendingSeek =>
      { threads with
        memory := { memory with pendingSeekSamples := message.samples }
        message := { message with pc := .raiseSeekPending } }
  | .raiseSeekPending =>
      { threads with
        memory := { memory with seekPending := true }
        message := { message with pc := if message.loading then .readLoopSlot else .idle } }
  | .readLoopSlot =>
      { threads with
        message := { message with pc := .writeActive, inactiveLoopSlot := 1 - memory.activeLoopSlot } }
  | .writeActive =>
      { threads with
        memory := { memory with
          loopSlots := Function.update memory.loopSlots slot
            { memory.loopSlots slot with active := message.loopState.active } }
        message := { message with pc := .writeInSamples } }
  | .writeInSamples =>
      { threads with
        memory := { memory with
          loopSlots := Function.update memory.loopSlots slot
            { memory.loopSlots slot with inSamples := message.loopState.inSamples } }
        message := { message with pc := .writeOutSamples } }
  | .writeOutSamples =>
      { threads with
        memory := { memory with
          loopSlots := Function.update memory.loopSlots slot
            { memory.loopSlots slot with outSamples := message.loopState.outSamples } }
        message := { message with pc := .publishLoopSlot } }
  | .publishLoopSlot =>
      { threads with
        memory := { memory with activeLoopSlot := slot }
        message := { message with pc := if message.loading then .storeActiveBuffer else .idle } }
  | .storeActiveBuffer =>
      { threads with
        memory := { memory with activeBuffer := message.audio }
        message := { message with pc := .readGeneration } }
  | .readGeneration =>
      { threads with
        message := { message with
          pc := .retireCurrentBuffer
          generationAtSwap := memory.renderGeneration } }
  | .retireCurrentBuffer =>
      { threads with
        message := { message with
          pc := .idle
          loading := false
          audio := none
          messageThreadCurrentBuffer := message.audio
          retireList := message.retireList ++
            message.messageThreadCurrentBuffer.toList.map fun replaced =>
              (message.generationAtSwap, replaced) } }

variable (fl : ℚ → ℚ) (outputLatencyFrames : ℚ → ℕ)

/-- The next access of the block that runs. -/
def stepAudio (threads : Threads Buffer) : Threads Buffer :=
  let memory := threads.memory
  let audio := threads.audio
  let slot := memory.loopSlots audio.loopSlot
  match audio.pc with
  | .idle => threads
  | .exchangeStretcherReset =>
      { threads with
        memory := { memory with forceStretcherReset := false }
        audio := { audio with
          pc := .readSeekPending
          renderer := (takeRequests outputLatencyFrames
            { BufferPlaybackSource.initial with
              forceStretcherReset := memory.forceStretcherReset } audio.renderer).2 } }
  | .readSeekPending =>
      { threads with
        audio := { audio with
          pc := if memory.seekPending then .readPendingSeek else .readActiveBuffer } }
  | .readPendingSeek =>
      { threads with
        audio := { audio with pc := .storeSeek, seekSamples := memory.pendingSeekSamples } }
  | .storeSeek =>
      { threads with
        memory := { memory with positionSamples := audio.seekSamples }
        audio := { audio with pc := .clearSeekPending } }
  | .clearSeekPending =>
      { threads with
        memory := { memory with seekPending := false }
        audio := { audio with pc := .readActiveBuffer } }
  | .readActiveBuffer =>
      { threads with
        audio := { audio with
          audio := memory.activeBuffer
          pc := if memory.activeBuffer.any fun buffer => (decoded buffer).numSamples != 0
            then .readPlaying else .storeSilent } }
  | .storeSilent =>
      { threads with
        memory := { memory with playing := false }
        audio := { audio with pc := .readPlaying } }
  | .readPlaying =>
      if memory.playing = true ∧
          (audio.audio.any fun buffer => (decoded buffer).numSamples != 0) = true ∧
          audio.numOutput ≠ 0 ∧ audio.renderer.capacityFrames ≠ 0 ∧
          audio.numOutput ≤ audio.renderer.capacityFrames then
        { threads with audio := { audio with pc := .readRate } }
      else { threads with audio := audio.finish }
  | .readRate => { threads with audio := { audio with pc := .readRepeat, rate := memory.rate } }
  | .readRepeat =>
      { threads with audio := { audio with pc := .readLoopSlot, repeats := memory.repeats } }
  | .readLoopSlot =>
      { threads with audio := { audio with pc := .readActive, loopSlot := memory.activeLoopSlot } }
  | .readActive =>
      { threads with
        audio := { audio with
          pc := .readInSamples, loop := { audio.loop with active := slot.active } } }
  | .readInSamples =>
      { threads with
        audio := { audio with
          pc := .readOutSamples, loop := { audio.loop with inSamples := slot.inSamples } } }
  | .readOutSamples =>
      { threads with
        audio := { audio with
          pc := .readPosition, loop := { audio.loop with outSamples := slot.outSamples } } }
  | .readPosition =>
      match audio.audio with
      | none => { threads with audio := audio.finish }
      | some buffer =>
          let rendered := renderBlock fl (audio.read memory.positionSamples) audio.renderer
            (decoded buffer) audio.numOutput
          { threads with
            audio := { audio with
              pc := if rendered.1.playing then .storePosition else .storeStopped
              position := rendered.1.positionSamples
              renderer := rendered.2 } }
  | .storeStopped =>
      { threads with
        memory := { memory with playing := false }
        audio := { audio with pc := .storePosition } }
  | .storePosition =>
      { threads with
        memory := { memory with positionSamples := audio.position }
        audio := audio.finish }

def step (threads : Threads Buffer) (turn : Turn Buffer) : Threads Buffer × Unit :=
  let audio := threads.audio
  match turn with
  | .call call => (if threads.message.pc = .idle then threads.call decoded call else threads, ())
  | .message => (threads.stepMessage decoded, ())
  | .prepareToPlay samplesPerBlockExpected sampleRate =>
      (if audio.pc = .idle then
        { threads with
          audio := { audio with
            renderer := audio.renderer.prepareToPlay samplesPerBlockExpected sampleRate } }
      else threads, ())
  | .block numOutput =>
      (if audio.pc = .idle then
        { threads with
          memory := { threads.memory with renderGeneration := threads.memory.renderGeneration + 1 }
          audio := { audio with pc := .exchangeStretcherReset, numOutput := numOutput } }
      else threads, ())
  | .audio => (threads.stepAudio decoded fl outputLatencyFrames, ())

end Threads

end

end DjApp.Engine
