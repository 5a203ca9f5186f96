import DjApp.Engine.Interleaving

/-! The two threads when neither interrupts the other: a call and a block, taken access by
access, do to the source what they do when they are taken as a whole. -/

set_option autoImplicit false

namespace DjApp.Engine

open Library

variable {Buffer : Type} (decoded : Buffer → LoadedAudio)

/-!
## Activities
-/

/-- The call as `JuceAudioEngine` makes it. -/
def MessageCall.engineCall : MessageCall Buffer → EngineCall
  | .load audio => .load (audio.map decoded)
  | .setPlaying true => .play
  | .setPlaying false => .pause
  | .setPlaybackRate rate => .setPlaybackRate rate
  | .setLoop loop => .setLoop loop
  | .setRepeat repeats => .setRepeat repeats
  | .requestSeek seconds => .seek seconds

/-- What one thread does while the other one waits. -/
inductive Activity (Buffer : Type) where
  | call (call : MessageCall Buffer)
  | prepareToPlay (samplesPerBlockExpected : ℕ) (sampleRate : ℚ)
  | block (numOutput : ℕ)

namespace Activity

def event : Activity Buffer → PlaybackEvent
  | .call made => .call (made.engineCall decoded)
  | .prepareToPlay samplesPerBlockExpected sampleRate =>
      .prepareToPlay samplesPerBlockExpected sampleRate
  | .block numOutput => .block numOutput

/-- Turns enough for the longest call and the longest block; a thread that has returned does
nothing with the rest of them. -/
def turns : Activity Buffer → List (Turn Buffer)
  | .call made => .call made :: List.replicate 11 .message
  | .prepareToPlay samplesPerBlockExpected sampleRate =>
      [.prepareToPlay samplesPerBlockExpected sampleRate]
  | .block numOutput => .block numOutput :: List.replicate 16 .audio

end Activity

namespace Threads

/-- The source with what the two threads know of it; the rest are the parameters that no
block waits for, and the retired buffers. -/
def source (threads : Threads Buffer) (rest : BufferPlaybackSource) : BufferPlaybackSource :=
  { rest with
    playing := threads.memory.playing
    rate := threads.memory.rate
    repeats := threads.memory.repeats
    positionSamples := threads.memory.positionSamples
    pendingSeekSamples := threads.memory.pendingSeekSamples
    seekPending := threads.memory.seekPending
    forceStretcherReset := threads.memory.forceStretcherReset
    loopSlots := threads.memory.loopSlots
    activeLoopSlot := threads.memory.activeLoopSlot
    activeBuffer := threads.memory.activeBuffer.map decoded
    messageThreadSampleRate := threads.message.messageThreadSampleRate
    messageThreadCurrentBuffer := threads.message.messageThreadCurrentBuffer.map decoded }

/-!
## Threads that represent a playback
-/

/-- Both threads are idle, and what they share is the source of the playback. -/
structure Represents (threads : Threads Buffer) (playback : Playback) : Prop where
  message : threads.message.pc = .idle
  audio : threads.audio.pc = .idle
  source : threads.source decoded playback.source = playback.source
  renderer : threads.audio.renderer = playback.renderer

section Runs

variable {decoded} {fl : ℚ → ℚ} {outputLatencyFrames : ℚ → ℕ} {threads : Threads Buffer}
  {playback : Playback}

theorem represents_initial : ({} : Threads Buffer).Represents decoded {} := ⟨rfl, rfl, rfl, rfl⟩

theorem run_message_idle (idle : threads.message.pc = .idle) (count : ℕ) :
    Machine.run (step decoded fl outputLatencyFrames) threads (List.replicate count .message) =
      threads := by
  induction count with
  | zero => rfl
  | succ count ih =>
      have still : threads.stepMessage decoded = threads := by simp only [stepMessage, idle]
      rw [List.replicate_succ, Machine.run, step, still, ih]

theorem run_audio_idle (idle : threads.audio.pc = .idle) (count : ℕ) :
    Machine.run (step decoded fl outputLatencyFrames) threads (List.replicate count .audio) =
      threads := by
  induction count with
  | zero => rfl
  | succ count ih =>
      have still : threads.stepAudio decoded fl outputLatencyFrames = threads := by
        simp only [stepAudio, idle]
      rw [List.replicate_succ, Machine.run, step, still, ih]

theorem written_fields (slots : Fin 2 → LoopState) (slot : Fin 2) (loop : LoopState) :
    let first := Function.update slots slot { slots slot with active := loop.active }
    let second := Function.update first slot { first slot with inSamples := loop.inSamples }
    Function.update second slot { second slot with outSamples := loop.outSamples } =
      Function.update slots slot loop := by
  simp

/-- The inactive slot is written field by field and then made the active one. -/
theorem run_publish (memory : Memory Buffer) (message : MessageThread Buffer)
    (audio : AudioThread Buffer) (pc : message.pc = .writeActive) (count : ℕ) :
    Machine.run (step decoded fl outputLatencyFrames) ⟨memory, message, audio⟩
        (List.replicate (count + 4) .message) =
      Machine.run (step decoded fl outputLatencyFrames)
        ⟨{ memory with
            loopSlots := Function.update memory.loopSlots message.inactiveLoopSlot message.loopState
            activeLoopSlot := message.inactiveLoopSlot },
          { message with pc := if message.loading then .storeActiveBuffer else .idle }, audio⟩
        (List.replicate count .message) := by
  have written := written_fields memory.loopSlots message.inactiveLoopSlot message.loopState
  obtain ⟨_, rate, current, retireList, loading, loaded, samples, loopState, slot, generation⟩ :=
    message
  obtain rfl := pc
  exact congrArg (fun slots => Machine.run (step decoded fl outputLatencyFrames)
    ⟨{ memory with loopSlots := slots, activeLoopSlot := slot },
      ⟨if loading then .storeActiveBuffer else .idle, rate, current, retireList, loading, loaded,
        samples, loopState, slot, generation⟩, audio⟩ (List.replicate count .message)) written

/-- A seek is stored before it is flagged. -/
theorem run_seek (memory : Memory Buffer) (message : MessageThread Buffer)
    (audio : AudioThread Buffer) (pc : message.pc = .storePendingSeek) (count : ℕ) :
    Machine.run (step decoded fl outputLatencyFrames) ⟨memory, message, audio⟩
        (List.replicate (count + 2) .message) =
      Machine.run (step decoded fl outputLatencyFrames)
        ⟨{ memory with pendingSeekSamples := message.samples, seekPending := true },
          { message with pc := if message.loading then .readLoopSlot else .idle }, audio⟩
        (List.replicate count .message) := by
  obtain ⟨_, rate, current, retireList, loading, loaded, samples, loopState, slot, generation⟩ :=
    message
  obtain rfl := pc
  rfl

theorem run_message_succ (threads : Threads Buffer) (count : ℕ) :
    Machine.run (step decoded fl outputLatencyFrames) threads
        (List.replicate (count + 1) .message) =
      Machine.run (step decoded fl outputLatencyFrames) (threads.stepMessage decoded)
        (List.replicate count .message) := rfl

theorem Represents.load (represents : threads.Represents decoded playback)
    (buffer : Option Buffer) :
    (Machine.run (step decoded fl outputLatencyFrames) (threads.call decoded (.load buffer))
      (List.replicate 11 .message)).Represents decoded
        { playback with source := playback.source.load (buffer.map decoded) } := by
  obtain ⟨message, audio, source, renderer⟩ := represents
  let retireList := retireStaleBuffers threads.memory.renderGeneration threads.message.retireList
  let resetting : MessageThread Buffer := { threads.message with
    pc := .storePendingSeek
    messageThreadSampleRate := buffer.elim 0 fun audio => (decoded audio).sampleRate
    retireList := retireList
    loading := true
    audio := buffer
    samples := 0
    loopState := {} }
  let flagged : Memory Buffer := { threads.memory with
    forceStretcherReset := true
    pendingSeekSamples := 0
    seekPending := true }
  let slot := 1 - threads.memory.activeLoopSlot
  let cleared : Memory Buffer := { flagged with
    loopSlots := Function.update threads.memory.loopSlots slot {}
    activeLoopSlot := slot }
  let retired := retireList ++ threads.message.messageThreadCurrentBuffer.toList.map
    fun replaced => (threads.memory.renderGeneration, replaced)
  have seek : Machine.run (step decoded fl outputLatencyFrames)
      (threads.call decoded (.load buffer)) (List.replicate 11 .message) =
        Machine.run (step decoded fl outputLatencyFrames)
          ⟨flagged, { resetting with pc := .readLoopSlot }, threads.audio⟩
          (List.replicate 8 .message) :=
    (run_message_succ _ 10).trans
      (run_seek { threads.memory with forceStretcherReset := true } resetting threads.audio rfl 8)
  have publish : Machine.run (step decoded fl outputLatencyFrames)
      ⟨flagged, { resetting with pc := .readLoopSlot }, threads.audio⟩
          (List.replicate 8 .message) =
        Machine.run (step decoded fl outputLatencyFrames)
          ⟨cleared, { resetting with pc := .storeActiveBuffer, inactiveLoopSlot := slot },
            threads.audio⟩ (List.replicate 3 .message) :=
    (run_message_succ _ 7).trans (run_publish flagged
      { resetting with pc := .writeActive, inactiveLoopSlot := slot } threads.audio rfl 3)
  have swap : Machine.run (step decoded fl outputLatencyFrames)
      ⟨cleared, { resetting with pc := .storeActiveBuffer, inactiveLoopSlot := slot },
        threads.audio⟩ (List.replicate 3 .message) =
      ⟨{ cleared with activeBuffer := buffer },
        { resetting with
          pc := .idle
          inactiveLoopSlot := slot
          loading := false
          audio := none
          generationAtSwap := threads.memory.renderGeneration
          messageThreadCurrentBuffer := buffer
          retireList := retired }, threads.audio⟩ := rfl
  rw [seek, publish, swap]
  refine ⟨rfl, audio, ?_, renderer⟩
  rw [← source]
  cases buffer <;> rfl

theorem Represents.setLoop (represents : threads.Represents decoded playback)
    (loop : Option Client.LoopPoints) :
    (Machine.run (step decoded fl outputLatencyFrames) (threads.call decoded (.setLoop loop))
      (List.replicate 11 .message)).Represents decoded
        { playback with source := playback.source.setLoop loop } := by
  obtain ⟨message, audio, source, renderer⟩ := represents
  let writing : MessageThread Buffer := { threads.message with
    pc := .writeActive
    loading := false
    audio := none
    loopState := (threads.message.known decoded).loopStateFor loop
    inactiveLoopSlot := 1 - threads.memory.activeLoopSlot }
  have publish : Machine.run (step decoded fl outputLatencyFrames)
      (threads.call decoded (.setLoop loop)) (List.replicate 11 .message) = _ :=
    run_publish threads.memory writing threads.audio rfl 7
  rw [publish, run_message_idle rfl]
  refine ⟨rfl, audio, ?_, renderer⟩
  rw [← source]
  rfl

/-- Only a distant seek resets the stretcher first. -/
theorem Represents.requestSeek (represents : threads.Represents decoded playback) (seconds : ℚ) :
    (Machine.run (step decoded fl outputLatencyFrames) (threads.call decoded (.requestSeek seconds))
      (List.replicate 11 .message)).Represents decoded
        { playback with source := playback.source.requestSeek seconds } := by
  obtain ⟨message, audio, source, renderer⟩ := represents
  let samples := ((threads.message.known decoded).requestSeek seconds).pendingSeekSamples
  let seeking : MessageThread Buffer := { threads.message with
    pc := .storePendingSeek
    loading := false
    audio := none
    samples := samples }
  by_cases far : threads.message.messageThreadSampleRate <
      |BinaryRounding.double (samples - threads.memory.positionSamples)|
  · have reset : threads.call decoded (.requestSeek seconds) =
        ⟨threads.memory, { seeking with pc := .storeStretcherReset }, threads.audio⟩ := by
      simp only [call]
      rw [if_pos far]
    have seek : Machine.run (step decoded fl outputLatencyFrames)
        ⟨threads.memory, { seeking with pc := .storeStretcherReset }, threads.audio⟩
        (List.replicate 11 .message) = _ :=
      (run_message_succ _ 10).trans
        (run_seek { threads.memory with forceStretcherReset := true } seeking threads.audio rfl 8)
    rw [reset, seek, run_message_idle rfl]
    refine ⟨rfl, audio, ?_, renderer⟩
    rw [← source]
    have resets : (threads.memory.forceStretcherReset ||
        decide (threads.message.messageThreadSampleRate <
          |BinaryRounding.double (samples - threads.memory.positionSamples)|)) = true := by
      rw [decide_eq_true far, Bool.or_true]
    exact congrArg (fun reset : Bool => { threads.source decoded playback.source with
      forceStretcherReset := reset, pendingSeekSamples := samples, seekPending := true })
        resets.symm
  · have near : threads.call decoded (.requestSeek seconds) =
        ⟨threads.memory, seeking, threads.audio⟩ := by
      simp only [call]
      rw [if_neg far]
    have seek : Machine.run (step decoded fl outputLatencyFrames)
        ⟨threads.memory, seeking, threads.audio⟩ (List.replicate 11 .message) = _ :=
      run_seek threads.memory seeking threads.audio rfl 9
    rw [near, seek, run_message_idle rfl]
    refine ⟨rfl, audio, ?_, renderer⟩
    rw [← source]
    have resets : (threads.memory.forceStretcherReset ||
        decide (threads.message.messageThreadSampleRate <
          |BinaryRounding.double (samples - threads.memory.positionSamples)|)) =
        threads.memory.forceStretcherReset := by
      rw [decide_eq_false far, Bool.or_false]
    exact congrArg (fun reset : Bool => { threads.source decoded playback.source with
      forceStretcherReset := reset, pendingSeekSamples := samples, seekPending := true })
        resets.symm

/-- A call that is done with its first access. -/
theorem Represents.call_at_once (represents : threads.Represents decoded playback)
    {call : MessageCall Buffer} (idle : (threads.call decoded call).message.pc = .idle)
    (audio : (threads.call decoded call).audio = threads.audio)
    (source : (threads.call decoded call).source decoded playback.source =
      (threads.source decoded playback.source).perform (call.engineCall decoded))
    (rest : (threads.call decoded call).source decoded
        (playback.source.perform (call.engineCall decoded)) =
      (threads.call decoded call).source decoded playback.source) :
    (Machine.run (step decoded fl outputLatencyFrames) (threads.call decoded call)
      (List.replicate 11 .message)).Represents decoded
        (playback.step fl outputLatencyFrames (.call (call.engineCall decoded))).1 := by
  rw [run_message_idle idle]
  have same := represents.source
  refine ⟨idle, ?_, ?_, ?_⟩
  · rw [audio]
    exact represents.audio
  · rw [Playback.step, rest, source, same]
  · rw [audio]
    exact represents.renderer

/-- A call that is not interrupted does to the source what it does as a whole. -/
theorem Represents.call (represents : threads.Represents decoded playback)
    (call : MessageCall Buffer) :
    (Machine.run (step decoded fl outputLatencyFrames) threads
      (Activity.call call).turns).Represents decoded
        (playback.step fl outputLatencyFrames (.call (call.engineCall decoded))).1 := by
  have started : Machine.run (step decoded fl outputLatencyFrames) threads
      (Activity.call call).turns =
        Machine.run (step decoded fl outputLatencyFrames) (threads.call decoded call)
          (List.replicate 11 .message) := by
    simp only [Activity.turns, Machine.run, step, if_pos represents.message]
  rw [started]
  cases call with
  | load buffer => exact represents.load buffer
  | setLoop loop => exact represents.setLoop loop
  | requestSeek seconds => exact represents.requestSeek seconds
  | setPlaying shouldPlay =>
      cases shouldPlay with
      | false => exact represents.call_at_once represents.message rfl rfl rfl
      | true => exact represents.call_at_once represents.message rfl rfl rfl
  | setPlaybackRate rate => exact represents.call_at_once represents.message rfl rfl rfl
  | setRepeat repeats => exact represents.call_at_once represents.message rfl rfl rfl

/-!
## Blocks of the audio thread
-/

theorem run_audio_succ (threads : Threads Buffer) (count : ℕ) :
    Machine.run (step decoded fl outputLatencyFrames) threads
        (List.replicate (count + 1) .audio) =
      Machine.run (step decoded fl outputLatencyFrames)
        (threads.stepAudio decoded fl outputLatencyFrames) (List.replicate count .audio) := rfl

theorem run_reads (memory : Memory Buffer) (message : MessageThread Buffer)
    (audio : AudioThread Buffer) (pc : audio.pc = .readRate) (count : ℕ) :
    Machine.run (step decoded fl outputLatencyFrames) ⟨memory, message, audio⟩
        (List.replicate (count + 6) .audio) =
      Machine.run (step decoded fl outputLatencyFrames)
        ⟨memory, message,
          { audio with
            pc := .readPosition
            rate := memory.rate
            repeats := memory.repeats
            loopSlot := memory.activeLoopSlot
            loop := memory.loopSlots memory.activeLoopSlot }⟩
        (List.replicate count .audio) := by
  obtain ⟨_, renderer, numOutput, seekSamples, buffer, rate, repeats, loopSlot, loop, position⟩ :=
    audio
  obtain rfl := pc
  rfl

theorem renderBlock_congr {left right : BufferPlaybackSource} (playing : left.playing = right.playing)
    (rate : left.rate = right.rate) (repeats : left.repeats = right.repeats)
    (loop : left.activeLoop = right.activeLoop)
    (position : left.positionSamples = right.positionSamples) (renderer : Renderer)
    (audio : LoadedAudio) (numOutput : ℕ) :
    renderBlock fl right renderer audio numOutput =
      ({ right with
          playing := (renderBlock fl left renderer audio numOutput).1.playing
          positionSamples := (renderBlock fl left renderer audio numOutput).1.positionSamples },
        (renderBlock fl left renderer audio numOutput).2) := by
  simp only [renderBlock, pullCount, playing, rate, repeats, loop, position]

/-- What a block makes of the source once it has taken the requests. -/
def rendering (fl : ℚ → ℚ) (taken : Playback) (numOutput : ℕ) : Playback :=
  match audible taken.source taken.renderer numOutput with
  | none => ⟨haltIfSilent taken.source, taken.renderer⟩
  | some audio =>
      let after := renderBlock fl taken.source taken.renderer audio numOutput
      ⟨after.1, after.2⟩

theorem stepAudio_found {buffer : Buffer} (pc : threads.audio.pc = .readActiveBuffer)
    (active : threads.memory.activeBuffer = some buffer)
    (sampled : (decoded buffer).numSamples ≠ 0) :
    threads.stepAudio decoded fl outputLatencyFrames =
      { threads with audio := { threads.audio with audio := some buffer, pc := .readPlaying } } := by
  have samples : ((some buffer).any fun buffer => (decoded buffer).numSamples != 0) = true := by
    rw [Option.any_some, bne_iff_ne]
    exact sampled
  simp only [stepAudio, pc, active, samples, ↓reduceIte]

theorem audible_of_ready {buffer : Buffer}
    (found : playback.source.activeBuffer = some (decoded buffer))
    (sampled : (decoded buffer).numSamples ≠ 0) {numOutput : ℕ}
    (ready : playback.source.playing = true ∧ numOutput ≠ 0 ∧
      playback.renderer.capacityFrames ≠ 0 ∧ numOutput ≤ playback.renderer.capacityFrames) :
    audible playback.source playback.renderer numOutput = some (decoded buffer) := by
  obtain ⟨playing, some, capacity, fits⟩ := ready
  unfold audible
  rw [found]
  apply if_neg
  simp only [not_or, not_lt, Bool.not_eq_false]
  exact ⟨sampled, playing, some, capacity, fits⟩

section Rendering

variable (source : threads.source decoded playback.source = playback.source)
  (renderer : threads.audio.renderer = playback.renderer) (message : threads.message.pc = .idle)
  (pc : threads.audio.pc = .readActiveBuffer)

include source renderer message pc

/-- Without a sample to play the block stops the source and returns. -/
theorem represents_silent
    (silent : (threads.memory.activeBuffer.any
      fun buffer => (decoded buffer).numSamples != 0) = false) (count : ℕ) :
    (Machine.run (step decoded fl outputLatencyFrames) threads
      (List.replicate (count + 3) .audio)).Represents decoded
        (rendering fl playback threads.audio.numOutput) := by
  have read : threads.stepAudio decoded fl outputLatencyFrames =
      { threads with audio := { threads.audio with
        audio := threads.memory.activeBuffer, pc := .storeSilent } } := by
    simp only [stepAudio, pc, silent]
    rfl
  have halted : Machine.run (step decoded fl outputLatencyFrames) threads
      (List.replicate (count + 3) .audio) =
        Machine.run (step decoded fl outputLatencyFrames)
          { threads with
            memory := { threads.memory with playing := false }
            audio := { threads.audio with audio := none, pc := .idle } }
          (List.replicate count .audio) := by
    rw [run_audio_succ, read]
    rfl
  have buffer : playback.source.activeBuffer = threads.memory.activeBuffer.map decoded :=
    congrArg BufferPlaybackSource.activeBuffer source.symm
  have none : audible playback.source playback.renderer threads.audio.numOutput = none := by
    unfold audible
    rw [buffer]
    cases active : threads.memory.activeBuffer with
    | none => rfl
    | some found =>
        rw [active, Option.any_some, bne_eq_false_iff_eq] at silent
        exact if_pos (.inl silent)
  have halts : (haltIfSilent playback.source).playing = false := by
    simp only [haltIfSilent, buffer, Option.any_map]
    exact (congrArg (playback.source.playing && ·) silent).trans (Bool.and_false _)
  rw [halted, run_audio_idle rfl, rendering, none]
  refine ⟨message, rfl, ?_, renderer⟩
  exact (congrArg (fun playing => { threads.source decoded playback.source with playing := playing })
    halts.symm).trans (congrArg (fun source => ({ source with
      playing := (haltIfSilent playback.source).playing } : BufferPlaybackSource)) source)

/-- A block that may not play returns at once. -/
theorem represents_paused {buffer : Buffer} (active : threads.memory.activeBuffer = some buffer)
    (sampled : (decoded buffer).numSamples ≠ 0)
    (none : audible playback.source playback.renderer threads.audio.numOutput = none) (count : ℕ) :
    (Machine.run (step decoded fl outputLatencyFrames) threads
      (List.replicate (count + 2) .audio)).Represents decoded
        (rendering fl playback threads.audio.numOutput) := by
  have found : playback.source.activeBuffer = some (decoded buffer) := by
    rw [congrArg BufferPlaybackSource.activeBuffer source.symm]
    exact congrArg (Option.map decoded) active
  have playing : playback.source.playing = threads.memory.playing :=
    congrArg BufferPlaybackSource.playing source.symm
  have waits : ({ threads with audio := { threads.audio with
      audio := some buffer, pc := .readPlaying } } : Threads Buffer).stepAudio decoded fl
        outputLatencyFrames =
      { threads with audio := { threads.audio with audio := Option.none, pc := .idle } } := by
    simp only [stepAudio]
    apply if_neg
    rintro ⟨plays, _, some, capacity, fits⟩
    rw [renderer] at capacity fits
    rw [audible_of_ready found sampled ⟨playing.trans plays, some, capacity, fits⟩] at none
    cases none
  rw [run_audio_succ, stepAudio_found pc active sampled, run_audio_succ, waits, run_audio_idle rfl,
    rendering, none, haltIfSilent_of_samples found sampled]
  exact ⟨message, rfl, source, renderer⟩

theorem represents_played {buffer : Buffer} (active : threads.memory.activeBuffer = some buffer)
    (heard : audible playback.source playback.renderer threads.audio.numOutput =
      some (decoded buffer)) (count : ℕ) :
    (Machine.run (step decoded fl outputLatencyFrames) threads
      (List.replicate (count + 11) .audio)).Represents decoded
        (rendering fl playback threads.audio.numOutput) := by
  obtain ⟨_, sampled, plays, some, capacity, fits⟩ := audible_some heard
  have playing : threads.memory.playing = true :=
    (congrArg BufferPlaybackSource.playing source).trans plays
  have starts : ({ threads with audio := { threads.audio with
      audio := .some buffer, pc := .readPlaying } } : Threads Buffer).stepAudio decoded fl
        outputLatencyFrames =
      { threads with audio := { threads.audio with audio := .some buffer, pc := .readRate } } := by
    have samples : ((Option.some buffer).any
        fun buffer => (decoded buffer).numSamples != 0) = true := by
      rw [Option.any_some, bne_iff_ne]
      exact sampled
    simp only [stepAudio]
    rw [← renderer] at capacity fits
    exact if_pos ⟨playing, samples, some, capacity, fits⟩
  let block : AudioThread Buffer := { threads.audio with
    audio := .some buffer
    pc := .readPosition
    rate := threads.memory.rate
    repeats := threads.memory.repeats
    loopSlot := threads.memory.activeLoopSlot
    loop := threads.memory.loopSlots threads.memory.activeLoopSlot }
  let after := renderBlock fl (block.read threads.memory.positionSamples) threads.audio.renderer
    (decoded buffer) threads.audio.numOutput
  have same : renderBlock fl playback.source playback.renderer (decoded buffer)
      threads.audio.numOutput = ({ playback.source with
        playing := after.1.playing, positionSamples := after.1.positionSamples }, after.2) := by
    rw [← renderer]
    have rate : threads.memory.rate = playback.source.rate :=
      congrArg BufferPlaybackSource.rate source
    have repeats : threads.memory.repeats = playback.source.repeats :=
      congrArg BufferPlaybackSource.repeats source
    have loop : block.loop = playback.source.activeLoop :=
      congrArg BufferPlaybackSource.activeLoop source
    have position : threads.memory.positionSamples = playback.source.positionSamples :=
      congrArg BufferPlaybackSource.positionSamples source
    exact @renderBlock_congr fl (block.read threads.memory.positionSamples) playback.source
      plays.symm rate repeats loop position _ _ _
  have stored : Machine.run (step decoded fl outputLatencyFrames)
      ⟨threads.memory, threads.message, block⟩ (List.replicate (count + 3) .audio) =
        ⟨{ threads.memory with
            playing := after.1.playing, positionSamples := after.1.positionSamples },
          threads.message, { block with
            audio := none, pc := .idle, position := after.1.positionSamples, renderer := after.2 }⟩ := by
    have left : (⟨threads.memory, threads.message, block⟩ : Threads Buffer).stepAudio decoded fl
          outputLatencyFrames =
        ⟨threads.memory, threads.message, { block with
          pc := if after.1.playing then .storePosition else .storeStopped
          position := after.1.positionSamples
          renderer := after.2 }⟩ := rfl
    rw [run_audio_succ, left]
    cases stays : after.1.playing with
    | true =>
        rw [run_audio_succ]
        apply (run_audio_idle (by rfl) _).trans
        exact congrArg (fun plays => (⟨{ threads.memory with
          playing := plays, positionSamples := after.1.positionSamples }, threads.message,
          { block with
            audio := none, pc := .idle, position := after.1.positionSamples,
            renderer := after.2 }⟩ : Threads Buffer)) playing
    | false =>
        rw [run_audio_succ, run_audio_succ]
        exact run_audio_idle (by rfl) _
  rw [run_audio_succ, stepAudio_found pc active sampled, run_audio_succ, starts,
    run_reads _ _ _ rfl, stored, rendering, heard]
  dsimp only
  rw [same]
  refine ⟨message, rfl, ?_, rfl⟩
  exact congrArg (fun source => ({ source with
    playing := after.1.playing, positionSamples := after.1.positionSamples } :
      BufferPlaybackSource)) source

/-- From the buffer on a block renders it, or leaves it. -/
theorem represents_rendering (count : ℕ) :
    (Machine.run (step decoded fl outputLatencyFrames) threads
      (List.replicate (count + 11) .audio)).Represents decoded
        (rendering fl playback threads.audio.numOutput) := by
  cases samples : threads.memory.activeBuffer.any
      fun buffer => (decoded buffer).numSamples != 0 with
  | false => exact represents_silent source renderer message pc samples (count + 8)
  | true =>
      obtain ⟨buffer, active, sampled⟩ := (Option.any_eq_true _ _).mp samples
      rw [bne_iff_ne] at sampled
      cases heard : audible playback.source playback.renderer threads.audio.numOutput with
      | none => exact represents_paused source renderer message pc active sampled heard (count + 9)
      | some audio =>
          have found : playback.source.activeBuffer = some (decoded buffer) := by
            rw [congrArg BufferPlaybackSource.activeBuffer source.symm]
            exact congrArg (Option.map decoded) active
          have own : audio = decoded buffer :=
            Option.some.inj ((audible_some heard).1.symm.trans found)
          exact represents_played source renderer message pc active (own ▸ heard) count

end Rendering

/-- A block takes the requests, the seek only if it is flagged. -/
theorem run_requests (memory : Memory Buffer) (message : MessageThread Buffer)
    (audio : AudioThread Buffer) (pc : audio.pc = .exchangeStretcherReset) (count : ℕ) :
    ∃ seekSamples spare, Machine.run (step decoded fl outputLatencyFrames) ⟨memory, message, audio⟩
        (List.replicate (count + 5) .audio) =
      Machine.run (step decoded fl outputLatencyFrames)
        ⟨{ memory with
            forceStretcherReset := false
            positionSamples :=
              if memory.seekPending then memory.pendingSeekSamples else memory.positionSamples
            seekPending := false }, message,
          { audio with
            pc := .readActiveBuffer
            seekSamples := seekSamples
            renderer := (takeRequests outputLatencyFrames
              { BufferPlaybackSource.initial with
                forceStretcherReset := memory.forceStretcherReset } audio.renderer).2 }⟩
        (List.replicate (count + spare) .audio) := by
  obtain ⟨_, renderer, numOutput, seekSamples, buffer, rate, repeats, loopSlot, loop, position⟩ :=
    audio
  obtain rfl := pc
  obtain ⟨playing, memoryRate, memoryRepeats, positionSamples, pendingSeekSamples, seekPending,
    forceStretcherReset, loopSlots, activeLoopSlot, activeBuffer, renderGeneration⟩ := memory
  cases seekPending with
  | true => exact ⟨pendingSeekSamples, 0, rfl⟩
  | false => exact ⟨seekSamples, 3, rfl⟩

theorem step_eq_rendering (playback : Playback) (numOutput : ℕ) :
    (playback.step fl outputLatencyFrames (.block numOutput)).1 =
      rendering fl (playback.afterRequests outputLatencyFrames) numOutput := by
  rcases playback.step_block fl outputLatencyFrames numOutput with
    ⟨audio, heard, done⟩ | ⟨silent, done⟩
  · rw [done, rendering, heard]
  · rw [done, rendering, silent]

/-- A block that is not interrupted does to the source what it does as a whole. -/
theorem Represents.block (represents : threads.Represents decoded playback) (numOutput : ℕ) :
    (Machine.run (step decoded fl outputLatencyFrames) threads
      (Activity.block numOutput).turns).Represents decoded
        (playback.step fl outputLatencyFrames (.block numOutput)).1 := by
  obtain ⟨message, audio, source, renderer⟩ := represents
  let started : Memory Buffer := { threads.memory with
    renderGeneration := threads.memory.renderGeneration + 1 }
  have begun : Machine.run (step decoded fl outputLatencyFrames) threads
      (Activity.block numOutput).turns =
        Machine.run (step decoded fl outputLatencyFrames)
          ⟨started, threads.message, { threads.audio with
            pc := .exchangeStretcherReset, numOutput := numOutput }⟩
          (List.replicate (11 + 5) .audio) := by
    simp only [Activity.turns, Machine.run, step, if_pos audio]
    rfl
  obtain ⟨seekSamples, spare, taken⟩ := @run_requests Buffer decoded fl outputLatencyFrames started
    threads.message { threads.audio with
      pc := .exchangeStretcherReset, numOutput := numOutput } rfl 11
  rw [begun, taken, step_eq_rendering, Nat.add_comm]
  refine represents_rendering ?_ ?_ ?_ ?_ spare
  · exact congrArg (fun source => (takeRequests outputLatencyFrames source playback.renderer).1)
      source
  · have flag : threads.memory.forceStretcherReset = playback.source.forceStretcherReset :=
      congrArg BufferPlaybackSource.forceStretcherReset source
    simp only [started, Playback.afterRequests, takeRequests, flag, renderer]
  · exact message
  · rfl

theorem Represents.activity (represents : threads.Represents decoded playback)
    (activity : Activity Buffer) :
    (Machine.run (step decoded fl outputLatencyFrames) threads activity.turns).Represents decoded
      (playback.step fl outputLatencyFrames (activity.event decoded)).1 := by
  cases activity with
  | call made => exact represents.call made
  | block numOutput => exact represents.block numOutput
  | prepareToPlay samplesPerBlockExpected sampleRate =>
      obtain ⟨message, audio, source, renderer⟩ := represents
      simp only [Activity.turns, Machine.run, step, if_pos audio]
      exact ⟨message, audio, source, congrArg
        (Renderer.prepareToPlay · samplesPerBlockExpected sampleRate) renderer⟩

/-!
## Whole runs
-/

/-- Threads that never interrupt each other keep to the playback whose calls and blocks are
taken as a whole. -/
theorem represents_run (activities : List (Activity Buffer)) :
    (Machine.run (step decoded fl outputLatencyFrames) {}
      (activities.flatMap Activity.turns)).Represents decoded
        (Machine.run (Playback.step fl outputLatencyFrames) {}
          (activities.map (Activity.event decoded))) := by
  induction activities using List.reverseRecOn with
  | nil => exact represents_initial
  | append_singleton earlier activity ih =>
      rw [List.flatMap_append, List.map_append, Machine.run_append, List.map_singleton,
        Machine.run_concat, List.flatMap_singleton]
      exact ih.activity activity

end Runs

end Threads

end DjApp.Engine
