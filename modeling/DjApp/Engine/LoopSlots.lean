import DjApp.Engine.Interleaving
import DjApp.Library.Machine

/-! The two loop slots: a block copies the slot that was active, field by field, while the
message thread writes the other one. One publication during a copy leaves it whole; the second
one writes into the slot that is being copied. -/

set_option autoImplicit false

namespace DjApp.Engine

open Library

/-!
## Publications and copies
-/

/-- A field of the inactive slot is written next. -/
def MessagePc.writesLoop : MessagePc → Bool
  | .writeActive | .writeInSamples | .writeOutSamples => true
  | _ => false

/-- The slot index has been read, and a field of the slot is read next. -/
def AudioPc.copiesLoop : AudioPc → Bool
  | .readActive | .readInSamples | .readOutSamples => true
  | _ => false

/-- The block has found a decoded track to play. -/
def AudioPc.plays : AudioPc → Bool
  | .readRate | .readRepeat | .readLoopSlot | .readActive | .readInSamples | .readOutSamples => true
  | _ => false

namespace Threads

variable {Buffer : Type} {decoded : Buffer → LoadedAudio} {fl : ℚ → ℚ} {outputLatencyFrames : ℚ → ℕ}
  {threads : Threads Buffer}

abbrev Row (Buffer : Type) := Machine.Entry (Threads Buffer) (Turn Buffer) Unit

/-- The loop that a turn makes the active one. -/
def publishes (row : Row Buffer) : Option LoopState :=
  match row.input with
  | .message =>
      if row.before.message.pc = .publishLoopSlot then some row.before.message.loopState else none
  | _ => none

def publishedLoops (rows : List (Row Buffer)) : List LoopState := rows.filterMap publishes

def copied (row : Row Buffer) : Option LoopState :=
  match row.input with
  | .audio => if row.before.audio.pc = .readOutSamples then some row.after.audio.loop else none
  | _ => none

/-- A field is written into the slot that a block is copying. -/
def Overwrites (row : Row Buffer) : Prop :=
  row.input = .message ∧ row.before.message.pc.writesLoop = true ∧
    row.before.audio.pc.copiesLoop = true ∧
    row.before.message.inactiveLoopSlot = row.before.audio.loopSlot

/-- A loop that has been published, or the one that the slots start with. -/
def Known (rows : List (Row Buffer)) (loop : LoopState) : Prop :=
  loop ∈ publishedLoops rows ∨ loop = {}

theorem publishedLoops_concat (rows : List (Row Buffer)) (row : Row Buffer) :
    publishedLoops (rows ++ [row]) = publishedLoops rows ++ (publishes row).toList := by
  rw [publishedLoops, List.filterMap_append]
  cases published : publishes row with
  | none => simp [publishedLoops, published]
  | some loop => simp [publishedLoops, published]

theorem mem_publishedLoops_concat {rows : List (Row Buffer)} {loop : LoopState}
    (published : loop ∈ publishedLoops rows) (row : Row Buffer) :
    loop ∈ publishedLoops (rows ++ [row]) := by
  rw [publishedLoops_concat]
  exact List.mem_append_left _ published

theorem Known.concat {rows : List (Row Buffer)} {loop : LoopState} (known : Known rows loop)
    (row : Row Buffer) : Known (rows ++ [row]) loop :=
  known.imp (fun published => mem_publishedLoops_concat published row) id

/-!
## Slots that are whole
-/

/-- What the message thread has written of the loop it is about to publish. -/
structure Writing (threads : Threads Buffer) : Prop where
  apart : threads.message.pc.writesLoop = true ∨ threads.message.pc = .publishLoopSlot →
    threads.message.inactiveLoopSlot ≠ threads.memory.activeLoopSlot
  active : threads.message.pc = .writeInSamples ∨ threads.message.pc = .writeOutSamples ∨
      threads.message.pc = .publishLoopSlot →
    (threads.memory.loopSlots threads.message.inactiveLoopSlot).active =
      threads.message.loopState.active
  inSamples : threads.message.pc = .writeOutSamples ∨ threads.message.pc = .publishLoopSlot →
    (threads.memory.loopSlots threads.message.inactiveLoopSlot).inSamples =
      threads.message.loopState.inSamples
  outSamples : threads.message.pc = .publishLoopSlot →
    (threads.memory.loopSlots threads.message.inactiveLoopSlot).outSamples =
      threads.message.loopState.outSamples
  load : threads.message.loading = true → threads.message.loopState = {}

/-- What the block in flight has copied of the slot it reads. -/
structure Copying (rows : List (Row Buffer)) (threads : Threads Buffer) : Prop where
  known : threads.audio.pc.copiesLoop = true →
    Known rows (threads.memory.loopSlots threads.audio.loopSlot)
  active : threads.audio.pc = .readInSamples ∨ threads.audio.pc = .readOutSamples →
    threads.audio.loop.active = (threads.memory.loopSlots threads.audio.loopSlot).active
  inSamples : threads.audio.pc = .readOutSamples →
    threads.audio.loop.inSamples = (threads.memory.loopSlots threads.audio.loopSlot).inSamples

/-- A track is only seen after its load has published a cleared loop. -/
structure Cleared (rows : List (Row Buffer)) (threads : Threads Buffer) : Prop where
  storing : threads.message.pc = .storeActiveBuffer → {} ∈ publishedLoops rows
  active : threads.memory.activeBuffer ≠ none → {} ∈ publishedLoops rows
  inUse : threads.audio.audio ≠ none → {} ∈ publishedLoops rows
  plays : threads.audio.pc.plays = true → threads.audio.audio ≠ none

structure Whole (rows : List (Row Buffer)) (threads : Threads Buffer) : Prop where
  slot : Known rows (threads.memory.loopSlots threads.memory.activeLoopSlot)
  writing : threads.Writing
  copying : Copying rows threads
  cleared : Cleared rows threads

theorem whole_initial : Whole [] ({} : Threads Buffer) where
  slot := .inr rfl
  writing :=
    { apart := by simp [MessagePc.writesLoop]
      active := by simp
      inSamples := by simp
      outSamples := by simp
      load := fun _ => rfl }
  copying :=
    { known := by simp [AudioPc.copiesLoop]
      active := by simp
      inSamples := by simp }
  cleared :=
    { storing := nofun
      active := fun some => absurd rfl some
      inUse := fun some => absurd rfl some
      plays := nofun }

section Frame

variable {rows : List (Row Buffer)} {after : Threads Buffer}

theorem Whole.concat (whole : Whole rows threads) (row : Row Buffer) :
    Whole (rows ++ [row]) threads where
  slot := whole.slot.concat row
  writing := whole.writing
  copying :=
    { whole.copying with known := fun copies => (whole.copying.known copies).concat row }
  cleared :=
    { whole.cleared with
      storing := fun pc => mem_publishedLoops_concat (whole.cleared.storing pc) row
      active := fun some => mem_publishedLoops_concat (whole.cleared.active some) row
      inUse := fun some => mem_publishedLoops_concat (whole.cleared.inUse some) row }

theorem copying_of_slots (copying : Copying rows threads) (audio : after.audio = threads.audio)
    (same : threads.audio.pc.copiesLoop = true →
      after.memory.loopSlots threads.audio.loopSlot =
        threads.memory.loopSlots threads.audio.loopSlot) : Copying rows after := by
  obtain ⟨known, active, inSamples⟩ := copying
  refine ⟨?_, ?_, ?_⟩
  · intro copies
    rw [audio] at copies ⊢
    rw [same copies]
    exact known copies
  · intro pc
    rw [audio] at pc ⊢
    rw [same (by rcases pc with pc | pc <;> rw [pc] <;> rfl)]
    exact active pc
  · intro pc
    rw [audio] at pc ⊢
    rw [same (by rw [pc]; rfl)]
    exact inSamples pc

theorem Cleared.of_audio (cleared : Cleared rows threads) (audio : after.audio = threads.audio)
    (buffer : after.memory.activeBuffer = threads.memory.activeBuffer)
    (pc : after.message.pc ≠ .storeActiveBuffer) : Cleared rows after where
  storing storing := absurd storing pc
  active := by
    rw [buffer]
    exact cleared.active
  inUse := by
    rw [audio]
    exact cleared.inUse
  plays := by
    rw [audio]
    exact cleared.plays

/-- A step of the message thread that touches neither loop slot nor the buffer. -/
theorem Whole.of_memory (whole : Whole rows threads) (audio : after.audio = threads.audio)
    (slots : after.memory.loopSlots = threads.memory.loopSlots)
    (index : after.memory.activeLoopSlot = threads.memory.activeLoopSlot)
    (buffer : after.memory.activeBuffer = threads.memory.activeBuffer)
    (writing : after.Writing) (pc : after.message.pc ≠ .storeActiveBuffer) : Whole rows after where
  slot := by
    rw [slots, index]
    exact whole.slot
  writing := writing
  copying := copying_of_slots whole.copying audio fun _ => by rw [slots]
  cleared := whole.cleared.of_audio audio buffer pc

/-- A write into the slot that is neither active nor being copied. -/
theorem Whole.of_write {state : LoopState} (whole : Whole rows threads)
    (writes : threads.message.pc.writesLoop = true) (audio : after.audio = threads.audio)
    (slots : after.memory.loopSlots =
      Function.update threads.memory.loopSlots threads.message.inactiveLoopSlot state)
    (index : after.memory.activeLoopSlot = threads.memory.activeLoopSlot)
    (buffer : after.memory.activeBuffer = threads.memory.activeBuffer)
    (writing : after.Writing) (pc : after.message.pc ≠ .storeActiveBuffer)
    (elsewhere : threads.audio.pc.copiesLoop = true →
      threads.message.inactiveLoopSlot ≠ threads.audio.loopSlot) : Whole rows after where
  slot := by
    rw [slots, index, Function.update_of_ne (whole.writing.apart (.inl writes)).symm]
    exact whole.slot
  writing := writing
  copying := copying_of_slots whole.copying audio fun copies => by
    rw [slots, Function.update_of_ne (elsewhere copies).symm]
  cleared := whole.cleared.of_audio audio buffer pc

end Frame

theorem inactive_ne (slot : Fin 2) : 1 - slot ≠ slot := by
  revert slot
  decide

theorem writing_of_other {after : Threads Buffer} (quiet : after.message.pc.writesLoop = false)
    (unpublished : after.message.pc ≠ .publishLoopSlot)
    (load : after.message.loading = true → after.message.loopState = {}) : after.Writing := by
  refine ⟨fun pc => ?_, fun pc => ?_, fun pc => ?_, fun pc => absurd pc unpublished, load⟩
  · rcases pc with writes | pc
    · rw [quiet] at writes
      cases writes
    · exact absurd pc unpublished
  · rcases pc with pc | pc | pc
    · rw [pc] at quiet
      cases quiet
    · rw [pc] at quiet
      cases quiet
    · exact absurd pc unpublished
  · rcases pc with pc | pc
    · rw [pc] at quiet
      cases quiet
    · exact absurd pc unpublished

theorem Whole.call {rows : List (Row Buffer)} (whole : Whole rows threads)
    (idle : threads.message.pc = .idle) (call : MessageCall Buffer) :
    Whole rows (threads.call decoded call) := by
  cases call with
  | load audio =>
      exact whole.of_memory rfl rfl rfl rfl (writing_of_other rfl nofun fun _ => rfl) nofun
  | setLoop loop =>
      refine whole.of_memory rfl rfl rfl rfl ⟨fun _ => inactive_ne _, ?_, ?_, nofun, nofun⟩ nofun
      · intro pc
        rcases pc with pc | pc | pc <;> cases pc
      · intro pc
        rcases pc with pc | pc <;> cases pc
  | requestSeek seconds =>
      simp only [Threads.call]
      split
      · exact whole.of_memory rfl rfl rfl rfl (writing_of_other rfl nofun nofun) nofun
      · exact whole.of_memory rfl rfl rfl rfl (writing_of_other rfl nofun nofun) nofun
  | setPlaying | setPlaybackRate | setRepeat =>
      refine whole.of_memory rfl rfl rfl rfl (writing_of_other ?_ ?_ whole.writing.load) ?_
      · simp only [Threads.call, idle, MessagePc.writesLoop]
      · simp only [Threads.call, idle]
        exact nofun
      · simp only [Threads.call, idle]
        exact nofun

/-!
## Steps of the two threads
-/

section Step

variable {rows : List (Row Buffer)}

theorem Whole.stepMessage (whole : Whole rows threads)
    (published : threads.message.pc = .publishLoopSlot →
      threads.message.loopState ∈ publishedLoops rows)
    (elsewhere : threads.message.pc.writesLoop = true → threads.audio.pc.copiesLoop = true →
      threads.message.inactiveLoopSlot ≠ threads.audio.loopSlot) :
    Whole rows (threads.stepMessage decoded) := by
  obtain ⟨apart, active, inSamples, outSamples, load⟩ := whole.writing
  cases pc : threads.message.pc with
  | idle =>
      simp only [Threads.stepMessage, pc]
      exact whole
  | storeStretcherReset | storePendingSeek =>
      simp only [Threads.stepMessage, pc]
      exact whole.of_memory rfl rfl rfl rfl (writing_of_other rfl nofun load) nofun
  | raiseSeekPending =>
      simp only [Threads.stepMessage, pc]
      cases loading : threads.message.loading with
      | false =>
          rw [loading] at load
          exact whole.of_memory rfl rfl rfl rfl (writing_of_other rfl nofun load) nofun
      | true =>
          rw [loading] at load
          exact whole.of_memory rfl rfl rfl rfl (writing_of_other rfl nofun load) nofun
  | readLoopSlot =>
      simp only [Threads.stepMessage, pc]
      refine whole.of_memory rfl rfl rfl rfl ⟨fun _ => inactive_ne _, ?_, ?_, nofun, load⟩ nofun
      · intro later
        rcases later with later | later | later <;> cases later
      · intro later
        rcases later with later | later <;> cases later
  | writeActive =>
      have writes : threads.message.pc.writesLoop = true := by rw [pc]; rfl
      simp only [Threads.stepMessage, pc]
      refine whole.of_write writes rfl rfl rfl rfl ⟨fun _ => apart (.inl writes), fun _ => ?_, ?_,
        nofun, load⟩ nofun (elsewhere writes)
      · simp
      · intro later
        rcases later with later | later <;> cases later
  | writeInSamples =>
      have writes : threads.message.pc.writesLoop = true := by rw [pc]; rfl
      simp only [Threads.stepMessage, pc]
      refine whole.of_write writes rfl rfl rfl rfl ⟨fun _ => apart (.inl writes), fun _ => ?_,
        fun _ => ?_, nofun, load⟩ nofun (elsewhere writes)
      · simpa using active (.inl pc)
      · simp
  | writeOutSamples =>
      have writes : threads.message.pc.writesLoop = true := by rw [pc]; rfl
      simp only [Threads.stepMessage, pc]
      refine whole.of_write writes rfl rfl rfl rfl ⟨fun _ => apart (.inl writes), fun _ => ?_,
        fun _ => ?_, fun _ => ?_, load⟩ nofun (elsewhere writes)
      · simpa using active (.inr (.inl pc))
      · simpa using inSamples (.inl pc)
      · simp
  | publishLoopSlot =>
      have written : threads.memory.loopSlots threads.message.inactiveLoopSlot =
          threads.message.loopState := by
        have first := active (.inr (.inr pc))
        have second := inSamples (.inr pc)
        have third := outSamples pc
        cases slot : threads.memory.loopSlots threads.message.inactiveLoopSlot
        cases state : threads.message.loopState
        rw [slot, state] at first second third
        simp_all
      have known : Known rows (threads.memory.loopSlots threads.message.inactiveLoopSlot) := by
        rw [written]
        exact .inl (published pc)
      simp only [Threads.stepMessage, pc]
      cases loading : threads.message.loading with
      | false =>
          rw [loading] at load
          exact ⟨known, writing_of_other rfl nofun load, copying_of_slots whole.copying rfl
            fun _ => rfl, ⟨nofun, whole.cleared.active, whole.cleared.inUse, whole.cleared.plays⟩⟩
      | true =>
          have cleared := published pc
          rw [load loading] at cleared
          rw [loading] at load
          exact ⟨known, writing_of_other rfl nofun load, copying_of_slots whole.copying rfl
            fun _ => rfl, ⟨fun _ => cleared, whole.cleared.active, whole.cleared.inUse,
              whole.cleared.plays⟩⟩
  | storeActiveBuffer =>
      have cleared := whole.cleared.storing pc
      simp only [Threads.stepMessage, pc]
      exact ⟨whole.slot, writing_of_other rfl nofun load, copying_of_slots whole.copying rfl
        fun _ => rfl,
        ⟨nofun, fun _ => cleared, whole.cleared.inUse, whole.cleared.plays⟩⟩
  | readGeneration =>
      simp only [Threads.stepMessage, pc]
      exact whole.of_memory rfl rfl rfl rfl (writing_of_other rfl nofun load) nofun
  | retireCurrentBuffer =>
      simp only [Threads.stepMessage, pc]
      exact whole.of_memory rfl rfl rfl rfl (writing_of_other rfl nofun nofun) nofun

/-- A step of the audio thread, in terms of what it leaves of its block. -/
theorem Whole.of_audio {after : Threads Buffer} (whole : Whole rows threads)
    (message : after.message = threads.message)
    (slots : after.memory.loopSlots = threads.memory.loopSlots)
    (index : after.memory.activeLoopSlot = threads.memory.activeLoopSlot)
    (buffer : after.memory.activeBuffer = threads.memory.activeBuffer)
    (copying : Copying rows after)
    (inUse : after.audio.audio ≠ none →
      threads.audio.audio ≠ none ∨ threads.memory.activeBuffer ≠ none)
    (plays : after.audio.pc.plays = true → after.audio.audio ≠ none) : Whole rows after where
  slot := by
    rw [slots, index]
    exact whole.slot
  writing := by
    obtain ⟨apart, active, inSamples, outSamples, load⟩ := whole.writing
    refine ⟨?_, ?_, ?_, ?_, ?_⟩ <;> rw [message] <;> simpa only [slots, index]
  copying := copying
  cleared :=
    { storing := by rw [message]; exact whole.cleared.storing
      active := by rw [buffer]; exact whole.cleared.active
      inUse := fun some => (inUse some).elim whole.cleared.inUse whole.cleared.active
      plays := plays }

/-- A program counter from which nothing of the loop has been copied yet, or all of it. -/
theorem copying_of_quiet {after : Threads Buffer} (quiet : after.audio.pc.copiesLoop = false) :
    Copying rows after := by
  refine ⟨fun copies => ?_, fun pc => ?_, fun pc => ?_⟩
  · rw [quiet] at copies
    cases copies
  · rcases pc with pc | pc <;> rw [pc] at quiet <;> cases quiet
  · rw [pc] at quiet
    cases quiet

theorem Whole.stepAudio (whole : Whole rows threads) :
    Whole rows (threads.stepAudio decoded fl outputLatencyFrames) := by
  obtain ⟨known, active, inSamples⟩ := whole.copying
  have plays := whole.cleared.plays
  cases pc : threads.audio.pc with
  | idle =>
      simp only [Threads.stepAudio, pc]
      exact whole
  | exchangeStretcherReset | readPendingSeek | storeSeek | clearSeekPending | storeSilent
  | storeStopped =>
      simp only [Threads.stepAudio, pc]
      exact whole.of_audio rfl rfl rfl rfl (copying_of_quiet rfl) .inl nofun
  | readSeekPending =>
      simp only [Threads.stepAudio, pc]
      cases threads.memory.seekPending with
      | false => exact whole.of_audio rfl rfl rfl rfl (copying_of_quiet rfl) .inl nofun
      | true => exact whole.of_audio rfl rfl rfl rfl (copying_of_quiet rfl) .inl nofun
  | readActiveBuffer =>
      simp only [Threads.stepAudio, pc]
      split
      · exact whole.of_audio rfl rfl rfl rfl (copying_of_quiet rfl) .inr nofun
      · exact whole.of_audio rfl rfl rfl rfl (copying_of_quiet rfl) .inr nofun
  | readPlaying =>
      simp only [Threads.stepAudio, pc]
      split
      · rename_i going
        refine whole.of_audio rfl rfl rfl rfl (copying_of_quiet rfl) .inl fun _ empty => ?_
        have heard := going.2.1
        rw [show threads.audio.audio = none from empty] at heard
        cases heard
      · exact whole.of_audio rfl rfl rfl rfl (copying_of_quiet rfl) (fun some => absurd rfl some)
          nofun
  | readRate | readRepeat =>
      have used := plays (by rw [pc]; rfl)
      simp only [Threads.stepAudio, pc]
      exact whole.of_audio rfl rfl rfl rfl (copying_of_quiet rfl) .inl fun _ => used
  | readLoopSlot =>
      have used := plays (by rw [pc]; rfl)
      simp only [Threads.stepAudio, pc]
      refine whole.of_audio rfl rfl rfl rfl ⟨fun _ => whole.slot, fun next => ?_, nofun⟩ .inl
        fun _ => used
      rcases next with next | next <;> cases next
  | readActive =>
      have used := plays (by rw [pc]; rfl)
      have copies := known (by rw [pc]; rfl)
      simp only [Threads.stepAudio, pc]
      exact whole.of_audio rfl rfl rfl rfl ⟨fun _ => copies, fun _ => rfl, nofun⟩ .inl fun _ => used
  | readInSamples =>
      have used := plays (by rw [pc]; rfl)
      have copies := known (by rw [pc]; rfl)
      simp only [Threads.stepAudio, pc]
      exact whole.of_audio rfl rfl rfl rfl ⟨fun _ => copies, fun _ => active (.inl pc), fun _ => rfl⟩
        .inl fun _ => used
  | readOutSamples =>
      simp only [Threads.stepAudio, pc]
      exact whole.of_audio rfl rfl rfl rfl (copying_of_quiet rfl) .inl nofun
  | readPosition =>
      simp only [Threads.stepAudio, pc]
      cases used : threads.audio.audio with
      | none =>
          exact whole.of_audio rfl rfl rfl rfl (copying_of_quiet rfl) (fun some => absurd rfl some)
            nofun
      | some buffer =>
          dsimp only
          split
          · exact whole.of_audio rfl rfl rfl rfl (copying_of_quiet rfl)
              (fun _ => .inl (by rw [used]; exact nofun)) nofun
          · exact whole.of_audio rfl rfl rfl rfl (copying_of_quiet rfl)
              (fun _ => .inl (by rw [used]; exact nofun)) nofun
  | storePosition =>
      simp only [Threads.stepAudio, pc]
      exact whole.of_audio rfl rfl rfl rfl (copying_of_quiet rfl) (fun some => absurd rfl some) nofun

/-- The copy that a block completes is a published loop. -/
theorem Whole.copied (whole : Whole rows threads) {loop : LoopState} :
    let row := Machine.entry (step decoded fl outputLatencyFrames) threads .audio
    Threads.copied row = some loop → loop ∈ publishedLoops rows := by
  intro row copy
  have pc : threads.audio.pc = .readOutSamples := by
    by_contra other
    rw [show Threads.copied row = none from if_neg other] at copy
    cases copy
  have same : row.after.audio.loop = loop := by
    rw [show Threads.copied row = some row.after.audio.loop from if_pos pc] at copy
    exact Option.some.inj copy
  obtain ⟨known, active, inSamples⟩ := whole.copying
  have cleared := whole.cleared.inUse (whole.cleared.plays (by rw [pc]; rfl))
  have read : row.after.audio.loop = threads.memory.loopSlots threads.audio.loopSlot := by
    simp only [row, Machine.entry, Threads.step, Threads.stepAudio, pc, active (.inr pc),
      inSamples pc]
  rw [← same, read]
  rcases known (by rw [pc]; rfl) with published | initial
  · exact published
  · rw [initial]
    exact cleared

theorem Whole.turn (whole : Whole rows threads) (turn : Turn Buffer)
    (published : turn = .message → threads.message.pc = .publishLoopSlot →
      threads.message.loopState ∈ publishedLoops rows)
    (elsewhere : turn = .message → threads.message.pc.writesLoop = true →
      threads.audio.pc.copiesLoop = true →
        threads.message.inactiveLoopSlot ≠ threads.audio.loopSlot) :
    Whole rows (threads.step decoded fl outputLatencyFrames turn).1 := by
  cases turn with
  | call call =>
      simp only [Threads.step]
      split
      · rename_i idle
        exact whole.call idle call
      · exact whole
  | message => exact whole.stepMessage (published rfl) (elsewhere rfl)
  | prepareToPlay =>
      simp only [Threads.step]
      split
      · rename_i idle
        have quiet : threads.audio.pc.copiesLoop = false := by rw [idle]; rfl
        exact whole.of_audio rfl rfl rfl rfl (copying_of_quiet quiet) .inl whole.cleared.plays
      · exact whole
  | block numOutput =>
      simp only [Threads.step]
      split
      · exact whole.of_audio rfl rfl rfl rfl (copying_of_quiet rfl) .inl nofun
      · exact whole
  | audio => exact whole.stepAudio

theorem Whole.step (whole : Whole rows threads) (turn : Turn Buffer) :
    let row := Machine.entry (step decoded fl outputLatencyFrames) threads turn
    ¬ Overwrites row → Whole (rows ++ [row]) row.after := by
  intro row apart
  refine (whole.concat row).turn turn (fun message pc => ?_) fun message writes copies same => ?_
  · subst message
    rw [publishedLoops_concat, show publishes row = some threads.message.loopState from if_pos pc]
    exact List.mem_append_right _ (List.mem_singleton_self _)
  · exact apart ⟨message, writes, copies, same⟩

end Step

/-- In every run in which no field of a slot is written while a block is copying that slot,
every loop that a block ends up with is one that `setLoop` or `load` published. -/
theorem copied_mem_published (decoded : Buffer → LoadedAudio) (fl : ℚ → ℚ)
    (outputLatencyFrames : ℚ → ℕ) (turns : List (Turn Buffer))
    (apart : ∀ row ∈ Machine.trace (step decoded fl outputLatencyFrames) {} turns,
      ¬ Overwrites row) :
    ∀ earlier row later,
      Machine.trace (step decoded fl outputLatencyFrames) {} turns = earlier ++ row :: later →
      ∀ loop, copied row = some loop → loop ∈ publishedLoops earlier := by
  intro earlier row later shape loop copy
  rw [shape] at apart
  obtain ⟨first, turn, rest, rfl, rfl, rfl, _⟩ := Machine.trace_split _ shape
  have whole := Machine.history_invariant_of (step decoded fl outputLatencyFrames)
    (fun row => ¬ Overwrites row) Whole whole_initial
    (fun history state turn whole apart => whole.step turn apart)
    (fun row member => apart row (List.mem_append_left _ member))
  cases turn with
  | audio => exact whole.copied copy
  | call | message | prepareToPlay | block => cases copy

/-!
## A whole copy and a torn one
-/

section Examples

/-- A call of `load` for a track of ten samples, up to its return. -/
def loadTen : List (Turn Unit) := .call (.load (some ())) :: List.replicate 11 .message

/-- The track is loaded, looped and played, and a block has read that its loop is active. -/
def copyingLoop : List (Turn Unit) :=
  .prepareToPlay 512 44100 :: loadTen ++
    .call (.setLoop (some ⟨0, 1⟩)) :: List.replicate 4 .message ++
    .call (.setPlaying true) :: .block 512 :: List.replicate 11 .audio

def tenSamples : Unit → LoadedAudio := fun _ => .silence 10 44100

def copiedRows : List (Row Unit) :=
  Machine.trace (step tenSamples id 0) {} (copyingLoop ++ [.audio, .audio])

theorem copied_mem_published_whole :
    copiedRows.filterMap copied = [⟨true, 0, 9⟩] ∧
      ∀ earlier row later, copiedRows = earlier ++ row :: later →
        ∀ loop, copied row = some loop → loop ∈ publishedLoops earlier := by
  have quiet : copiedRows.all (fun row =>
      !(row.before.message.pc.writesLoop && row.before.audio.pc.copiesLoop)) = true := by
    decide +kernel
  constructor
  · decide +kernel
  · refine copied_mem_published tenSamples id 0 (copyingLoop ++ [.audio, .audio])
      fun row member overwrites => ?_
    have apart := List.all_eq_true.mp quiet row member
    rw [overwrites.2.1, overwrites.2.2.1] at apart
    cases apart

/-- A second load and a cleared loop, as one delta causes them, publish twice before the block
reads the bounds: it ends up with a loop that is active and has the bounds of the cleared one. -/
theorem copied_torn :
    ¬ ∀ (decoded : Unit → LoadedAudio) (fl : ℚ → ℚ) (outputLatencyFrames : ℚ → ℕ)
      (turns : List (Turn Unit)) earlier row later,
      Machine.trace (step decoded fl outputLatencyFrames) {} turns = earlier ++ row :: later →
      ∀ loop, copied row = some loop → loop ∈ publishedLoops earlier := by
  intro whole
  let turns := copyingLoop ++ loadTen ++ .call (.setLoop none) :: List.replicate 4 .message ++
    [.audio]
  have torn := whole tenSamples id 0 (turns ++ [.audio]) _ _ [] (Machine.trace_concat _ _ _ _)
    ⟨true, 0, 0⟩ (by decide +kernel)
  have unpublished : (⟨true, 0, 0⟩ : LoopState) ∉
      publishedLoops (Machine.trace (step tenSamples id 0) {} turns) := by
    decide +kernel
  exact unpublished torn

end Examples

end Threads

end DjApp.Engine
