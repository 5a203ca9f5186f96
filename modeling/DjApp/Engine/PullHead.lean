import DjApp.Engine.Playback
import DjApp.Library.ReadHead

/-! The true pull head over a run of blocks, in exact arithmetic. A block publishes its
position less the latency, and the next one starts where it had really stopped. -/

set_option autoImplicit false

namespace DjApp.Engine

open Library

/-- What decides the positions of a run of pulled frames. -/
structure Course where
  loop : LoopState
  repeats : Bool
  lastRenderableFrame : ℚ
  ratio : ℚ

namespace Course

variable (course : Course)

def settle (position : ℚ) : ℚ :=
  wrapHead id course.loop course.repeats course.lastRenderableFrame position

def advance (position : ℚ) : ℚ := position + course.ratio

/-- No frame can be rendered here. -/
def Stuck (position : ℚ) : Prop := position < 0 ∨ course.lastRenderableFrame ≤ position

instance : DecidablePred course.Stuck := fun position =>
  inferInstanceAs (Decidable (position < 0 ∨ _))

def headAt (start : ℚ) (count : ℕ) : ℚ := ReadHead.headAt course.settle course.advance start count

def frames (start : ℚ) (count : ℕ) : List ℚ := ReadHead.items course.settle course.advance start count

@[simp] theorem length_frames (start : ℚ) (count : ℕ) :
    (course.frames start count).length = count :=
  ReadHead.length_items _ _ start count

theorem headAt_add (start : ℚ) (first second : ℕ) :
    course.headAt start (first + second) = course.headAt (course.headAt start first) second :=
  ReadHead.headAt_add _ _ start first second

theorem frames_add (start : ℚ) (first second : ℕ) :
    course.frames start (first + second) =
      course.frames start first ++ course.frames (course.headAt start first) second :=
  ReadHead.items_add _ _ start first second

def read (count : ℕ) (start : ℚ) : ReadHead.Reading ℚ :=
  ReadHead.read course.settle course.advance course.Stuck count start

section Rounded

variable (fl : ℚ → ℚ)

/-- Settling and advancing with every operation rounded. -/
def settleIn (position : ℚ) : ℚ :=
  wrapHead fl course.loop course.repeats course.lastRenderableFrame position

def advanceIn (position : ℚ) : ℚ := fl (position + course.ratio)

def readIn (count : ℕ) (start : ℚ) : ReadHead.Reading ℚ :=
  ReadHead.read (course.settleIn fl) (course.advanceIn fl) course.Stuck count start

theorem pullFrom_eq_readIn (count : ℕ) (start : ℚ) :
    pullFrom fl course.loop course.repeats course.lastRenderableFrame course.ratio count start =
      ⟨(course.readIn fl count start).frames, (course.readIn fl count start).head,
        (course.readIn fl count start).ranDry⟩ := by
  induction count generalizing start with
  | zero => rfl
  | succ count ih =>
      have rest := ih (course.advanceIn fl (course.settleIn fl start))
      have unfolded : pullFrom fl course.loop course.repeats course.lastRenderableFrame
          course.ratio (count + 1) start =
          if course.Stuck (course.settleIn fl start) then ⟨[], course.settleIn fl start, true⟩
          else
            let rest := pullFrom fl course.loop course.repeats course.lastRenderableFrame
              course.ratio count (course.advanceIn fl (course.settleIn fl start))
            { rest with frames := course.settleIn fl start :: rest.frames } := rfl
      by_cases blocked : course.Stuck (course.settleIn fl start)
      · have stopped : course.readIn fl (count + 1) start =
            ⟨[], course.settleIn fl start, true⟩ := ReadHead.read_of_stuck _ _ _ blocked
        rw [unfolded, if_pos blocked, stopped]
      · have flows : course.readIn fl (count + 1) start =
            { course.readIn fl count (course.advanceIn fl (course.settleIn fl start)) with
              frames := course.settleIn fl start ::
                (course.readIn fl count (course.advanceIn fl (course.settleIn fl start))).frames } :=
          ReadHead.read_of_free _ _ _ blocked
        rw [unfolded, if_neg blocked, rest, flows]

end Rounded

theorem pullFrom_eq (count : ℕ) (start : ℚ) :
    pullFrom id course.loop course.repeats course.lastRenderableFrame course.ratio count start =
      ⟨(course.read count start).frames, (course.read count start).head,
        (course.read count start).ranDry⟩ :=
  course.pullFrom_eq_readIn id count start

end Course

namespace Playback

/-- Where the next frame is pulled from: the published position and what was taken off it. -/
def pullHead (playback : Playback) : ℚ :=
  playback.source.positionSamples + playback.renderer.lastLaggedSourceFrames

def course (playback : Playback) (audio : LoadedAudio) : Course where
  loop := playback.source.activeLoop
  repeats := playback.source.repeats
  lastRenderableFrame := (audio.numSamples : ℚ) - 1
  ratio := srcToDeviceRatio id playback.renderer audio

/-- Neither a seek nor a reset of the stretcher is waiting for the next block. -/
structure NothingAsked (playback : Playback) : Prop where
  seek : playback.source.seekPending = false
  reset : playback.source.forceStretcherReset = false

end Playback

theorem pullBlock_eq (playback : Playback) (audio : LoadedAudio) (numOutput : ℕ) :
    let reading := (playback.course audio).read
      (pullCount id playback.source playback.renderer numOutput).1 playback.pullHead
    pullBlock id playback.source playback.renderer audio numOutput =
      ⟨reading.frames, reading.head, reading.ranDry⟩ :=
  (playback.course audio).pullFrom_eq _ _

/-- The source positions of the frames that the blocks of a run pulled. -/
def pulledFrames (rows : List (Machine.Entry Playback PlaybackEvent (Option Rendered))) : List ℚ :=
  rows.flatMap fun row => row.output.elim [] (·.pulled.frames)

/-- Calls and blocks that leave the course as it is. -/
def PlaybackEvent.keepsCourse : PlaybackEvent → Bool
  | .call (.load _) | .call (.seek _) | .call (.setLoop _) | .call (.setRepeat _)
  | .prepareToPlay _ _ => false
  | _ => true

section Runs

variable {outputLatencyFrames : ℚ → ℕ} {playback : Playback} {audio : LoadedAudio}

/-- What a run keeps from its start. -/
structure OnCourse (course : Course) (audio : LoadedAudio) (playback : Playback) : Prop where
  buffer : playback.source.activeBuffer = some audio
  asked : playback.NothingAsked
  same : playback.course audio = course

theorem afterRequests_of_nothingAsked (asked : playback.NothingAsked) :
    let taken := playback.afterRequests outputLatencyFrames
    taken.renderer = playback.renderer ∧
      taken.source = { playback.source with
        renderGeneration := playback.source.renderGeneration + 1 } := by
  obtain ⟨seek, reset⟩ := asked
  simp only [Playback.afterRequests, takeRequests, seek, reset, Bool.false_eq_true, ↓reduceIte,
    true_and]

theorem onCourse_afterRequests {course : Course} (onCourse : OnCourse course audio playback) :
    OnCourse course audio (playback.afterRequests outputLatencyFrames) ∧
      (playback.afterRequests outputLatencyFrames).pullHead = playback.pullHead := by
  obtain ⟨renderer, source⟩ := @afterRequests_of_nothingAsked outputLatencyFrames _ onCourse.asked
  refine ⟨⟨?_, ⟨?_, ?_⟩, ?_⟩, ?_⟩
  · rw [source]
    exact onCourse.buffer
  · rw [source]
    exact onCourse.asked.seek
  · rw [source]
    exact onCourse.asked.reset
  · rw [← onCourse.same, Playback.course, renderer, source]
    rfl
  · rw [Playback.pullHead, renderer, source]
    rfl

/-- A step of a run without calls that change the course: it stays on it, and the head moves
by the frames that were pulled. -/
theorem OnCourse.step {course : Course} (onCourse : OnCourse course audio playback)
    {event : PlaybackEvent} (keeps : event.keepsCourse = true) :
    let stepped := playback.step id outputLatencyFrames event
    OnCourse course audio stepped.1 ∧
      (stepped.2 = none ∧ stepped.1.pullHead = playback.pullHead ∨
        ∃ rendered, stepped.2 = some rendered ∧
          rendered.pulled.frames = (course.read rendered.pullFrames playback.pullHead).frames ∧
          rendered.pulled.ranDry = (course.read rendered.pullFrames playback.pullHead).ranDry ∧
          stepped.1.pullHead = (course.read rendered.pullFrames playback.pullHead).head) := by
  cases event with
  | call call =>
      cases call with
      | load => cases keeps
      | seek => cases keeps
      | setLoop => cases keeps
      | setRepeat => cases keeps
      | play | pause | setGain | setPlaybackRate | setPitchOffsetSemitones =>
          exact ⟨⟨onCourse.buffer, ⟨onCourse.asked.seek, onCourse.asked.reset⟩, onCourse.same⟩,
            .inl ⟨rfl, rfl⟩⟩
  | prepareToPlay => cases keeps
  | block numOutput =>
      obtain ⟨taken, head⟩ := @onCourse_afterRequests outputLatencyFrames _ _ _ onCourse
      rcases playback.step_block id outputLatencyFrames numOutput with
        ⟨other, heard, rendered⟩ | ⟨_, silent⟩
      · obtain rfl : audio = other :=
          Option.some.inj (taken.buffer.symm.trans (audible_some heard).1)
        have pull := pullBlock_eq (playback.afterRequests outputLatencyFrames) audio numOutput
        rw [taken.same, head] at pull
        dsimp only
        rw [rendered, renderBlock_eq]
        refine ⟨⟨taken.buffer, ⟨taken.asked.seek, taken.asked.reset⟩, taken.same⟩,
          .inr ⟨_, rfl, ?_, ?_, ?_⟩⟩
        · exact congrArg Pull.frames pull
        · exact congrArg Pull.ranDry pull
        · rw [Playback.pullHead]
          simp only [id_eq, sub_add_cancel]
          exact congrArg Pull.head pull
      · dsimp only
        rw [silent]
        exact ⟨⟨taken.buffer, ⟨taken.asked.seek, taken.asked.reset⟩, taken.same⟩, .inl ⟨rfl, head⟩⟩

theorem pulledFrames_cons (row : Machine.Entry Playback PlaybackEvent (Option Rendered))
    (rows : List (Machine.Entry Playback PlaybackEvent (Option Rendered))) :
    pulledFrames (row :: rows) = row.output.elim [] (·.pulled.frames) ++ pulledFrames rows := rfl

/-- The frames pulled in a run that does not run dry are those of one long reading, however
the run is divided, and its head is where that reading stops. -/
theorem OnCourse.run {course : Course} (onCourse : OnCourse course audio playback)
    {events : List PlaybackEvent} (keeps : ∀ event ∈ events, event.keepsCourse = true)
    (flowing : ∀ row ∈ Machine.trace (Playback.step id outputLatencyFrames) playback events,
      ∀ rendered, row.output = some rendered → rendered.pulled.ranDry = false) :
    let frames := pulledFrames (Machine.trace (Playback.step id outputLatencyFrames) playback events)
    frames = course.frames playback.pullHead frames.length ∧
      (Machine.run (Playback.step id outputLatencyFrames) playback events).pullHead =
        course.headAt playback.pullHead frames.length := by
  induction events generalizing playback with
  | nil => exact ⟨rfl, rfl⟩
  | cons event rest ih =>
      obtain ⟨own, others⟩ := List.forall_mem_cons.mp keeps
      obtain ⟨first, later⟩ := List.forall_mem_cons.mp flowing
      obtain ⟨next, moved⟩ := @OnCourse.step outputLatencyFrames _ _ _ onCourse _ own
      obtain ⟨frames, head⟩ := ih next others later
      simp only [Machine.trace, Machine.run, pulledFrames_cons, Machine.entry]
      rcases moved with ⟨quiet, same⟩ | ⟨rendered, output, pulled, dry, reached⟩
      · rw [same] at frames head
        rw [quiet]
        exact ⟨frames, head⟩
      · have flows := first rendered output
        rw [dry] at flows
        obtain ⟨whole, stopped⟩ := ReadHead.read_of_not_dry _ _ _ flows
        have own : rendered.pulled.frames =
            course.frames playback.pullHead rendered.pullFrames := pulled.trans whole
        have moved : (playback.step id outputLatencyFrames event).1.pullHead =
            course.headAt playback.pullHead rendered.pullFrames := reached.trans stopped
        rw [moved] at frames head
        rw [output]
        simp only [Option.elim_some, own, List.length_append, Course.length_frames,
          Course.frames_add, Course.headAt_add]
        exact ⟨congrArg _ frames, head⟩

end Runs

end DjApp.Engine
